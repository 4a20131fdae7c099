import HtmlViews.Proofs.Config.Lines
import Mathlib.Tactic.MkIffOfInductiveProp

/-!
# Settings written down

Settings are written as lines of the form `NAME="value"`, in any order, with blanks around their
parts, and with comments and other lines that make no setting between them. What is read is what was
written, whatever stands in the values.

A writing is a row of lines, each of which says what setting it is meant to make: one, if it is an
assignment, and none, if it is a comment or has no equals sign. That it makes just this is proved
for each kind of line alone (**Config.Line.setting?_text**); a row of lines then makes the settings
of its lines in their order, by induction. The end of a line is a line feed; a carriage return
before it is a blank at the end of the line, and makes no difference.

The order of the settings does not matter because each name stands once among them, which is so for
the entries of every dictionary (**Dict.ofList_of_perm**).

* **Config.IsName**, **Config.IsValue** — the names and values that can be written like this.
* **Config.Assignment**, **Config.Line**, **Config.Ending** — lines and how they end.
* **Config.Writing** — lines one behind the other.
* **Config.Writing.assignments_text** — the settings that a writing makes are those of its lines.
* **Config.parse_written** — settings that are written down are read as they were.
-/

namespace HtmlViews.Config

/-! ## Names and values -/

/-- A name that can be written before an equals sign: it is not taken for a comment, and has no
blanks at its ends. -/
@[mk_iff]
structure IsName (s : Text) : Prop where
  equals_not_mem : '=' ∉ s
  feed_not_mem : '\n' ∉ s
  not_comment : s.head? ≠ some '#'
  first : ∀ c ∈ s.head?, isBlank c = false
  last : ∀ c ∈ s.getLast?, isBlank c = false

/-- A value that can be written between quotes: it has no quotes of its own at its ends. -/
@[mk_iff]
structure IsValue (s : Text) : Prop where
  feed_not_mem : '\n' ∉ s
  first : ∀ c ∈ s.head?, isQuote c = false
  last : ∀ c ∈ s.getLast?, isQuote c = false

/-- A name and a value that can be written as a setting. -/
def IsEntry (e : String × String) : Prop :=
  IsName e.1.toList ∧ IsValue e.2.toList

instance : DecidablePred IsName := fun s =>
  decidable_of_iff
    ('=' ∉ s ∧ '\n' ∉ s ∧ s.head? ≠ some '#' ∧ s.head?.any isBlank = false ∧
      s.getLast?.any isBlank = false)
    (by rw [isName_iff, Option.any_eq_false, Option.any_eq_false]; rfl)

instance : DecidablePred IsValue := fun s =>
  decidable_of_iff
    ('\n' ∉ s ∧ s.head?.any isQuote = false ∧ s.getLast?.any isQuote = false)
    (by rw [isValue_iff, Option.any_eq_false, Option.any_eq_false]; rfl)

instance : DecidablePred IsEntry := fun e =>
  inferInstanceAs (Decidable (IsName e.1.toList ∧ IsValue e.2.toList))

/-! ## Lines -/

/-- Blanks within a line. -/
structure Gap where
  /-- The blanks. -/
  text : Text
  blank : ∀ c ∈ text, isBlank c = true
  feed_not_mem : '\n' ∉ text

/-- No blanks at all. -/
def Gap.none : Gap where
  text := []
  blank := List.forall_mem_nil _
  feed_not_mem := List.not_mem_nil

/-- A line that makes a setting: a name, an equals sign and a value between quotes, with blanks
around these. -/
structure Assignment where
  /-- The name of the setting. -/
  name : Text
  /-- The value between the quotes. -/
  value : Text
  isName : IsName name
  isValue : IsValue value
  /-- The blanks before the name. -/
  indent : Gap
  /-- The blanks before the equals sign. -/
  before : Gap
  /-- The blanks behind the equals sign. -/
  behind : Gap
  /-- The blanks behind the value. -/
  trailing : Gap

namespace Assignment

/-- The value with the quotes around it. -/
def quoted (a : Assignment) : Text :=
  '"' :: a.value ++ ['"']

/-- The line as it is written. -/
def text (a : Assignment) : Text :=
  a.indent.text ++ (a.name ++ a.before.text) ++
    '=' :: (a.behind.text ++ (a.quoted ++ a.trailing.text))

/-- The setting that the line makes. -/
def entry (a : Assignment) : String × String :=
  (String.ofList a.name, String.ofList a.value)

/-- A line that makes a setting has no line feed. -/
theorem feed_not_mem_text (a : Assignment) : '\n' ∉ a.text := by
  simp [text, quoted, a.indent.feed_not_mem, a.isName.feed_not_mem, a.before.feed_not_mem,
    a.behind.feed_not_mem, a.isValue.feed_not_mem, a.trailing.feed_not_mem]

/-- Between its quotes stands the value, with all quotes of its own. -/
theorem strip_quoted (a : Assignment) : Text.strip isQuote a.quoted = a.value := by
  have hquote : ∀ c ∈ ['"'], isQuote c = true :=
    List.forall_mem_singleton.mpr rfl
  exact Text.strip_run hquote hquote a.isValue.first a.isValue.last

/-- The line makes its setting. -/
theorem setting?_text (a : Assignment) : setting? a.text = some a.entry := by
  have hequals : ∀ gap : Gap, '=' ∉ gap.text := fun gap =>
    Text.not_mem_of_forall gap.blank (by decide)
  have hfront : '=' ∉ a.indent.text ++ (a.name ++ a.before.text) := by
    simp [hequals, a.isName.equals_not_mem]
  have hname : Text.trim (a.indent.text ++ (a.name ++ a.before.text)) = a.name :=
    Text.strip_run a.indent.blank a.before.blank a.isName.first a.isName.last
  have hvalue : Text.trim (a.behind.text ++ (a.quoted ++ a.trailing.text)) = a.quoted := by
    rw [Text.trim, Text.strip_append_left a.behind.blank, Text.strip_append_right a.trailing.blank]
    exact Text.strip_between (by decide) (by decide) a.value
  rw [text, setting?_append_cons hfront, hname, if_neg a.isName.not_comment, hvalue, strip_quoted,
    entry]

/-- A setting written without blanks around its parts. -/
def ofEntry (e : String × String) (h : IsEntry e) : Assignment where
  name := e.1.toList
  value := e.2.toList
  isName := h.1
  isValue := h.2
  indent := .none
  before := .none
  behind := .none
  trailing := .none

/-- A setting that is written without blanks is the one that was to be written. -/
theorem entry_ofEntry {e : String × String} (h : IsEntry e) : (ofEntry e h).entry = e := by
  simp only [entry, ofEntry, String.ofList_toList]

end Assignment

/-- A line of settings. -/
inductive Line where
  /-- A line that makes a setting. -/
  | assignment (a : Assignment)
  /-- A comment: a number sign and any text behind it. -/
  | comment (indent : Gap) (text : Text) (feed_not_mem : '\n' ∉ text)
  /-- A line without equals sign, which may be blank. -/
  | other (text : Text) (equals_not_mem : '=' ∉ text) (feed_not_mem : '\n' ∉ text)

namespace Line

/-- A line without characters. -/
def blank : Line :=
  .other [] List.not_mem_nil List.not_mem_nil

/-- A line as it is written, without its end. -/
def text : Line → Text
  | .assignment a => a.text
  | .comment indent text _ => indent.text ++ '#' :: text
  | .other text _ _ => text

/-- The setting that a line is meant to make. -/
def entry? : Line → Option (String × String)
  | .assignment a => some a.entry
  | .comment _ _ _ => none
  | .other _ _ _ => none

/-- No line has a line feed in it. -/
theorem feed_not_mem_text (l : Line) : '\n' ∉ l.text := by
  cases l with
  | assignment a => exact a.feed_not_mem_text
  | comment indent text hfeed => simp [Line.text, indent.feed_not_mem, hfeed]
  | other text hequals hfeed => exact hfeed

/-- A line makes the setting that it is meant to make. -/
theorem setting?_text (l : Line) : setting? l.text = l.entry? := by
  cases l with
  | assignment a => exact a.setting?_text
  | comment indent text hfeed => exact setting?_comment indent.blank text
  | other text hequals hfeed => exact setting?_of_not_mem hequals

end Line

/-! ## Texts -/

/-- How a line ends: with a line feed, and maybe a carriage return before it. -/
inductive Ending where
  /-- A line feed alone. -/
  | lf
  /-- A carriage return and a line feed. -/
  | crlf

namespace Ending

/-- What stands before the line feed. -/
def front : Ending → Text
  | .lf => []
  | .crlf => ['\r']

/-- The end of a line as it is written. -/
def text (e : Ending) : Text :=
  e.front ++ ['\n']

/-- Before the line feed at the end of a line stand only blanks. -/
theorem blank_front (e : Ending) : ∀ c ∈ e.front, isBlank c = true := by
  cases e with
  | lf => exact List.forall_mem_nil _
  | crlf => exact List.forall_mem_singleton.mpr rfl

/-- The line feed at the end of a line is its first one. -/
theorem feed_not_mem_front (e : Ending) : '\n' ∉ e.front := by
  cases e <;> decide

end Ending

/-- Lines one behind the other. -/
structure Writing where
  /-- The lines with their ends. -/
  lines : List (Line × Ending)
  /-- What stands behind the last end of a line. -/
  last : Line

namespace Writing

/-- Lines with their ends, and a last line. -/
def textFrom (last : Line) : List (Line × Ending) → Text
  | [] => last.text
  | (l, e) :: lines => l.text ++ (e.text ++ textFrom last lines)

/-- The settings of lines and of a last line. -/
def entriesFrom (last : Line) : List (Line × Ending) → List (String × String)
  | [] => last.entry?.toList
  | (l, _) :: lines => l.entry?.toList ++ entriesFrom last lines

/-- The text that is written. -/
def text (w : Writing) : Text :=
  textFrom w.last w.lines

/-- The settings that are written, in the order of their lines. -/
def entries (w : Writing) : List (String × String) :=
  entriesFrom w.last w.lines

/-- One line and its end before other lines: what it makes comes first. -/
theorem assignments_line (l : Line) (e : Ending) (s : Text) :
    assignments (l.text ++ (e.text ++ s)) = l.entry?.toList ++ assignments s := by
  -- A carriage return before the line feed is a blank at the end of the line.
  have hline : l.text ++ (e.text ++ s) = (l.text ++ e.front) ++ '\n' :: s := by
    simp only [Ending.text, List.append_assoc, List.singleton_append]
  have hfeed : '\n' ∉ l.text ++ e.front := by
    rw [List.mem_append, not_or]
    exact ⟨l.feed_not_mem_text, e.feed_not_mem_front⟩
  rw [hline, assignments_append_feed, assignments_of_not_mem hfeed, setting?_append e.blank_front,
    l.setting?_text]

/-- The settings that a writing makes are those of its lines. -/
theorem assignments_text (w : Writing) : assignments w.text = w.entries := by
  obtain ⟨lines, last⟩ := w
  unfold text entries
  induction lines with
  | nil =>
    show assignments last.text = last.entry?.toList
    rw [assignments_of_not_mem last.feed_not_mem_text, last.setting?_text]
  | cons line lines ih =>
    obtain ⟨l, e⟩ := line
    rw [textFrom, entriesFrom, assignments_line, ih]

/-- All settings of this kind can be written, one in each line. -/
theorem exists_entries_eq {es : List (String × String)} (h : ∀ e ∈ es, IsEntry e) :
    ∃ w : Writing, w.entries = es := by
  induction es with
  | nil => exact ⟨⟨[], Line.blank⟩, rfl⟩
  | cons e es ih =>
    obtain ⟨he, hes⟩ := List.forall_mem_cons.mp h
    obtain ⟨w, hw⟩ := ih hes
    refine ⟨⟨(.assignment (.ofEntry e he), .lf) :: w.lines, w.last⟩, ?_⟩
    show [(Assignment.ofEntry e he).entry] ++ w.entries = e :: es
    rw [Assignment.entry_ofEntry, hw, List.singleton_append]

end Writing

/-- **Settings that are written down are read as they were.** They can be written if no name has an
equals sign, a line feed or blanks at its ends, or looks like a comment, and no value has a line
feed or quotes at its ends. However they are written then, in whatever order, with whatever blanks,
comments, other lines and ends of lines, the settings that are read are these and no others. -/
theorem parse_written {c : Config} (hentries : ∀ e ∈ c.values.entries, IsEntry e) :
    (∃ w : Writing, w.entries.Perm c.values.entries) ∧
      ∀ w : Writing, w.entries.Perm c.values.entries → parse w.text = c := by
  constructor
  · obtain ⟨w, hw⟩ := Writing.exists_entries_eq hentries
    exact ⟨w, List.Perm.of_eq hw⟩
  · intro w hw
    rw [parse_eq_ofList, w.assignments_text, Dict.ofList_of_perm hw]

/-- Three settings from the last to the first: a value of blanks, a number sign and an equals sign,
one with a quote in it, and an empty one under an empty name. -/
def mixedWriting : Writing where
  lines := [
    (.comment .none " not = set".toList (by decide), .crlf),
    (.assignment
      { name := "B C".toList, value := " # = ".toList
        isName := by decide, isValue := by decide
        indent := ⟨"  ".toList, List.all_eq_true.mp (by decide), by decide⟩
        before := ⟨"\t".toList, List.all_eq_true.mp (by decide), by decide⟩
        behind := ⟨" ".toList, List.all_eq_true.mp (by decide), by decide⟩
        trailing := .none }, .crlf),
    (.blank, .lf),
    (.other "nothing set".toList (by decide) (by decide), .lf),
    (.assignment (.ofEntry ("A", "x\"y") (by decide)), .lf)]
  last := .assignment (.ofEntry ("", "") (by decide))

/-- Three settings with such values are read from lines of different kinds. -/
theorem parse_written_mixed :
    parse "# not = set\r\n  B C\t= \" # = \"\r\n\nnothing set\nA=\"x\"y\"\n=\"\"".toList =
      ⟨.ofList [("", ""), ("A", "x\"y"), ("B C", " # = ")]⟩ := by
  have htext : mixedWriting.text =
      "# not = set\r\n  B C\t= \" # = \"\r\n\nnothing set\nA=\"x\"y\"\n=\"\"".toList := by
    decide
  have hperm : mixedWriting.entries.Perm
      (Dict.ofList [("", ""), ("A", "x\"y"), ("B C", " # = ")]).entries := by
    decide
  rw [← htext]
  exact (parse_written (c := ⟨.ofList [("", ""), ("A", "x\"y"), ("B C", " # = ")]⟩)
    (by decide)).2 mixedWriting hperm

end HtmlViews.Config
