import HtmlViews.Proofs.Component.Calls
import HtmlViews.Proofs.Component.Items
import HtmlViews.Proofs.Dict

/-!
# Parameters that are printed

Parameters are printed between braces, each under a key that is a word between quotes: strings
between quotes that do not occur in them, and lists of strings between brackets. A string ends at
its quote, so nothing that stands in it is taken for another parameter.

Reading looks for parameters from left to right: a key between quotes, a colon, and a value up to
its own end. The proof shows that a parameter which is printed is read up to its end whatever
follows (**Component.Setting.read_text**), and that between two of them nothing is read; then the
parameters that are found are those that were printed, by induction on their row. What a string
contains is not looked at, since the string is read as a whole.

The parameters that are found are put in one after the other, so of two with one key the later one
counts.

* **Component.Printed**, **Component.Key**, **Component.Setting** — a value, a key and a parameter
  as they are printed.
* **Component.parseParams_settings** — what is read of parameters that are printed.
* **Component.parseParams_printed** — parameters that are printed are read back.
* **Component.parseParams_list_iff** — a list is read back exactly if none of its strings is cut or
  stripped.
* **Component.ofArguments?_arguments** — the call that a name and parameters make.
* **Component.isArgument_arguments** — where such arguments end.
-/

namespace HtmlViews.Component

/-! ## Values -/

/-- A value as it is printed. -/
inductive Printed where
  /-- A string between quotes that do not occur in it. -/
  | string (s : Literal) (h : s.quote ∉ s.body)
  /-- A list of strings in which no bracket is closed. -/
  | list (items : List Literal) (h : ∀ i ∈ items, ']' ∉ i.body)

namespace Printed

/-- The text that is printed. -/
def text : Printed → Text
  | .string s _ => s.text
  | .list items _ => '[' :: enumerated items ++ [']']

/-- The value that was meant. -/
def value : Printed → Value
  | .string s _ => s.value
  | .list items _ => .array (items.map Literal.value)

/-- The value that is read. -/
def read : Printed → Value
  | .string s _ => s.value
  | .list items _ =>
    .array ((items.flatMap fun i => parts i.body).map fun t => .str (String.ofList t))

/-- Whether none of the strings of a list is cut or stripped. -/
def IsPlain : Printed → Prop
  | .string _ _ => True
  | .list items _ => ∀ i ∈ items, i.IsItem

/-- Plain parameters are read as the values that they are printed for. -/
theorem IsPlain.read_eq {v : Printed} (h : v.IsPlain) : v.read = v.value := by
  cases v with
  | string s _ => rfl
  | list items _ =>
    have hparts := (flatMap_parts_eq_iff fun i hi => (h i hi).body_ne_nil).mpr h
    rw [read, hparts, List.map_map]
    rfl

/-- A value that is printed is read up to its end, whatever follows. -/
theorem read_text (v : Printed) (r : Text) :
    ∃ a, Argument.read (v.text ++ r) = (a, r) ∧ a.value = v.read := by
  cases v with
  | string s h =>
    have hcut := Text.cut?_run h r
    have htext : (Printed.string s h).text ++ r = s.quote :: (s.body ++ s.quote :: r) := by
      simp [text, Literal.text]
    have hbracket : s.quote ≠ '[' := ne_of_isQuote s.isQuote_quote rfl
    refine ⟨.quoted s.body, ?_, rfl⟩
    simp [htext, Argument.read, hbracket, s.isQuote_quote, hcut]
  | list items h =>
    have hcut := Text.cut?_run (bracket_not_mem_enumerated h) r
    have htext : (Printed.list items h).text ++ r = '[' :: (enumerated items ++ ']' :: r) := by
      simp [text]
    refine ⟨.items (enumerated items), ?_, ?_⟩
    · simp [htext, Argument.read, hcut]
    · rw [Argument.value, itemsOf_eq_map_parts, parts_enumerated, read]

/-- What is printed begins with a quote or a bracket, so with no blank. -/
theorem dropBlanks_text (v : Printed) (r : Text) : Text.dropBlanks (v.text ++ r) = v.text ++ r := by
  cases v with
  | string s _ => exact dropBlanks_of_isQuote s.isQuote_quote _
  | list items _ => rfl

end Printed

/-! ## Parameters -/

/-- A key as it is printed: a word between quotes. -/
structure Key where
  /-- The quote before and behind the word. -/
  quote : Char
  /-- The word. -/
  word : Text
  isQuote_quote : isQuote quote = true
  word_ne_nil : word ≠ []
  isWord_word : ∀ c ∈ word, isWord c = true

/-- The name that a key stands for. -/
def Key.name (k : Key) : String :=
  String.ofList k.word

/-- A parameter as it is printed. -/
structure Setting where
  /-- The key. -/
  key : Key
  /-- The value. -/
  value : Printed

namespace Setting

/-- The text that is printed. -/
def text (p : Setting) : Text :=
  p.key.quote :: p.key.word ++ [p.key.quote] ++ ([':', ' '] ++ p.value.text)

/-- The entry that is read. -/
def entry (p : Setting) : String × Value :=
  (p.key.name, p.value.read)

/-- A parameter that is printed is read up to its end, whatever follows. -/
theorem read_text (p : Setting) (r : Text) :
    ∃ a, param? (p.text ++ r) = some ((p.key.word, a), r) ∧ a.value = p.value.read := by
  obtain ⟨a, hread, hvalue⟩ := p.value.read_text r
  have hend : isWord p.key.quote = false := by
    have hnot := isNamePart_of_isQuote p.key.isQuote_quote
    simp only [isNamePart, Bool.or_eq_false_iff] at hnot
    exact hnot.1.1.1
  have hkey := quotedWord?_quoted p.key.isQuote_quote p.key.isQuote_quote hend p.key.word_ne_nil
    p.key.isWord_word (':' :: ' ' :: (p.value.text ++ r))
  have htext : p.text ++ r =
      p.key.quote :: (p.key.word ++ p.key.quote :: ':' :: ' ' :: (p.value.text ++ r)) := by
    simp [text]
  have hcolon : Text.after? [':'] (Text.dropBlanks (':' :: ' ' :: (p.value.text ++ r))) =
      some (' ' :: (p.value.text ++ r)) := by
    rfl
  have hspace : Text.dropBlanks (' ' :: (p.value.text ++ r)) = p.value.text ++ r :=
    p.value.dropBlanks_text r
  refine ⟨a, ?_, hvalue⟩
  simp only [htext, param?, hkey, Option.bind_eq_bind, Option.bind_some, hcolon, hspace, hread]
  rfl

end Setting

/-- Parameters as they are printed. -/
def settings (ps : List Setting) : Text :=
  '{' :: Text.joinWith separator (ps.map Setting.text) ++ ['}']

/-- There are no blanks before and behind the braces. -/
theorem trim_settings (ps : List Setting) : Text.trim (' ' :: settings ps) = settings ps := by
  have hspace : isBlank ' ' = true := by decide
  have hopening : isBlank '{' = false := by decide
  have hclosing : isBlank '}' = false := by decide
  rw [Text.trim, Text.strip_cons hspace]
  exact Text.strip_between hopening hclosing _

/-! ## What is read -/

/-- The parameters that are found in a text, in their order. -/
def entries (s : Text) : List (String × Value) :=
  (Text.pieces paramReader s).filterMap fun
    | .plain _ => none
    | .found (key, argument) => some (String.ofList key, argument.value)

/-- Parameters are the entries that are found, put in one after the other. -/
theorem parseParams_eq (s : Text) : parseParams s = .ofList (entries s) :=
  rfl

/-- Every parameter begins with a quote. -/
theorem entries_cons {c : Char} (hc : isQuote c = false) (s : Text) :
    entries (c :: s) = entries s := by
  have hnone : paramReader.read (c :: s) = none := by
    simp [paramReader, param?, quotedWord?, hc]
  rw [entries, Text.pieces_cons_of_none hnone]
  rfl

/-- A setting in front is found first. -/
theorem entries_text (p : Setting) (r : Text) : entries (p.text ++ r) = p.entry :: entries r := by
  obtain ⟨a, hread, hvalue⟩ := p.read_text r
  have hfound : paramReader.read (p.text ++ r) = some ((p.key.word, a), r) := hread
  rw [entries, Text.pieces_of_some hfound, Setting.entry, ← hvalue]
  rfl

/-- In a list of settings exactly these are found. -/
theorem entries_joinWith (ps : List Setting) :
    entries (Text.joinWith separator (ps.map Setting.text) ++ ['}']) = ps.map Setting.entry := by
  have hend : entries ['}'] = [] := by
    rw [entries_cons rfl, entries, Text.pieces_nil]
    rfl
  induction ps with
  | nil => exact hend
  | cons p ps ih =>
    cases ps with
    | nil =>
      rw [List.map_singleton, Text.joinWith_singleton, entries_text, hend, List.map_singleton]
    | cons q ps =>
      have hseparator : ∀ r, entries (separator ++ r) = entries r := by
        intro r
        exact (entries_cons rfl _).trans (entries_cons rfl _)
      rw [List.map_cons, List.map_cons, Text.joinWith_cons_cons, List.append_assoc, entries_text,
        List.append_assoc, hseparator, ← List.map_cons, ih]
      rfl

/-- What is read of parameters that are printed, whatever stands in their strings. -/
theorem parseParams_settings (ps : List Setting) :
    parseParams (settings ps) = .ofList (ps.map Setting.entry) := by
  rw [parseParams_eq, settings, List.cons_append, entries_cons rfl, entries_joinWith]

/-- **Parameters that are printed are read back**, whatever stands in their strings: braces and
brackets, commas and colons, or the text of other parameters; so are lists of strings none of which
is cut or stripped. Of two parameters under one key the later counts. -/
theorem parseParams_printed {ps : List Setting} (h : ∀ p ∈ ps, p.value.IsPlain) :
    parseParams (settings ps) = .ofList (ps.map fun p => (p.key.name, p.value.value)) ∧
      ∀ name, (parseParams (settings ps)).find? name =
        (ps.map fun p => (p.key.name, p.value.value)).reverse.lookup name := by
  have hentries : ps.map Setting.entry = ps.map fun p => (p.key.name, p.value.value) := by
    apply List.map_congr_left
    intro p hp
    rw [Setting.entry, (h p hp).read_eq]
  rw [parseParams_settings, hentries]
  exact ⟨rfl, Dict.find?_ofList _⟩

/-- A string that spells another parameter, in the quotes it does not contain, a list, and a second
parameter under the key of the first. -/
theorem parseParams_printed_lookalike :
    let label : Key := ⟨'\'', "label".toList, rfl, by decide,
      List.all_eq_true.mp (by decide)⟩
    let notes : Key := ⟨'"', "notes".toList, rfl, by decide,
      List.all_eq_true.mp (by decide)⟩
    let items : List Literal := [⟨'\'', "a: b".toList, rfl⟩, ⟨'"', "it's".toList, rfl⟩]
    let ps : List Setting := [⟨label, .string ⟨'"', "old".toList, rfl⟩ (by decide)⟩,
      ⟨notes, .list items (by decide)⟩,
      ⟨label, .string ⟨'"', "x', 'notes': ['y'], \n\x7d".toList, rfl⟩ (by decide)⟩]
    settings ps = ("\x7b'label': \"old\", \"notes\": ['a: b', \"it's\"], ".toList ++
        "'label': \"x', 'notes': ['y'], \n\x7d\"\x7d".toList) ∧
      (∀ p ∈ ps, p.value.IsPlain) ∧
      (parseParams (settings ps)).find? "label" = some (.str "x', 'notes': ['y'], \n\x7d") ∧
      (parseParams (settings ps)).find? "notes" = some (.array [.str "a: b", .str "it's"]) := by
  intro label notes items ps
  have hitems : ∀ i ∈ items, i.IsItem := by
    intro i hi
    rcases List.mem_cons.mp hi with rfl | hi
    · exact ⟨by decide, by decide, by rintro _ ⟨⟩; rfl, by rintro _ ⟨⟩; rfl⟩
    · rw [List.mem_singleton.mp hi]
      exact ⟨by decide, by decide, by rintro _ ⟨⟩; rfl, by rintro _ ⟨⟩; rfl⟩
  have hplain : ∀ p ∈ ps, p.value.IsPlain := by
    intro p hp
    simp only [ps, List.mem_cons, List.not_mem_nil, or_false] at hp
    rcases hp with rfl | rfl | rfl
    · trivial
    · exact hitems
    · trivial
  have hfind := (parseParams_printed hplain).2
  refine ⟨by decide, hplain, ?_, ?_⟩
  · rw [hfind]
    rfl
  · rw [hfind]
    rfl

/-- **A list of strings is read back exactly if none of its strings is cut or stripped.** What is
read of a list are the parts of one string after the other: the strings are cut at their commas, and
spaces and quotes at the ends of the parts are lost. So the array has the strings that were printed
exactly if none contains a comma or begins or ends with a space or a quote. -/
theorem parseParams_list_iff (key : Key) {items : List Literal}
    (hbracket : ∀ i ∈ items, ']' ∉ i.body) (hne : ∀ i ∈ items, i.body ≠ []) :
    parseParams (settings [⟨key, .list items hbracket⟩]) =
        .ofList [(key.name, .array ((items.flatMap fun i => parts i.body).map
          fun t => .str (String.ofList t)))] ∧
      (parseParams (settings [⟨key, .list items hbracket⟩]) =
          .ofList [(key.name, .array (items.map Literal.value))] ↔
        ∀ i ∈ items, i.IsItem) := by
  have hread := parseParams_settings [⟨key, .list items hbracket⟩]
  refine ⟨hread, ?_⟩
  rw [hread, ← flatMap_parts_eq_iff hne]
  constructor
  · intro h
    have hvalue := congrArg (Dict.find? · key.name) h
    simp only [List.map_singleton, Setting.entry, Dict.find?_ofList, List.reverse_singleton,
      List.lookup_cons_self, Option.some.injEq, Printed.read, Value.array.injEq] at hvalue
    have hinjective : Function.Injective fun t => Value.str (String.ofList t) := by
      intro s t hst
      exact String.ofList_injective (Value.str.inj hst)
    apply List.map_injective_iff.mpr hinjective
    rw [hvalue, List.map_map]
    rfl
  · intro h
    rw [List.map_singleton, Setting.entry, Printed.read, h, List.map_map]
    rfl

/-- A string with a comma makes two items, and one that begins with a space loses it. -/
theorem parseParams_list_iff_cut :
    let key : Key := ⟨'\'', "k".toList, rfl, by decide, List.all_eq_true.mp (by decide)⟩
    let items : List Literal := [⟨'\'', "a, b".toList, rfl⟩, ⟨'\'', " c".toList, rfl⟩]
    let text := "\x7b'k': ['a, b', ' c']\x7d".toList
    (∃ hbracket, settings [⟨key, .list items hbracket⟩] = text) ∧ (∀ i ∈ items, i.body ≠ []) ∧
      parseParams text = .ofList [("k", .array [.str "a", .str "b", .str "c"])] ∧
      parseParams text ≠ .ofList [("k", .array [.str "a, b", .str " c"])] := by
  intro key items text
  have hbracket : ∀ i ∈ items, ']' ∉ i.body := by decide
  have hne : ∀ i ∈ items, i.body ≠ [] := by decide
  have hlist := parseParams_list_iff key hbracket hne
  refine ⟨⟨hbracket, rfl⟩, hne, hlist.1, fun h => ?_⟩
  have hitem := hlist.2.mp h ⟨'\'', "a, b".toList, rfl⟩ List.mem_cons_self
  exact absurd hitem.comma_not_mem (by decide)

/-- Not every list of strings without quotes and closing brackets is read back. -/
theorem not_forall_parseParams_list :
    ¬ ∀ (key : Key) (items : List Literal) (hbracket : ∀ i ∈ items, ']' ∉ i.body),
      (∀ i ∈ items, i.body ≠ [] ∧ ∀ c ∈ i.body, isQuote c = false) →
      parseParams (settings [⟨key, .list items hbracket⟩]) =
        .ofList [(key.name, .array (items.map Literal.value))] := by
  intro h
  have hplain : ∀ c ∈ "a, b".toList, isQuote c = false := by
    simp [isQuote]
  have hread := h ⟨'\'', "k".toList, rfl, by decide, List.all_eq_true.mp (by decide)⟩
    [⟨'\'', "a, b".toList, rfl⟩] (by decide) (List.forall_mem_singleton.mpr ⟨by decide, hplain⟩)
  rw [parseParams_settings] at hread
  have hvalue : some (Value.array [.str "a", .str "b"]) = some (.array [.str "a, b"]) :=
    congrArg (Dict.find? · "k") hread
  have hitems := Value.array.inj (Option.some.inj hvalue)
  exact absurd (congrArg List.length hitems) (by decide)

/-! ## Calls -/

/-- The arguments of a call: the name of a component and parameters. -/
def arguments (name : Text) (ps : List Setting) : Text :=
  '\'' :: name ++ ['\''] ++ (separator ++ settings ps)

/-- Arguments that are printed make a call with the parameters that are read. -/
theorem ofArguments?_arguments {name : Text} (hne : name ≠ [])
    (hname : ∀ c ∈ name, isNamePart c = true) (ps : List Setting) :
    Call.ofArguments? (arguments name ps) = some ⟨name, .ofList (ps.map Setting.entry)⟩ := by
  have hquote : isQuote '\'' = true := rfl
  have hword := quotedWord?_quoted hquote hquote (isNamePart_of_isQuote hquote) hne hname
    (separator ++ settings ps)
  have htext : arguments name ps = '\'' :: (name ++ '\'' :: (separator ++ settings ps)) := by
    simp [arguments]
  rw [Call.ofArguments?, htext, dropBlanks_of_isQuote hquote, hword]
  show some (Call.mk name (parseParams (Text.trim (' ' :: settings ps)))) = _
  rw [trim_settings, parseParams_settings]

/-- Arguments are closed by the parenthesis behind them if the values of the parameters are
balanced. -/
theorem isArgument_arguments {name : Text} (hname : ∀ c ∈ name, isNamePart c = true)
    {ps : List Setting} (h : ∀ p ∈ ps, p.value.text.Balanced) :
    Text.IsArgument (arguments name ps) := by
  have hsetting : ∀ p ∈ ps, p.text.Balanced := by
    intro p hp
    have hkey : Text.Balanced (p.key.quote :: p.key.word ++ [p.key.quote]) := by
      apply Text.Balanced.quoted p.key.isQuote_quote
      intro hmem
      have hpart := isNamePart_of_isQuote p.key.isQuote_quote
      simp [isNamePart, p.key.isWord_word _ hmem] at hpart
    have hcolon : Text.Balanced [':', ' '] := .of_neutral (List.all_eq_true.mp rfl)
    exact hkey.append (hcolon.append (h p hp))
  have hjoined : (Text.joinWith separator (ps.map Setting.text)).Balanced := by
    apply Text.joinWith_induction .nil .append (.of_neutral (List.all_eq_true.mp rfl))
    intro t ht
    obtain ⟨p, hp, rfl⟩ := List.mem_map.mp ht
    exact hsetting p hp
  have hopening : Text.Balanced ['{'] := .neutral rfl
  have hclosing : Text.Balanced ['}'] := .neutral rfl
  have hseparator : separator.Balanced := .of_neutral (List.all_eq_true.mp rfl)
  have hquoted : Text.Balanced ('\'' :: name ++ ['\'']) :=
    .quoted rfl (Text.not_mem_of_forall hname (isNamePart_of_isQuote rfl))
  exact (hquoted.append (hseparator.append ((hopening.append hjoined).append hclosing))).argument

end HtmlViews.Component
