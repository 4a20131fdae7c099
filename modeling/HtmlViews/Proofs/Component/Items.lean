import HtmlViews.Directive.Component
import HtmlViews.Proofs.Text.Parts

/-!
# Items of a list

A list of strings is printed with a comma and a space between the strings, each of them between
quotes. It is read by a cut at every comma, and only then the quotes are taken off: a comma in a
string separates items like any other, and spaces and quotes at the ends of a string are lost.

Which lists are read back as they were printed is a question about lengths. Nothing is added when a
list is cut and stripped; so the strings come back as they were only if nothing is missing, and
nothing is missing in all of them together only if nothing is missing in each
(**Component.length_flatMap_parts**). A string of which nothing is missing has no comma in it and
nothing to strip at its ends, and is one part of the list (**Component.isItem_of_length_parts**).

* **Component.Literal** — a text between two equal quotes.
* **Component.parts** — the parts of a list, as texts.
* **Component.parts_enumerated** — the parts of a list that is printed are those of one string after
  the other.
* **Component.flatMap_parts_eq_iff** — they are the strings exactly if none of these is cut or
  stripped.
-/

namespace HtmlViews.Component

/-! ## Strings -/

/-- A text between two equal quotes. -/
structure Literal where
  /-- The quote before and behind it. -/
  quote : Char
  /-- What stands between the quotes. -/
  body : Text
  isQuote_quote : isQuote quote = true

namespace Literal

/-- The text with its quotes. -/
def text (i : Literal) : Text :=
  i.quote :: i.body ++ [i.quote]

/-- The value that it stands for. -/
def value (i : Literal) : Value :=
  .str (String.ofList i.body)

/-- What stands neither in the string nor for a quote does not stand in its text. -/
theorem not_mem_text (i : Literal) {c : Char} (hquote : isQuote c = false) (hc : c ∉ i.body) :
    c ∉ i.text := by
  have hne := (ne_of_isQuote i.isQuote_quote hquote).symm
  simp [text, hne, hc]

/-- Whether a string is one part of a list: it is not empty, separates nothing, and does not begin
or end with what is stripped from the parts of a list. -/
structure IsItem (i : Literal) : Prop where
  body_ne_nil : i.body ≠ []
  comma_not_mem : ',' ∉ i.body
  first : ∀ c ∈ i.body.head?, isItemEdge c = false
  last : ∀ c ∈ i.body.getLast?, isItemEdge c = false

end Literal

/-! ## Parts of a list -/

/-- The parts of a list that is written without its brackets: what stands between the commas,
without the spaces and quotes around it. Empty ones do not count. -/
def parts (s : Text) : List Text :=
  ((Text.splitOn ',' s).map (Text.strip isItemEdge)).filter (· ≠ [])

/-- The items of a list are the parts of the text between its brackets. -/
theorem itemsOf_eq_map_parts (s : Text) :
    itemsOf s = (parts s).map fun t => .str (String.ofList t) := by
  unfold itemsOf parts
  induction (Text.splitOn ',' s).map (Text.strip isItemEdge) with
  | nil => rfl
  | cons t ts ih => by_cases ht : t = [] <;> simp [ht, ih]

/-- At a comma a text is taken apart. -/
theorem parts_append_cons (s t : Text) : parts (s ++ ',' :: t) = parts s ++ parts t := by
  rw [parts, Text.splitOn_append_cons, List.map_append, List.filter_append]
  rfl

/-- What is stripped from the ends of an item is no comma. -/
theorem ne_comma_of_isItemEdge {c : Char} (hc : isItemEdge c = true) : c ≠ ',' := by
  rintro rfl
  cases hc

/-- What is stripped from parts adds nothing in front of a list. -/
theorem parts_cons_of_isItemEdge {c : Char} (hc : isItemEdge c = true) (s : Text) :
    parts (c :: s) = parts s := by
  obtain ⟨part, rest, h⟩ := List.exists_cons_of_ne_nil (Text.splitOn_ne_nil ',' s)
  rw [parts, Text.splitOn_cons_of_ne (ne_comma_of_isItemEdge hc) h, List.map_cons,
    Text.strip_cons hc, ← List.map_cons, ← h]
  rfl

/-- What is stripped from parts adds nothing behind a list. -/
theorem parts_concat_of_isItemEdge {c : Char} (hc : isItemEdge c = true) (s : Text) :
    parts (s ++ [c]) = parts s := by
  obtain ⟨front, last, hs⟩ :=
    (Text.splitOn ',' s).eq_nil_or_concat'.resolve_left (Text.splitOn_ne_nil ',' s)
  have hsplit : Text.splitOn ',' (s ++ [c]) = front ++ [last ++ [c]] :=
    Text.splitOn_append hs (Text.splitOn_cons_of_ne (ne_comma_of_isItemEdge hc) rfl)
  rw [parts, hsplit, List.map_append, List.map_singleton, Text.strip_concat hc,
    ← List.map_singleton, ← List.map_append, ← hs]
  rfl

/-- The quotes of a string are stripped, so its parts are those of what stands between them. -/
theorem parts_text (i : Literal) : parts i.text = parts i.body := by
  have hquote : isItemEdge i.quote = true := by
    simp [isItemEdge, i.isQuote_quote]
  rw [Literal.text, List.cons_append, parts_cons_of_isItemEdge hquote,
    parts_concat_of_isItemEdge hquote]

/-- What stands between two parameters or two items. -/
def separator : Text :=
  [',', ' ']

/-- The items of a list as they are printed, without the brackets. -/
def enumerated (items : List Literal) : Text :=
  Text.joinWith separator (items.map Literal.text)

/-- The parts of a list that is printed are those of one string after the other. -/
theorem parts_enumerated (items : List Literal) :
    parts (enumerated items) = items.flatMap fun i => parts i.body := by
  induction items with
  | nil => rfl
  | cons i items ih =>
    cases items with
    | nil =>
      have htext : enumerated [i] = i.text := Text.joinWith_singleton _ _
      rw [htext, parts_text, List.flatMap_singleton]
    | cons j items =>
      have htext : enumerated (i :: j :: items) =
          i.text ++ ',' :: (' ' :: enumerated (j :: items)) := by
        simp [enumerated, separator]
      rw [htext, parts_append_cons, parts_text, parts_cons_of_isItemEdge rfl, ih]
      rfl

/-- If no item has a closing bracket in it, their list has none either. -/
theorem bracket_not_mem_enumerated {items : List Literal} (h : ∀ i ∈ items, ']' ∉ i.body) :
    ']' ∉ enumerated items := by
  apply Text.joinWith_induction (P := (']' ∉ ·))
  · exact List.not_mem_nil
  · intro p q hp hq
    simp [hp, hq]
  · decide
  · intro p hp
    obtain ⟨i, hi, rfl⟩ := List.mem_map.mp hp
    exact i.not_mem_text rfl (h i hi)

/-! ## When the parts are the strings -/

/-- A string that is one part of a list is that part. -/
theorem Literal.IsItem.parts_eq {i : Literal} (h : i.IsItem) : parts i.body = [i.body] := by
  have hstrip : Text.strip isItemEdge i.body = i.body := Text.strip_of_ends h.first h.last
  rw [parts, Text.splitOn_run h.comma_not_mem, List.map_singleton, hstrip]
  simp [h.body_ne_nil]

/-- Commas and what is stripped are missing in the parts. -/
theorem length_flatten_parts_le (s : Text) :
    (parts s).flatten.length + s.count ',' ≤ s.length := by
  have hstripped : ∀ ts : List Text,
      (ts.map (Text.strip isItemEdge)).flatten.length ≤ ts.flatten.length := by
    intro ts
    induction ts with
    | nil => exact Nat.le_refl 0
    | cons t ts ih =>
      have := Text.length_strip_le isItemEdge t
      simp only [List.map_cons, List.flatten_cons, List.length_append]
      omega
  have hparts := hstripped (Text.splitOn ',' s)
  have hsplit := Text.length_flatten_splitOn ',' s
  rw [parts, List.flatten_filter_ne_nil]
  omega

/-- A string of which nothing is missing in its parts is one part. -/
theorem isItem_of_length_parts {i : Literal} (hne : i.body ≠ [])
    (h : (parts i.body).flatten.length = i.body.length) : i.IsItem := by
  have hle := length_flatten_parts_le i.body
  have hcomma : ',' ∉ i.body := List.count_eq_zero.mp (by omega)
  rw [parts, Text.splitOn_run hcomma, List.map_singleton, List.flatten_filter_ne_nil,
    List.flatten_singleton] at h
  obtain ⟨hfirst, hlast⟩ := Text.ends_of_length_strip h
  exact ⟨hne, hcomma, hfirst, hlast⟩

/-- If nothing is missing in the parts of several strings, nothing is missing in those of one. -/
theorem length_flatMap_parts (items : List Literal) :
    (items.flatMap fun i => parts i.body).flatten.length ≤
        (items.map fun i => i.body).flatten.length ∧
      ((items.flatMap fun i => parts i.body).flatten.length =
          (items.map fun i => i.body).flatten.length →
        ∀ i ∈ items, (parts i.body).flatten.length = i.body.length) := by
  induction items with
  | nil => exact ⟨Nat.le_refl 0, fun _ => List.forall_mem_nil _⟩
  | cons i items ih =>
    obtain ⟨hle, heq⟩ := ih
    have hi := length_flatten_parts_le i.body
    simp only [List.flatMap_cons, List.map_cons, List.flatten_append, List.flatten_cons,
      List.length_append, List.forall_mem_cons]
    refine ⟨by omega, fun h => ⟨by omega, heq (by omega)⟩⟩

/-- The parts of strings that are not empty are these strings exactly if none is cut or stripped. -/
theorem flatMap_parts_eq_iff {items : List Literal} (hne : ∀ i ∈ items, i.body ≠ []) :
    (items.flatMap fun i => parts i.body) = items.map (fun i => i.body) ↔
      ∀ i ∈ items, i.IsItem := by
  constructor
  · intro h i hi
    have hlength := (length_flatMap_parts items).2 (by rw [h]) i hi
    exact isItem_of_length_parts (hne i hi) hlength
  · intro h
    induction items with
    | nil => rfl
    | cons i items ih =>
      obtain ⟨hi, hitems⟩ := List.forall_mem_cons.mp h
      rw [List.flatMap_cons, hi.parts_eq, ih (fun j hj => hne j (List.mem_cons_of_mem _ hj)) hitems]
      rfl

end HtmlViews.Component
