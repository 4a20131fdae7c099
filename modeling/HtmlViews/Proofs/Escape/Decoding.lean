import HtmlViews.Proofs.Text.Search
import HtmlViews.Text.Escape
import Mathlib.Logic.Function.Basic

/-!
# Entities read back

Each special character is written as an entity of its own, and an ampersand stands nowhere else in
an escaped text. So escaping can be undone from left to right, whatever the text was, also where it
looked like an entity before.

Decoding goes from left to right and replaces what it reads as an entity. That it undoes escaping is
shown character by character: what is written for a character is read back whatever follows it
(**unescape_escapeChar_append**), because an entity ends with its semicolon and a character without
entity is no ampersand. In particular an ampersand that was in the text is itself written as an
entity, so what looked like an entity before is not read as one.

* **entities** — the entities with the characters that they stand for.
* **unescape** — a text with the entities in it replaced by their characters.
* **escapeChar_cases** — how a character is written in an escaped text.
* **unescape_escape**, **escape_injective** — escaping loses nothing.
* **not_mem_escape** — what does not occur in an escaped text.
* **exists_entity_of_suffix** — what stands where an ampersand does.
-/

namespace HtmlViews

/-! ## Entities -/

/-- The entities that special characters are written as, with these characters. -/
def entities : List (Text × Char) :=
  [("&amp;".toList, '&'), ("&lt;".toList, '<'), ("&gt;".toList, '>'), ("&quot;".toList, '"'),
    ("&#x27;".toList, '\''), ("&#x2F;".toList, '/')]

/-- The character of the entity that a text begins with, and what follows that. -/
def entity? (s : Text) : Option (Char × Text) :=
  entities.findSome? fun (entity, c) => (Text.after? entity s).map fun r => (c, r)

/-- Every entity begins with an ampersand, and has no other one. -/
theorem exists_of_mem_entities :
    ∀ e ∈ entities, ∃ tail, e.1 = '&' :: tail ∧ '&' ∉ tail := by
  intro e he
  have htail : ∀ e ∈ entities, e.1 = '&' :: e.1.tail ∧ '&' ∉ e.1.tail := by
    decide
  exact ⟨e.1.tail, htail e he⟩

/-- An entity is read up to its end, whatever follows. -/
theorem entity?_append {e : Text × Char} (he : e ∈ entities) (s : Text) :
    entity? (e.1 ++ s) = some (e.2, s) := by
  simp only [entities, List.mem_cons, List.not_mem_nil, or_false] at he
  rcases he with rfl | rfl | rfl | rfl | rfl | rfl <;> rfl

/-- Entities begin with an ampersand. -/
theorem beginsWith_entity : BeginsWith entity? '&' := by
  intro c s hc
  rw [entity?, List.findSome?_eq_none_iff]
  intro e he
  obtain ⟨tail, hentity, -⟩ := exists_of_mem_entities e he
  have hafter : Text.after? e.1 (c :: s) = none :=
    Text.after?_cons_of_ne (by rw [hentity]; rfl) hc s
  simp only [hafter, Option.map_none]

/-- The reader of entities. -/
def entityReader : Reader Char where
  read := entity?
  shorter h := by
    obtain ⟨e, he, hread⟩ := List.exists_of_findSome?_eq_some h
    obtain ⟨r, hafter, hr⟩ := Option.map_eq_some_iff.mp hread
    obtain ⟨-, rfl⟩ := Prod.mk.inj hr
    obtain ⟨tail, hentity, -⟩ := exists_of_mem_entities e he
    have hlength := Text.length_of_after? hafter
    rw [hentity, List.length_cons] at hlength
    omega

/-- A text with the entities in it replaced by their characters, from left to right. -/
def unescape (s : Text) : Text :=
  Text.expand entityReader (fun c => [c]) s

/-! ## Characters -/

/-- A character is written as its entity, or as it is if it has none. -/
theorem escapeChar_cases (c : Char) :
    (escapeChar c, c) ∈ entities ∨ (∀ e ∈ entities, e.2 ≠ c) ∧ escapeChar c = [c] := by
  unfold escapeChar
  split
  case h_7 =>
    refine .inr ⟨?_, rfl⟩
    intro e he
    simp only [entities, List.mem_cons, List.not_mem_nil, or_false] at he
    rcases he with rfl | rfl | rfl | rfl | rfl | rfl <;> exact Ne.symm ‹_›
  all_goals exact .inl (by decide)

/-- A character that is written in an escaped text is read back, whatever follows. -/
theorem unescape_escapeChar_append (c : Char) (s : Text) :
    unescape (escapeChar c ++ s) = c :: unescape s := by
  rcases escapeChar_cases c with hentity | ⟨hplain, hspelled⟩
  · have hread : entityReader.read (escapeChar c ++ s) = some (c, s) := entity?_append hentity s
    rw [unescape, Text.expand, Text.pieces_of_some hread]
    rfl
  · have hne : c ≠ '&' := (hplain ("&amp;".toList, '&') (by decide)).symm
    have hpasses : Passes entityReader.read [c] s := ⟨beginsWith_entity c s hne, trivial⟩
    rw [hspelled, unescape, Text.expand_append hpasses]
    rfl

/-- A special character is no part of an entity, the ampersand apart. -/
theorem not_mem_escapeChar {c : Char} (hc : c ∈ ['<', '>', '"', '\'', '/']) (d : Char) :
    c ∉ escapeChar d := by
  have hspecial : (∀ e ∈ entities, c ∉ e.1) ∧ ∃ e ∈ entities, e.2 = c := by
    simp only [List.mem_cons, List.not_mem_nil, or_false] at hc
    rcases hc with rfl | rfl | rfl | rfl | rfl <;> decide
  obtain ⟨hapart, e, he, rfl⟩ := hspecial
  rcases escapeChar_cases d with hentity | ⟨hplain, hspelled⟩
  · exact hapart _ hentity
  · rw [hspelled, List.mem_singleton]
    exact hplain e he

/-- Where an ampersand stands in what is written for a character, that is an entity, and the
ampersand is its beginning. -/
theorem entity_of_escapeChar_eq {c : Char} {before behind : Text}
    (h : escapeChar c = before ++ '&' :: behind) : ('&' :: behind, c) ∈ entities := by
  rcases escapeChar_cases c with hentity | ⟨hplain, hspelled⟩
  · obtain ⟨tail, htail, hnot⟩ := exists_of_mem_entities _ hentity
    cases before with
    | nil =>
      rw [h] at hentity
      exact hentity
    | cons b before =>
      obtain ⟨-, rfl⟩ := List.cons.inj (htail.symm.trans h)
      exact absurd (List.mem_append_right before List.mem_cons_self) hnot
  · have hmem : '&' ∈ [c] := by
      rw [← hspelled, h]
      exact List.mem_append_right before List.mem_cons_self
    exact absurd (List.mem_singleton.mp hmem) (hplain ("&amp;".toList, '&') (by decide))

/-! ## Texts -/

/-- A text is escaped character by character. -/
theorem escape_cons (c : Char) (s : Text) : escape (c :: s) = escapeChar c ++ escape s :=
  List.flatMap_cons

/-- Decoding undoes escaping. -/
theorem unescape_escape (s : Text) : unescape (escape s) = s := by
  induction s with
  | nil => exact Text.expand_nil _
  | cons c s ih => rw [escape_cons, unescape_escapeChar_append, ih]

/-- Different texts are different when they are escaped. -/
theorem escape_injective : Function.Injective escape :=
  Function.LeftInverse.injective unescape_escape

/-- The characters that could end the place of a text do not occur in an escaped one. -/
theorem not_mem_escape {c : Char} (hc : c ∈ ['<', '>', '"', '\'', '/']) (s : Text) :
    c ∉ escape s := by
  intro hmem
  obtain ⟨d, -, hd⟩ := List.mem_flatMap.mp hmem
  exact not_mem_escapeChar hc d hd

/-- Every ampersand of an escaped text begins an entity. -/
theorem exists_entity_of_suffix {s t : Text} (h : '&' :: t <:+ escape s) :
    ∃ e ∈ entities, e.1 <+: '&' :: t := by
  induction s with
  | nil => exact absurd (List.suffix_nil.mp h) (List.cons_ne_nil _ _)
  | cons c s ih =>
    obtain ⟨before, hbefore⟩ := h
    rw [escape_cons] at hbefore
    -- The ampersand stands behind what is written for the first character, or in it.
    rcases Text.append_eq_append_cons hbefore.symm with ⟨front, -, hrest⟩ | ⟨behind, hchar, rfl⟩
    · exact ih ⟨front, hrest.symm⟩
    · refine ⟨_, entity_of_escapeChar_eq hchar, ?_⟩
      exact List.prefix_append ('&' :: behind) (escape s)

end HtmlViews
