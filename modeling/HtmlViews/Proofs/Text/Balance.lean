import HtmlViews.Proofs.Text.Basic

/-!
# Balanced texts

The search for the end of an argument passes over a text in which every string and every
parenthesis is closed again. Such texts are put together from strings, from texts without quotes and
parentheses, and from such texts between parentheses.

The search reads one character after the other with a count of open parentheses and the quote that
it stands in. A balanced text is one behind which the search goes on with the same count and in no
quote, whatever count it began with; so balanced texts can be put one behind the other, and the
count of the parentheses around them is not touched. A string is balanced whatever stands in it,
because inside of it the search looks for its quote alone.

* **Text.Balanced** — that the search passes over a text.
* **Text.Balanced.append**, **Text.Balanced.parenthesised** — how balanced texts are put together.
* **Text.Balanced.argument** — a balanced text ends at the parenthesis behind it.
-/

namespace HtmlViews

/-- Whether a character neither opens a string nor opens or closes a parenthesis. -/
def isNeutral (c : Char) : Bool :=
  !isQuote c && c ≠ '(' && c ≠ ')'

/-- Neutral characters are neither quotes nor parentheses. -/
theorem isNeutral_iff {c : Char} :
    isNeutral c = true ↔ isQuote c = false ∧ c ≠ '(' ∧ c ≠ ')' := by
  simp [isNeutral, and_assoc]

/-- What the search for the end of an argument tells apart outside of strings. -/
theorem eq_paren_or_isNeutral {c : Char} (hc : isQuote c = false) :
    c = '(' ∨ c = ')' ∨ isNeutral c = true := by
  by_cases hopening : c = '('
  · exact .inl hopening
  by_cases hclosing : c = ')'
  · exact .inr (.inl hclosing)
  · exact .inr (.inr (isNeutral_iff.mpr ⟨hc, hopening, hclosing⟩))

namespace Text

/-! ## Steps of the search -/

section Steps

variable {c : Char}

/-- A neutral character changes neither the depth nor the quote. -/
theorem closingFrom_neutral (hc : isNeutral c = true) (depth : Nat) (s : Text) :
    closingFrom depth none (c :: s) =
      (closingFrom depth none s).map fun (inside, r) => (c :: inside, r) := by
  obtain ⟨hquote, hopening, hclosing⟩ := isNeutral_iff.mp hc
  conv => lhs; unfold closingFrom
  rw [hquote, if_neg Bool.false_ne_true, if_neg hopening, if_neg hclosing]

/-- A quote begins a string. -/
theorem closingFrom_quote (hc : isQuote c = true) (depth : Nat) (s : Text) :
    closingFrom depth none (c :: s) =
      (closingFrom depth (some c) s).map fun (inside, r) => (c :: inside, r) := by
  conv => lhs; unfold closingFrom
  rw [if_pos hc]

/-- An opening parenthesis makes the depth one more. -/
theorem closingFrom_opening (depth : Nat) (s : Text) :
    closingFrom depth none ('(' :: s) =
      (closingFrom (depth + 1) none s).map fun (inside, r) => ('(' :: inside, r) := by
  conv => lhs; unfold closingFrom
  rfl

/-- A closing parenthesis makes the depth one less. -/
theorem closingFrom_closing (depth : Nat) (s : Text) :
    closingFrom (depth + 1) none (')' :: s) =
      (closingFrom depth none s).map fun (inside, r) => (')' :: inside, r) :=
  rfl

/-- The search stands in a string up to its closing quote. -/
theorem closingFrom_string {quote : Char} {body : Text} (hbody : quote ∉ body) (depth : Nat)
    (s : Text) : closingFrom depth (some quote) (body ++ quote :: s) =
      (closingFrom depth none s).map fun (inside, r) => (body ++ quote :: inside, r) := by
  induction body with
  | nil =>
    rw [List.nil_append, closingFrom, if_pos rfl]
    rfl
  | cons c body ih =>
    obtain ⟨hc, hbody⟩ := not_or.mp (mt List.mem_cons.mpr hbody)
    rw [List.cons_append, closingFrom, if_neg (Ne.symm hc), ih hbody, Option.map_map]
    rfl

end Steps

/-! ## Balanced texts -/

/-- Whether the search for a closing parenthesis passes over a text, however many parentheses are
open before it. -/
def Balanced (p : Text) : Prop :=
  ∀ depth s, closingFrom depth none (p ++ s) =
    (closingFrom depth none s).map fun (inside, r) => (p ++ inside, r)

namespace Balanced

variable {p q : Text}

/-- The empty text is balanced. -/
theorem nil : Balanced [] := by
  intro depth s
  exact Option.map_id'.symm

/-- Balanced texts in a row are balanced. -/
theorem append (hp : Balanced p) (hq : Balanced q) : Balanced (p ++ q) := by
  intro depth s
  rw [List.append_assoc, hp, hq, Option.map_map]
  simp [Function.comp_def]

/-- A neutral character is balanced. -/
theorem neutral {c : Char} (hc : isNeutral c = true) : Balanced [c] :=
  closingFrom_neutral hc

/-- A text without quotes and parentheses is balanced. -/
theorem of_neutral (hp : ∀ c ∈ p, isNeutral c = true) : Balanced p := by
  induction p with
  | nil => exact nil
  | cons c p ih =>
    obtain ⟨hc, hp⟩ := List.forall_mem_cons.mp hp
    exact (neutral hc).append (ih hp)

/-- A string is balanced, whatever parentheses and other quotes stand in it. -/
theorem quoted {quote : Char} {body : Text} (hquote : isQuote quote = true)
    (hbody : quote ∉ body) : Balanced (quote :: body ++ [quote]) := by
  intro depth s
  have hshape : quote :: body ++ [quote] ++ s = quote :: (body ++ quote :: s) := by simp
  rw [hshape, closingFrom_quote hquote, closingFrom_string hbody, Option.map_map]
  simp [Function.comp_def]

/-- A balanced text between parentheses is balanced. -/
theorem parenthesised (hp : Balanced p) : Balanced ('(' :: p ++ [')']) := by
  intro depth s
  have hshape : '(' :: p ++ [')'] ++ s = '(' :: (p ++ ')' :: s) := by simp
  rw [hshape, closingFrom_opening, hp, closingFrom_closing, Option.map_map, Option.map_map]
  simp [Function.comp_def]

/-- A balanced text ends at the parenthesis behind it. -/
theorem argument (hp : Balanced p) : IsArgument p := by
  have hend : closingFrom 0 none [')'] = some ([], []) := rfl
  rw [IsArgument, Text.closing?, hp, hend]
  simp

end Balanced

end Text

end HtmlViews
