import HtmlViews.Text.Quote

/-!
# Matching parentheses

The argument of a directive runs to the parenthesis that closes it. Text between quotes does not
count, so a `)` inside a string closes nothing.

The search keeps a count of the open parentheses and the quote that it stands in. In a string only
its own quote counts: the other quote and all parentheses are text there, and there are no escapes.
A string that is not closed therefore hides everything behind it, and nothing is found. Conditions
and calls are cut out by this search before they are read, so both have to end where it says.

* **Text.closing?** — the argument behind an opening parenthesis, and what follows its end.
* **Text.closingFrom_cons** — what the search does with the next character.
* **Text.closingOffset?** — the same for a place counted in UTF-8 bytes.
-/

namespace HtmlViews.Text

/-- The text up to the parenthesis that closes one opened before it, and the text behind it;
`depth` counts the parentheses opened and not closed meanwhile, `quote` is the quote that the
reading stands in. -/
def closingFrom : (depth : Nat) → (quote : Option Char) → Text → Option (Text × Text)
  | _, _, [] => none
  | depth, some q, c :: s =>
    (closingFrom depth (if c = q then none else some q) s).map fun (inside, r) => (c :: inside, r)
  | depth, none, c :: s =>
    if isQuote c then
      (closingFrom depth (some c) s).map fun (inside, r) => (c :: inside, r)
    else if c = '(' then
      (closingFrom (depth + 1) none s).map fun (inside, r) => (c :: inside, r)
    else if c = ')' then
      match depth with
      | 0 => some ([], s)
      | outer + 1 => (closingFrom outer none s).map fun (inside, r) => (c :: inside, r)
    else
      (closingFrom depth none s).map fun (inside, r) => (c :: inside, r)

/-- The argument of a directive and what follows its closing parenthesis; the text begins behind
the opening one. -/
def closing? (s : Text) : Option (Text × Text) :=
  closingFrom 0 none s

/-- The next character closes the argument, or it is part of it and the search goes on with a count
and a quote that do not depend on what comes behind. -/
theorem closingFrom_cons (depth : Nat) (quote : Option Char) (c : Char) :
    (c = ')' ∧ ∀ s, closingFrom depth quote (c :: s) = some ([], s)) ∨
      ∃ d q, ∀ s, closingFrom depth quote (c :: s) =
        (closingFrom d q s).map fun (inside, r) => (c :: inside, r) := by
  cases quote with
  | some q => exact .inr ⟨depth, if c = q then none else some q, fun _ => rfl⟩
  | none =>
    simp only [closingFrom]
    by_cases hquote : isQuote c = true
    · exact .inr ⟨depth, some c, fun s => if_pos hquote⟩
    simp only [if_neg hquote]
    by_cases hopening : c = '('
    · exact .inr ⟨depth + 1, none, fun s => if_pos hopening⟩
    simp only [if_neg hopening]
    by_cases hclosing : c = ')'
    · simp only [if_pos hclosing]
      cases depth with
      | zero => exact .inl ⟨hclosing, fun _ => rfl⟩
      | succ outer => exact .inr ⟨outer, none, fun _ => rfl⟩
    · exact .inr ⟨depth, none, fun s => if_neg hclosing⟩

/-- Nothing but the closing parenthesis is lost. -/
theorem eq_of_closingFrom {depth : Nat} {quote : Option Char} {s inside r : Text}
    (h : closingFrom depth quote s = some (inside, r)) : s = inside ++ ')' :: r := by
  induction s generalizing depth quote inside with
  | nil => simp [closingFrom] at h
  | cons c s ih =>
    rcases closingFrom_cons depth quote c with ⟨rfl, hend⟩ | ⟨d, q, hstep⟩
    · rw [hend] at h
      obtain ⟨rfl, rfl⟩ := Prod.mk.inj (Option.some.inj h)
      rfl
    · rw [hstep] at h
      simp only [Option.map_eq_some_iff, Prod.exists, Prod.mk.injEq] at h
      obtain ⟨i, t, hi, rfl, rfl⟩ := h
      rw [ih hi, List.cons_append]

/-- What is inside of parentheses stands before the closing one. -/
theorem eq_of_closing? {s inside r : Text} (h : closing? s = some (inside, r)) :
    s = inside ++ ')' :: r :=
  eq_of_closingFrom h

/-- What is behind the closing parenthesis is shorter than the text. -/
theorem length_of_closing? {s inside r : Text} (h : closing? s = some (inside, r)) :
    r.length < s.length := by
  rw [eq_of_closing? h]
  simp only [List.length_append, List.length_cons]
  omega

/-- The byte offset of the parenthesis that closes the one at the byte offset `opening`. -/
def closingOffset? (s : Text) (opening : Nat) : Option Nat :=
  match dropBytes? opening s with
  | some ('(' :: s) => (closing? s).map fun (inside, _) => opening + 1 + utf8Length inside
  | _ => none

end HtmlViews.Text
