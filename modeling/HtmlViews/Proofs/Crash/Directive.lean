import HtmlViews.Proofs.Crash.Slice
import HtmlViews.Proofs.Text.Search
import Mathlib.Tactic.SplitIfs

/-!
# Directives by places in bytes

A stage looks for the place of its next directive, for the place where its parenthesis is closed,
and cuts the text at these places. All of them are places between characters, so all cuts have a
result, and it is what the readers of directives find.

A place is found as the length of the text before it. So each lemma takes a text apart as the
readers of directives do, and says that the search by places finds the lengths of these parts and
that the cuts at these places give the parts again. Whether a directive is closed or not, the rest
that the search goes on with is shorter (**Text.Unclosed**, **Text.Closed**); this is all that a
stage needs, and **Crashing.eq_expandM** makes an induction of it once for all stages.

* **Text.find?** — the place of the first occurrence of a text.
* **Text.closingParen** — the place of the parenthesis that closes one at a given place.
* **Text.opened?** — the places of the next directive.
* **Text.Unclosed**, **Text.Closed** — the parts that a text is cut into at these places.
* **Crashing.eq_expandM** — what a search for directives does with a text.
-/

namespace HtmlViews

namespace Text

/-! ## Places -/

/-- The place of the first occurrence of `p`. -/
def find? (p s : Text) : Option Nat :=
  (cut? p s).map fun (front, _) => front.utf8Length

/-- A mark without occurrence has no place. -/
theorem find?_eq_none {p s : Text} (h : cut? p s = none) : find? p s = none := by
  rw [find?, h]
  rfl

/-- A text is taken apart at the place of an occurrence and behind it. -/
theorem find?_of_cut? {p s front behind : Text} (h : cut? p s = some (front, behind)) :
    find? p s = some front.utf8Length ∧ s.slice 0 front.utf8Length = .ok front ∧
      s.sliceFrom (front.utf8Length + p.utf8Length) = .ok behind := by
  refine ⟨?_, ?_, ?_⟩
  · rw [find?, h]
    rfl
  · rw [eq_of_cut? h, List.append_assoc]
    exact slice_zero front _
  · rw [eq_of_cut? h, ← utf8Length_append]
    exact sliceFrom_append _ behind

/-- The place of the parenthesis that closes the last one open, in the characters behind the place
`opening`; `depth` counts the parentheses that are open, `quote` is the quote that the reading
stands in. -/
def closingParenFrom (opening : Nat) : (depth : Nat) → (quote : Option Char) →
    List (Nat × Char) → Checked (Option Nat)
  | _, _, [] => .ok none
  | depth, some q, (_, c) :: rest =>
    closingParenFrom opening depth (if c = q then none else some q) rest
  | depth, none, (i, c) :: rest =>
    if isQuote c then closingParenFrom opening depth (some c) rest
    else if c = '(' then closingParenFrom opening (depth + 1) none rest
    else if c = ')' then do
      let depth ← Checked.minus depth 1
      if depth = 0 then .ok (some (opening + i)) else closingParenFrom opening depth none rest
    else closingParenFrom opening depth none rest

/-- The place of the parenthesis that closes the one at the place `opening`. -/
def closingParen (s : Text) (opening : Nat) : Checked (Option Nat) := do
  let t ← s.sliceFrom opening
  closingParenFrom opening 0 none (charIndices 0 t)

/-- A parenthesis that closes none cannot be counted. -/
example : closingParen "a)".toList 0 = .error .belowZero ∧
    closingParen "é('é)')".toList 2 = .ok (some 8) :=
  ⟨rfl, rfl⟩

/-- Where a parenthesis is open, the count of those that are closed never falls below zero, and the
place that is found is behind the argument. -/
theorem closingParenFrom_charIndices (opening : Nat) {depth n : Nat} {quote : Option Char}
    {s : Text} :
    closingParenFrom opening (depth + 1) quote (charIndices n s) =
      .ok ((closingFrom depth quote s).map fun (inside, _) =>
        opening + (n + utf8Length inside)) := by
  induction s generalizing depth n quote with
  | nil => cases quote <;> rfl
  | cons c s ih =>
    have hstep : ∀ {d : Nat} {q : Option Char},
        closingParenFrom opening (d + 1) q (charIndices (n + c.utf8Size) s) =
          .ok (((closingFrom d q s).map fun (inside, r) => (c :: inside, r)).map
            fun (inside, _) => opening + (n + utf8Length inside)) := by
      intro d q
      rw [ih, Option.map_map]
      simp [Function.comp_def, Nat.add_assoc]
    cases quote with
    | some q => exact hstep
    | none =>
      unfold closingFrom
      rw [charIndices, closingParenFrom]
      split_ifs with hquote hopening hclosing
      · exact hstep
      · exact hstep
      · cases depth with
        | zero => rfl
        | succ depth => exact hstep
      · exact hstep

/-- The search at an opening parenthesis has a result: the place behind its argument. -/
theorem closingParen_append (p s : Text) :
    closingParen (p ++ '(' :: s) p.utf8Length =
      .ok ((closing? s).map fun (inside, _) => p.utf8Length + (1 + utf8Length inside)) := by
  unfold closingParen
  rw [sliceFrom_append]
  exact closingParenFrom_charIndices p.utf8Length

/-! ## Directives -/

/-- Parentheses are one byte long. -/
theorem utf8Size_paren : '('.utf8Size = 1 ∧ ')'.utf8Size = 1 :=
  ⟨rfl, rfl⟩

/-- The places of a directive with an opening parenthesis. -/
structure Opened where
  /-- Its own place. -/
  start : Nat
  /-- The place of its opening parenthesis. -/
  opening : Nat
  /-- The place of its closing parenthesis, if there is one. -/
  close : Option Nat

/-- The places of the next directive. -/
def opened? (directive rest : Text) : Checked (Option Opened) :=
  match find? directive rest with
  | none => .ok none
  | some start => do
    let opening ← Checked.minus (start + directive.utf8Length) 1
    let close ← rest.closingParen opening
    pure (some { start, opening, close })

/-- The parts of a text at the places of a directive that is not closed. -/
structure Unclosed (rest front behind : Text) (o : Opened) : Prop where
  closed : o.close = none
  before : rest.slice 0 o.start = .ok front
  behind : rest.sliceFrom (o.opening + 1) = .ok behind

/-- The parts of a text at the places of a directive that is closed. -/
structure Closed (rest front directive argument behind : Text) (o : Opened) (close : Nat) :
    Prop where
  closed : o.close = some close
  before : rest.slice 0 o.start = .ok front
  directive : rest.slice o.start (close + 1) = .ok (directive ++ argument ++ [')'])
  argument : rest.slice (o.opening + 1) close = .ok argument
  behind : rest.sliceFrom (close + 1) = .ok behind

variable {word directive rest front s : Text}

/-- Without the beginning of a directive none is opened. -/
theorem opened?_of_cut?_eq_none (h : cut? directive rest = none) :
    opened? directive rest = .ok none := by
  rw [opened?, find?_eq_none h]

/-- The places of a directive that occurs are found. -/
theorem opened?_of_cut? (h : cut? (word ++ ['(']) rest = some (front, s)) :
    opened? (word ++ ['(']) rest =
      .ok (some {
        start := front.utf8Length
        opening := (front ++ word).utf8Length
        close := (closing? s).map fun (inside, _) =>
          (front ++ word).utf8Length + (1 + utf8Length inside) }) := by
  have hrest : rest = (front ++ word) ++ '(' :: s := by
    rw [eq_of_cut? h]
    simp
  have hminus : Checked.minus (front.utf8Length + (word ++ ['(']).utf8Length) 1 =
      .ok (front ++ word).utf8Length := by
    rw [utf8Length_append, utf8Length_append]
    exact Checked.minus_of_le (Nat.le_add_left 1 _)
  have hclose := closingParen_append (front ++ word) s
  rw [← hrest] at hclose
  rw [opened?, (find?_of_cut? h).1]
  simp only [hminus, hclose, bind, Except.bind, pure, Except.pure]

/-- A directive that is not closed is cut off behind its parenthesis. -/
theorem exists_unclosed (h : cut? directive rest = some (front, s)) (hclosing : closing? s = none)
    (hdirective : ['('] <:+ directive) :
    ∃ o, opened? directive rest = .ok (some o) ∧ Unclosed rest front s o := by
  obtain ⟨word, rfl⟩ := hdirective
  have hrest := eq_of_cut? h
  refine ⟨_, opened?_of_cut? h, ?_, ?_, ?_⟩
  · rw [hclosing]
    rfl
  · rw [hrest, List.append_assoc]
    exact slice_zero front _
  · apply sliceFrom_eq_ok_iff.mpr
    exact ⟨front ++ (word ++ ['(']), hrest, by simp [utf8Size_paren, Nat.add_assoc]⟩

/-- A directive that is closed is cut off behind its argument. -/
theorem exists_closed (h : cut? directive rest = some (front, s)) {argument behind : Text}
    (hclosing : closing? s = some (argument, behind)) (hdirective : ['('] <:+ directive) :
    ∃ o close, opened? directive rest = .ok (some o) ∧
      Closed rest front directive argument behind o close := by
  obtain ⟨word, rfl⟩ := hdirective
  have hrest := eq_of_cut? h
  rw [eq_of_closing? hclosing] at hrest
  refine ⟨_, (front ++ word).utf8Length + (1 + argument.utf8Length), opened?_of_cut? h,
    ?_, ?_, ?_, ?_, ?_⟩
  · rw [hclosing]
    rfl
  · rw [hrest, List.append_assoc]
    exact slice_zero front _
  · apply slice_eq_ok_iff.mpr
    refine ⟨front, behind, by simp [hrest], rfl, ?_⟩
    simp [utf8Size_paren, Nat.add_assoc]
  · apply slice_eq_ok_iff.mpr
    refine ⟨front ++ (word ++ ['(']), ')' :: behind, hrest, ?_, ?_⟩
    · simp [utf8Size_paren, Nat.add_assoc]
    · simp [utf8Size_paren, Nat.add_assoc]
  · apply sliceFrom_eq_ok_iff.mpr
    refine ⟨front ++ (word ++ ['(']) ++ (argument ++ [')']), by simp [hrest], ?_⟩
    simp [utf8Size_paren, Nat.add_assoc]

end Text

/-! ## Searches for directives -/

/-- A search that goes from one directive to the next is safe if it replaces each directive safely.
-/
theorem Crashing.eq_expandM {m : Type → Type} [Monad m] [LawfulMonad m] {α : Type}
    {reader : Reader α} {f : α → m Text} {directive : Text} {search : Text → Crashing m Text}
    (hreader : ∀ s, Text.after? directive s = none → reader.read s = none)
    (hnone : ∀ rest, Text.cut? directive rest = none → search rest = pure rest)
    (hsome : ∀ rest front s, Text.cut? directive rest = some (front, s) →
      ∃ a behind, reader.read (directive ++ s) = some (a, behind) ∧
        search rest = (do
          let shown ← safely (f a)
          let out ← search behind
          pure (front ++ (shown ++ out))))
    (rest : Text) : search rest = safely (Text.expandM reader f rest) := by
  induction hlength : rest.length using Nat.strongRecOn generalizing rest with
  | ind n ih =>
    subst hlength
    cases hcut : Text.cut? directive rest with
    | none =>
      have hexpand := Text.expandM_of_passes (passes_of_cut?_eq_none hcut hreader) f
      rw [hnone rest hcut, hexpand, safely_pure]
    | some cut =>
      obtain ⟨front, s⟩ := cut
      have hexpand := Text.expandM_append (passes_of_cut? hcut hreader) f
      rw [← List.append_assoc, ← Text.eq_of_cut? hcut] at hexpand
      obtain ⟨a, behind, hread, hsearch⟩ := hsome rest front s hcut
      have hshort : behind.length < rest.length := by
        have hdirective := reader.shorter hread
        rw [Text.eq_of_cut? hcut, List.append_assoc]
        exact Nat.lt_of_lt_of_le hdirective (List.suffix_append front _).length_le
      rw [hsearch, hexpand, Text.expandM_of_some hread, ih _ hshort behind rfl]
      simp

end HtmlViews
