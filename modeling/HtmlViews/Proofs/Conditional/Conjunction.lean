import HtmlViews.Proofs.Condition.Balance
import HtmlViews.Proofs.Condition.Truth
import HtmlViews.Proofs.Conditional.Nesting

/-!
# Blocks inside of each other

A block that is the whole body of another one shows its text when both conditions are true. So does
one block whose condition is the conjunction of both. The two are equal whatever the conditions are,
also where one of them has no truth value: a failure counts as false, and the second condition is
evaluated only if the first one is true.

The inner block is the whole body of the outer one, so when the first condition is true the outer
block leaves the inner one, which is expanded in turn and asks for the second condition. When the
first is false, or has no truth value, nothing is left and the second is never asked for. The
conjunction does the same: its right side is evaluated only if its left side is true. That the
conjunction is read as one, however weakly the operators in its sides bind, is what the parentheses
around them are for.

No mark may be spelled in the conditions, because the end of a block is looked for without regard to
quotes.

* **Conditional.block** — the text of a block with one branch.
* **Condition.both** — the text of the conjunction of two conditions.
* **Condition.holds_both** — the truth value of a conjunction.
* **Conditional.expand_nested_eq_both** — blocks inside of each other are a conjunction.
-/

namespace HtmlViews

namespace Condition

variable {a b : Text} {x y : Expr}

/-- The conjunction of two conditions, each between parentheses of its own. -/
def both (a b : Text) : Text :=
  '(' :: a ++ ") && (".toList ++ b ++ [')']

/-- The conjunction of two accepted texts is accepted as the conjunction of what they say, however
weakly the operators in them bind. -/
theorem read_both (ha : read a = .ok x) (hb : read b = .ok y) :
    read (both a b) = .ok (.binary .and x y) := by
  obtain ⟨ts, hts, hspelledA, -⟩ := exists_row_of_read ha
  obtain ⟨us, hus, hspelledB, -⟩ := exists_row_of_read hb
  have hnil : IsGap [] := by
    intro c hc
    cases hc
  have hspace : IsGap [' '] := by
    intro c hc
    rw [List.mem_singleton.mp hc]
    rfl
  have hclosing : Spelled [.closing] [')'] := .cons hnil (.nil hnil)
  have hleft : Spelled (.opening :: ts ++ [.closing]) ('(' :: a ++ [')']) :=
    .cons hnil (hspelledA.append hclosing)
  have hright : Spelled (.opening :: us ++ [.closing]) (' ' :: '(' :: b ++ [')']) :=
    .cons hspace (hspelledB.append hclosing)
  have hand : Spelled (.operator .and :: (.opening :: us ++ [.closing]))
      (" &&".toList ++ (' ' :: '(' :: b ++ [')'])) :=
    .cons hspace hright
  -- Each side stands in parentheses of its own, so it can stand beside any operator.
  apply read_of_rendering
  refine ⟨_, .binary (Nat.zero_le _) (.parenthesised hts) (.parenthesised hus), ?_⟩
  have hspelled := hleft.append hand
  have htext : both a b = '(' :: a ++ [')'] ++ (" &&".toList ++ (' ' :: '(' :: b ++ [')'])) := by
    have hsign : ") && (".toList = [')'] ++ (" &&".toList ++ [' ', '(']) := by decide
    rw [both, hsign]
    simp
  rw [htext]
  exact hspelled

/-- A conjunction is true if its first condition is true and the second one is; the second one is
evaluated only if the first one is true. -/
theorem holds_both (ha : read a = .ok x) (hb : read b = .ok y) (context : Context) :
    holds (both a b) context = (do
      if ← holds a context then holds b context else pure false) := by
  rw [holds_of_read (read_both ha hb), holds_of_read ha, holds_of_read hb, Expr.truth_and]

end Condition

namespace Conditional

open Condition (both read read_both holds_both balanced_of_read)

variable {a b x : Text} {context : Context}

/-- A block with one branch. -/
def block (condition body : Text) : Text :=
  Mark.opening.text ++ (condition ++ ')' :: (body ++ Mark.ending.text))

/-- A text in which no mark is spelled, not even as the beginning of a word. -/
theorem unmarked_of_not_infix {s : Text} (h : ∀ m : Mark, ¬ m.text <:+: s) : Unmarked s where
  opening := h .opening
  ending := h .ending
  otherwise u v hs := absurd ⟨u, v, hs.symm⟩ (h .otherwise)

/-- A text without the sign that marks begin with has no marks. -/
theorem unmarked_of_not_mem {s : Text} (h : '@' ∉ s) : Unmarked s := by
  apply unmarked_of_not_infix
  intro m hm
  apply h
  apply hm.subset
  cases m <;> decide

/-- No mark begins in one part of a conjunction and ends in the next. -/
theorem unmarked_both (ha : Unmarked a) (hb : Unmarked b) : Unmarked (both a b) := by
  have hclosing : Unmarked [')'] := unmarked_of_not_mem (by decide)
  have hsecond : Unmarked ("&& (".toList ++ (b ++ [')'])) := by
    have hend := hb.append (border_paren []) hclosing
    exact .cons (by decide) (.cons (by decide) (.cons (by decide) (.cons (by decide) hend)))
  have hrest : Unmarked (')' :: ' ' :: ("&& (".toList ++ (b ++ [')']))) :=
    .cons (by decide) (.cons (by decide) hsecond)
  have hfirst : Unmarked ('(' :: a) := .cons (by decide) ha
  have hboth := hfirst.append (border_paren _) hrest
  have htext : both a b = '(' :: a ++ ')' :: ' ' :: ("&& (".toList ++ (b ++ [')'])) := by
    have hsign : ") && (".toList = ')' :: ' ' :: "&& (".toList := by decide
    rw [both, hsign]
    simp
  rw [htext]
  exact hboth

/-- A block shows what its body expands to if its condition is true, and nothing otherwise. -/
theorem value_expand_block {condition : Text} (hc : Tree.IsCondition condition) (body : Tree)
    (hbody : body.WellFormed) (context : Context) :
    (expand context (block condition body.print)).value =
      match Condition.holds condition context with
      | .ok true => (expand context body.print).value
      | .ok false | .error _ => [] := by
  have hread : Found.read? (Tree.print (.block condition body .done)) = _ :=
    Tree.read?_block hc hbody
  have hprint : Tree.print (.block condition body .done) = block condition body.print := by
    simp [Tree.print, block]
  rw [hprint] at hread
  rw [expand_of_block hread]
  simp only [Logged.value_bind, Logged.value_pure, value_isTrue, Tree.print, expand_nil]
  rcases Condition.holds condition context with e | _ | _
  · simp [Block.branch, expand_nil]
  · simp [Block.branch, expand_nil]
  · simp [Block.branch]

/-- **Blocks inside of each other are a conjunction**: for all accepted conditions in which no mark
is spelled, in every context, also where one of them has no truth value, and around every text
without an `@`. -/
theorem expand_nested_eq_both {y z : Condition.Expr} (ha : read a = .ok y) (hb : read b = .ok z)
    (hmarksA : ∀ m : Mark, ¬ m.text <:+: a) (hmarksB : ∀ m : Mark, ¬ m.text <:+: b)
    (hx : '@' ∉ x) (context : Context) :
    (expand context (block a (block b x))).value = (expand context (block (both a b) x)).value := by
  have hunmarkedA := unmarked_of_not_infix hmarksA
  have hunmarkedB := unmarked_of_not_infix hmarksB
  have hconditionA : Tree.IsCondition a := ⟨(balanced_of_read ha).argument, hunmarkedA⟩
  have hconditionB : Tree.IsCondition b := ⟨(balanced_of_read hb).argument, hunmarkedB⟩
  have hconditionBoth : Tree.IsCondition (both a b) :=
    ⟨(balanced_of_read (read_both ha hb)).argument, unmarked_both hunmarkedA hunmarkedB⟩
  have hbody : Tree.WellFormed (.text x .done) := ⟨unmarked_of_not_mem hx, id, trivial⟩
  have hprint : Tree.print (.text x .done) = x := List.append_nil x
  have hinner : Tree.print (.block b (.text x .done) .done) = block b x := by
    simp [Tree.print, block]
  have houter := value_expand_block hconditionA (.block b (.text x .done) .done)
    ⟨hconditionB, hbody, trivial⟩ context
  have hnested := value_expand_block hconditionB _ hbody context
  have hjoined := value_expand_block hconditionBoth _ hbody context
  rw [hinner] at houter
  rw [hprint] at hnested hjoined
  rw [houter, hnested, hjoined, holds_both ha hb]
  rcases Condition.holds a context with e | _ | _
  · rfl
  · rfl
  · rfl

/-- The first condition has a parenthesis between quotes, the second one an operator that binds less
than the conjunction. -/
theorem expand_nested_eq_both_quoted :
    let a := "$x === ')'".toList
    let b := "$y || !$z".toList
    let context : Context := (Dict.empty.insert "x" (.str ")")).insert "z" (.bool false)
    read a = .ok (.binary .identical (.variable "x") (.literal (.str ")"))) ∧
      read b = .ok (.binary .or (.variable "y") (.not (.variable "z"))) ∧
      (expand context (block a (block b "<b>both</b>".toList))).value =
        (expand context (block (both a b) "<b>both</b>".toList)).value := by
  have hscanA : Condition.scan "$x === ')'".toList =
      .ok [.variable ['x'], .operator .identical, .quoted '\'' [')']] := by
    cbv
  have hscanB : Condition.scan "$y || !$z".toList =
      .ok [.variable ['y'], .operator .or, .bang, .variable ['z']] := by
    cbv
  have ha : read "$x === ')'".toList =
      .ok (.binary .identical (.variable "x") (.literal (.str ")"))) :=
    Condition.read_eq_ok_iff.mpr ⟨_, hscanA, rfl⟩
  have hb : read "$y || !$z".toList =
      .ok (.binary .or (.variable "y") (.not (.variable "z"))) :=
    Condition.read_eq_ok_iff.mpr ⟨_, hscanB, rfl⟩
  have hmarks : ∀ s : Text, '@' ∉ s → ∀ m : Mark, ¬ m.text <:+: s := by
    intro s hs m hm
    apply hs
    apply hm.subset
    cases m <;> decide
  exact ⟨ha, hb, expand_nested_eq_both ha hb (hmarks _ (by decide)) (hmarks _ (by decide))
    (by decide) _⟩

end Conditional

end HtmlViews
