import HtmlViews.Proofs.Condition.Truth
import Mathlib.Tactic.FinCases

/-!
# Conditions that compare two values

A condition with a comparison between two operands says what the operator says of the values of the
operands, whatever way it is written. Two values are compared under the names `a` and `b` here.

What is proved of the operators on values is said of conditions here, so that a statement about a
comparison is one about a text that is read, grouped and evaluated. It does not matter in which way
the comparison is written, since all renderings of one condition are read alike
(**read_of_rendering**).

* **Operator.Comparing** — the operators that always need both sides.
* **orderings**, **Operator.accepts** — the operators of the order, and what a comparison says of
  sides that have an order.
* **holds_of_rendering** — what a written comparison says of its operands.
* **comparison**, **sides** — the text `$a op $b`, and the context that it is read in.
* **outcome** — what that condition says of two values.
* **outcome_eq_apply** — it says what the operator says.
-/

namespace HtmlViews.Condition

/-- The operators that are no connectives. -/
def Operator.Comparing (op : Operator) : Prop :=
  op ≠ .or ∧ op ≠ .and

instance (op : Operator) : Decidable op.Comparing :=
  inferInstanceAs (Decidable (_ ∧ _))

/-- A comparison is not decided by its left side. -/
theorem Operator.Comparing.shortcut {op : Operator} (h : op.Comparing) (lhs : Bool) :
    op.shortcut lhs = none := by
  unfold Operator.shortcut
  split
  case h_1 => exact absurd rfl h.1
  case h_2 => exact absurd rfl h.2
  case h_3 => rfl

/-- The operators of the order. -/
def orderings : List Operator :=
  [.less, .lessEqual, .greater, .greaterEqual]

/-- Operators of order compare. -/
theorem comparing_of_mem_orderings {op : Operator} (h : op ∈ orderings) : op.Comparing := by
  fin_cases h <;> decide

/-- Whether a comparison is true of two sides in the given order. -/
def Operator.accepts : Operator → Ordering → Bool
  | .equal, o | .identical, o => o == .eq
  | .notEqual, o | .notIdentical, o => o != .eq
  | .less, o => o == .lt
  | .lessEqual, o => o != .gt
  | .greater, o => o == .gt
  | .greaterEqual, o => o != .lt
  | .or, _ | .and, _ => false

section Operands

variable {context : Context} {op : Operator} {lhs rhs : Expr} {x y : Value}

/-- A comparison has the truth value that its operator gives to the values of its operands. -/
theorem eval_binary (hop : op.Comparing) (hlhs : lhs.eval context = .ok x)
    (hrhs : rhs.eval context = .ok y) :
    (Expr.binary op lhs rhs).eval context = (op.apply x y).map Value.bool := by
  simp only [Expr.eval, hlhs, hrhs, hop.shortcut, bind, Except.bind]
  cases op.apply x y with
  | error e => rfl
  | ok b => rfl

/-- An operator of the order answers when its sides have an order. -/
theorem apply_of_ordered {o : Ordering} (hop : op ∈ orderings) (h : x.compare y = .ordered o) :
    op.apply x y = .ok (op.accepts o) := by
  have hordering : op.ordering x y = .ok o := by rw [Operator.ordering, h]
  fin_cases hop <;> exact congrArg (Except.map _) hordering

/-- An operator of the order fails when its sides have no order. -/
theorem exists_apply_eq_error (hop : op ∈ orderings) (h : ∀ o, x.compare y ≠ .ordered o) :
    ∃ e, op.apply x y = .error e := by
  have hordering : ∃ e, op.ordering x y = .error e := by
    unfold Operator.ordering
    split
    case h_1 o ho => exact absurd ho (h o)
    case h_2 => exact ⟨_, rfl⟩
    case h_3 => exact ⟨_, rfl⟩
  obtain ⟨e, he⟩ := hordering
  refine ⟨e, ?_⟩
  fin_cases hop <;> exact congrArg (Except.map _) he

/-- A comparison that is written in any way says what its operator says of the values of its
operands. -/
theorem holds_of_rendering {s : Text} (hop : op.Comparing) (hlhs : lhs.eval context = .ok x)
    (hrhs : rhs.eval context = .ok y) (hs : (Expr.binary op lhs rhs).Rendering s) :
    holds s context = op.apply x y := by
  rw [holds_of_read (read_of_rendering hs), Expr.truth, eval_binary hop hlhs hrhs]
  cases op.apply x y with
  | error e => rfl
  | ok b => rfl

end Operands

/-! ## Two values under names -/

/-- The condition that compares the values under the names `a` and `b`. -/
def comparison (op : Operator) : Text :=
  "$a ".toList ++ (op.symbol ++ " $b".toList)

/-- The context with two values under the names `a` and `b`. -/
def sides (x y : Value) : Context :=
  .ofList [("a", x), ("b", y)]

/-- What the condition with an operator between two variables says of their values. -/
def outcome (op : Operator) (x y : Value) : Except ConditionError Bool :=
  holds (comparison op) (sides x y)

/-- Two operands that are one token each are compared by a text with the operator between them. -/
theorem rendering_of_atoms {t u : Token} {lhs rhs : Expr} (ht : t.Atom) (hlhs : t.Denotes lhs)
    (hu : u.Atom) (hrhs : u.Denotes rhs) (op : Operator) :
    (Expr.binary op lhs rhs).Rendering (t.spelling ++ (' ' :: op.symbol ++ ' ' :: u.spelling)) := by
  have hnone : IsGap [] := fun c hc => absurd hc List.not_mem_nil
  have hspace : IsGap [' '] := List.all_eq_true.mp rfl
  refine ⟨[t] ++ .operator op :: [u], ?_, ?_⟩
  · exact .binary (Nat.zero_le _) (.operand ht hlhs) (.operand hu hrhs)
  · have hspelled : Spelled ([t] ++ .operator op :: [u])
        ([] ++ (t.spelling ++ ([' '] ++ (op.symbol ++ ([' '] ++ (u.spelling ++ [])))))) :=
      .cons hnone (.cons hspace (.cons hspace (.nil hnone)))
    simpa using hspelled

/-- A comparison of two names is written like this. -/
theorem rendering_comparison (op : Operator) :
    (Expr.binary op (.variable "a") (.variable "b")).Rendering (comparison op) := by
  have hname : ∀ c, isNameStart c → (Token.variable [c]).Atom :=
    fun c hc => .name (isName_cons hc rfl)
  exact rendering_of_atoms (hname 'a' rfl) .name (hname 'b' rfl) .name op

/-- Two values under names are compared by the operator. -/
theorem outcome_eq_apply {op : Operator} (hop : op.Comparing) (x y : Value) :
    outcome op x y = op.apply x y := by
  have hb : (sides x y).find? "b" = some y := by
    show ((Dict.empty.insert "a" x).insert "b" y).find? "b" = _
    rw [Dict.find?_insert, if_pos rfl]
  have ha : (sides x y).find? "a" = some x := by
    show ((Dict.empty.insert "a" x).insert "b" y).find? "a" = _
    rw [Dict.find?_insert, if_neg (by decide), Dict.find?_insert, if_pos rfl]
  apply holds_of_rendering hop _ _ (rendering_comparison op)
  · rw [Expr.eval, ha]
    rfl
  · rw [Expr.eval, hb]
    rfl

end HtmlViews.Condition
