import HtmlViews.Condition.Parser
import HtmlViews.Context
import HtmlViews.Value.Compare

/-!
# Evaluating conditions

A condition is evaluated in a context and has a value, of which a page uses only whether it counts
as true. A name without a value is null, which is no error. Errors come from orders alone: two
values that have no common order cannot be put in one, and then the whole condition has no value,
unless its left side already decides and the right side is not looked at.

The connectives give truth values, not the value of one of their sides; so does a negation. A
literal or a name alone keeps its value.

* **Operator.apply** — what an operator says of two values.
* **Expr.eval** — the value of a condition in a context.
* **holds** — whether the condition that a text spells is true in a context.
* **Operator.shortcut** — what the left side of a connective decides alone.
-/

namespace HtmlViews.Condition

namespace Operator

/-- What the left side alone decides: one true side of `||`, one false side of `&&`. -/
def shortcut : Operator → (lhs : Bool) → Option Bool
  | .or, true => some true
  | .and, false => some false
  | _, _ => none

/-- The order of two values as the operator needs it. -/
def ordering (op : Operator) (x y : Value) : Except ConditionError Ordering :=
  match x.compare y with
  | .ordered o => .ok o
  | .unordered => .error (.unordered x y)
  | .incomparable => .error (.incomparable op x y)

/-- What an operator says of two values; the connectives get here only when their left side decides
nothing. -/
def apply (op : Operator) (x y : Value) : Except ConditionError Bool :=
  match op with
  | .or | .and => .ok y.truthy
  | .equal => .ok (x.looselyEqual y)
  | .notEqual => .ok (!x.looselyEqual y)
  | .identical => .ok (x.identical y)
  | .notIdentical => .ok (!x.identical y)
  | .less => (op.ordering x y).map (· == .lt)
  | .lessEqual => (op.ordering x y).map (· != .gt)
  | .greater => (op.ordering x y).map (· == .gt)
  | .greaterEqual => (op.ordering x y).map (· != .lt)

end Operator

/-- The value of a condition. Names without a value are null; the right side of a connective is
evaluated only when the left side does not decide. -/
def Expr.eval (context : Context) : Expr → Except ConditionError Value
  | .literal v => .ok v
  | .variable name => .ok ((context.find? name).getD .null)
  | .not e => do
    let v ← e.eval context
    pure (.bool (!v.truthy))
  | .binary op lhs rhs => do
    let x ← lhs.eval context
    match op.shortcut x.truthy with
    | some b => pure (.bool b)
    | none =>
      let y ← rhs.eval context
      let b ← op.apply x y
      pure (.bool b)

/-- The value of the condition that a text spells. -/
def value (s : Text) (context : Context) : Except ConditionError Value := do
  let e ← read s
  e.eval context

/-- Whether the condition that a text spells is true in a context. -/
def holds (s : Text) (context : Context) : Except ConditionError Bool := do
  let v ← value s context
  pure v.truthy

end HtmlViews.Condition
