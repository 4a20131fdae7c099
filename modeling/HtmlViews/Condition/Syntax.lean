import HtmlViews.Text.Basic
import HtmlViews.Value.Basic

/-!
# Conditions

A condition is built from literals, variables, comparisons and the boolean connectives. Nothing in
it can be called.

There is no call, no assignment and no access to parts of a value: evaluating a condition can look
up names and compare values, and nothing else. So a condition has no effects, and it always comes to
an end. The operators are one type with a spelling and a level, so that reading, grouping and
evaluating are each defined once for all ten.

* **Operator** — the ten binary operators, with their spelling and how tightly they bind.
* **Expr** — a condition that was read.
-/

namespace HtmlViews.Condition

/-- A binary operator. -/
inductive Operator where
  /-- Either side. -/
  | or
  /-- Both sides. -/
  | and
  /-- Equality across kinds. -/
  | equal
  /-- The negation of equality across kinds. -/
  | notEqual
  /-- Equality of kind and content. -/
  | identical
  /-- The negation of equality of kind and content. -/
  | notIdentical
  /-- Strictly before. -/
  | less
  /-- Before or at the same place. -/
  | lessEqual
  /-- Strictly behind. -/
  | greater
  /-- Behind or at the same place. -/
  | greaterEqual
deriving DecidableEq, Repr

namespace Operator

/-- The spelling of an operator. -/
def symbol : Operator → Text
  | .or => ['|', '|']
  | .and => ['&', '&']
  | .equal => ['=', '=']
  | .notEqual => ['!', '=']
  | .identical => ['=', '=', '=']
  | .notIdentical => ['!', '=', '=']
  | .less => ['<']
  | .lessEqual => ['<', '=']
  | .greater => ['>']
  | .greaterEqual => ['>', '=']

/-- How tightly an operator binds; a greater level binds more tightly, and operators of one level
group to the left. -/
def level : Operator → Nat
  | .or => 0
  | .and => 1
  | .equal | .notEqual | .identical | .notIdentical => 2
  | .less | .lessEqual | .greater | .greaterEqual => 3

end Operator

/-- A condition that was read. -/
inductive Expr where
  /-- A number, a string, a truth value or null written in the condition. -/
  | literal (v : Value)
  /-- A name that is looked up when the condition is evaluated. -/
  | variable (name : String)
  /-- The negation of a condition. -/
  | not (e : Expr)
  /-- Two conditions joined by an operator. -/
  | binary (op : Operator) (lhs rhs : Expr)
deriving Inhabited, Repr

end HtmlViews.Condition
