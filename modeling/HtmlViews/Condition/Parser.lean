import HtmlViews.Condition.Report

/-!
# Grouping tokens

The tokens of a condition are grouped from left to right. Within a pair of parentheses, the operands
read so far form a *chain*, grouped by the levels of the operators between them. A new operator goes
down the right side of the chain as long as it binds more tightly than what stands there.

The state of the grouping is a value of its own, the builder: what stands before every open
parenthesis, and the chain or the place for an operand in the innermost one. Each token takes one
builder to the next, so the grouping is a fold along the tokens, and what is proved of one token is
carried to all of them by induction on the row.

Only literals can still be wrong at this point, because the form was checked when the text was cut:
an integer may be too great, or a number with a fraction part beyond all finite ones.

* **Chain** — operands grouped by their operators.
* **Builder** — the chains of all open parentheses.
* **Expr.ofTokens** — the condition that a row of tokens makes.
* **read** — the condition that a text spells.
* **Token.operandValue?** — the expression that a literal or a name stands for.
-/

namespace HtmlViews.Condition

/-! ## Literals -/

/-- The words for true and false. -/
def truthWords : List (Text × Bool) :=
  [("true".toList, true), ("false".toList, false), ("True".toList, true), ("False".toList, false),
   ("TRUE".toList, true), ("FALSE".toList, false)]

/-- The words for null. -/
def nullWords : List Text :=
  ["null".toList, "NULL".toList]

/-- What a word without quotes stands for: a keyword, or the string of its characters. -/
def wordValue (w : Text) : Value :=
  match truthWords.lookup w with
  | some b => .bool b
  | none => if nullWords.contains w then .null else .str (String.ofList w)

/-- The integer that digits behind an optional minus spell. -/
def integerValue (t : Text) : Int :=
  let (sign, ds) := minus t
  if sign = [] then (digitsValue ds : Int) else -(digitsValue ds : Int)

/-- Whether an integer fits into 64 bits with a sign. -/
def fits (i : Int) : Bool :=
  -9223372036854775808 ≤ i && i ≤ 9223372036854775807

/-- The number that digits on both sides of a point spell, behind an optional minus. -/
def decimalValue (t : Text) : Option Finite :=
  match Binary64.read? t with
  | some (.finite x) => some x
  | _ => none

/-- The expression that an operand token stands for; none for the other tokens. -/
def Token.operandValue? : Token → Except ConditionError (Option Expr)
  | .integer t =>
    if fits (integerValue t) then .ok (some (.literal (.number (.int (integerValue t)))))
    else .error (.integerOutOfBounds t)
  | .decimal t =>
    match decimalValue t with
    | some x => .ok (some (.literal (.number (.float x))))
    | none => .error (.invalidFloat t)
  | .quoted _ body => .ok (some (.literal (.str (String.ofList body))))
  | .word w => .ok (some (.literal (wordValue w)))
  | .variable name => .ok (some (.variable (String.ofList name)))
  | _ => .ok none

/-! ## Chains -/

/-- Operands grouped by the operators between them. -/
inductive Chain where
  /-- A single operand. -/
  | operand (e : Expr)
  /-- Two chains around an operator. -/
  | joined (lhs : Chain) (op : Operator) (rhs : Chain)
deriving Repr

namespace Chain

/-- The expression of a chain. -/
def expr : Chain → Expr
  | .operand e => e
  | .joined lhs op rhs => .binary op lhs.expr rhs.expr

/-- A chain with one more operator and operand at its end. -/
def snoc : Chain → Operator → Expr → Chain
  | .operand e, op, x => .joined (.operand e) op (.operand x)
  | .joined lhs o rhs, op, x =>
    if o.level < op.level then .joined lhs o (rhs.snoc op x)
    else .joined (.joined lhs o rhs) op (.operand x)

end Chain

/-! ## Building -/

/-- What stands before an operand that is due: a chain with an operator, and negations. -/
structure Due where
  /-- The chain on the left side and the operator behind it. -/
  left : Option (Chain × Operator)
  /-- The number of negation signs. -/
  bangs : Nat
deriving Repr

namespace Due

/-- The beginning of a condition or of a parenthesis. -/
def start : Due :=
  ⟨none, 0⟩

/-- An expression behind a number of negation signs. -/
def negated : Nat → Expr → Expr
  | 0, e => e
  | n + 1, e => .not (negated n e)

/-- The chain once the operand is there. -/
def fill (d : Due) (e : Expr) : Chain :=
  match d.left with
  | none => .operand (negated d.bangs e)
  | some (chain, op) => chain.snoc op (negated d.bangs e)

end Due

/-- A condition that is being built; `outer` holds what stands before each open parenthesis, the
innermost first. -/
inductive Builder where
  /-- An operand is due. -/
  | due (outer : List Due) (d : Due)
  /-- The innermost parenthesis holds a chain. -/
  | full (outer : List Due) (chain : Chain)
deriving Repr

namespace Builder

/-- The builder of a condition of which nothing was read. -/
def start : Builder :=
  .due [] .start

/-- A condition with one more token. A token that cannot stand in its place changes nothing; the
tokens that scanning gives always can. -/
def push : Builder → Token → Except ConditionError Builder
  | .due outer d, .bang => .ok (.due outer { d with bangs := d.bangs + 1 })
  | .due outer d, .opening => .ok (.due (d :: outer) .start)
  | .due outer d, t => do
    match ← t.operandValue? with
    | some e => pure (.full outer (d.fill e))
    | none => pure (.due outer d)
  | .full outer chain, .operator op => .ok (.due outer ⟨some (chain, op), 0⟩)
  | .full (d :: outer) chain, .closing => .ok (.full outer (d.fill chain.expr))
  | b, _ => .ok b

/-- An operand completes what stands before it. -/
theorem push_of_value {t : Token} {e : Expr} (h : t.operandValue? = .ok (some e))
    (outer : List Due) (d : Due) : push (.due outer d) t = .ok (.full outer (d.fill e)) := by
  cases t with
  | bang | opening | closing | operator => cases h
  | _ =>
    rw [push, h]
    · rfl
    · nofun
    · nofun

/-- A fault of an operand is one of the condition. -/
theorem push_of_fault {t : Token} {err : ConditionError} (h : t.operandValue? = .error err)
    (outer : List Due) (d : Due) : push (.due outer d) t = .error err := by
  cases t with
  | bang | opening | closing | operator => cases h
  | _ =>
    rw [push, h]
    · rfl
    · nofun
    · nofun

/-- The condition, when nothing is missing. -/
def finish? : Builder → Option Expr
  | .full [] chain => some chain.expr
  | _ => none

end Builder

/-- The condition that a row of tokens makes. -/
def Expr.ofTokens (tokens : List Token) : Except ConditionError (Option Expr) :=
  (tokens.foldlM Builder.push Builder.start).map Builder.finish?

/-- The condition that a text spells. Faults of form come before faults of literals, and of those
the leftmost counts. -/
def read (s : Text) : Except ConditionError Expr := do
  match scan s with
  | .error e => .error (.unreadable (.ofSyntaxError s e))
  | .ok tokens =>
    match ← Expr.ofTokens tokens with
    | some e => .ok e
    | none => .error (.notACondition s)

end HtmlViews.Condition
