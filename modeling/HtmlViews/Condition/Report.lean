import HtmlViews.Condition.Scanner
import HtmlViews.Value.Text

/-!
# Errors of conditions

A condition that cannot be read or has no truth value does not end a render: it counts as false, and
the error is written to the log. So an error is kept as the data of what went wrong, and is put into
words only for the log. The wording shows the line of the condition with a mark below the place of
the error, or the two values that could not be compared, written as JSON.

Lines end at line feeds; carriage returns are left out of the line that is shown, but they count as
characters of it.

* **ConditionError** — why a condition has no truth value.
* **Report** — a syntax error with its line and column.
* **ConditionError.message** — the text that describes an error.
-/

namespace HtmlViews.Condition

/-- A syntax error in its line. Lines and columns are counted from one. -/
structure Report where
  /-- The number of the line. -/
  line : Nat
  /-- The number of the character in its line. -/
  column : Nat
  /-- The line without its end. -/
  text : Text
  /-- What could have stood there. -/
  expected : Expected
deriving DecidableEq, Repr

/-- Why a condition has no truth value. -/
inductive ConditionError where
  /-- The text is no condition. -/
  | unreadable (report : Report)
  /-- The tokens of the text do not make one expression. -/
  | notACondition (text : Text)
  /-- An integer that does not fit into 64 bits. -/
  | integerOutOfBounds (digits : Text)
  /-- A number with a fraction part beyond the greatest finite one. -/
  | invalidFloat (digits : Text)
  /-- Two values of kinds that have no common order. -/
  | incomparable (op : Operator) (lhs rhs : Value)
  /-- Two numbers of which one has no place in the numeric order. -/
  | unordered (lhs rhs : Value)
deriving Repr

/-! ## Places in a text -/

/-- The part of a text up to its first line feed. -/
def firstLine (s : Text) : Text :=
  s.takeWhile (· ≠ '\n')

namespace Report

/-- The report of a syntax error in the condition `input`. The place of an error is never a line
end, because gaps are skipped before a token is looked for. -/
def ofSyntaxError (input : Text) (e : SyntaxError) : Report :=
  let passed := input.take (input.length - e.rest.length)
  let inLine := (firstLine passed.reverse).reverse
  { line := passed.count '\n' + 1
    column := inLine.length + 1
    text := (inLine ++ firstLine e.rest).filter (· ≠ '\r')
    expected := e.expected }

/-- What a report says was expected. -/
def expectedText : Expected → Text
  | .expression => "expected an expression".toList
  | .operand =>
    ("expected an integer, a float, a string, `true` or `false`, `null`, a variable (`$name`), "
      ++ "a word, or `!`").toList
  | .operator =>
    "expected `||`, `&&`, `===`, `!==`, `==`, `!=`, `<=`, `>=`, `<`, or `>`".toList
  | .operatorOrEnd =>
    ("expected end of input, `||`, `&&`, `===`, `!==`, `==`, `!=`, `<=`, `>=`, `<`, or `>`").toList

/-- The line of an error with a mark below its column. Tabs before the mark are kept so that it
stands below the character. -/
def render (r : Report) : Text :=
  let number := decimalText r.line
  let margin := List.replicate number.length ' '
  let indent := (r.text.take (r.column - 1)).map fun c => if c = '\t' then '\t' else ' '
  Text.joinWith ['\n']
    [margin ++ "--> ".toList ++ number ++ ':' :: decimalText r.column,
     margin ++ " |".toList,
     number ++ " | ".toList ++ r.text,
     margin ++ " | ".toList ++ indent ++ "^---".toList,
     margin ++ " |".toList,
     margin ++ " = ".toList ++ expectedText r.expected]

end Report

/-- A text between back quotes. -/
def ticked (s : Text) : Text :=
  '\x60' :: s ++ ['\x60']

/-- The text that describes an error. -/
def ConditionError.message : ConditionError → Text
  | .unreadable report => report.render
  | .notACondition text => ticked text ++ " is not a condition".toList
  | .integerOutOfBounds digits => "Integer out of bounds: ".toList ++ ticked digits
  | .invalidFloat digits => "Invalid float: ".toList ++ ticked digits
  | .incomparable op lhs rhs =>
    ticked op.symbol ++ " cannot be used between ".toList ++ ticked lhs.compact
      ++ " and ".toList ++ ticked rhs.compact
  | .unordered lhs rhs =>
    ticked lhs.compact ++ " and ".toList ++ ticked rhs.compact ++ " cannot be ordered".toList

end HtmlViews.Condition
