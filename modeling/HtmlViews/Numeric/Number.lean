import HtmlViews.Numeric.Spelling

/-!
# Numbers of values

A number in a value is an integer or has a fraction part; the two kinds differ in how they are
written (`3`, `3.0`) and in nothing that is computed.

Integers are exact, of any size, and keep being written as integers. Comparisons between values
round them to binary64 numbers first, so two integers beyond `2 ^ 53` can be equal in a condition
without being equal. Equality of content, which keeps the kinds apart, does not round.

* **Number** — an integer or a finite binary64 number.
* **Number.toBinary64** — the number that comparisons work with.
* **Number.text** — its spelling.
-/

namespace HtmlViews

/-- A number of a value. -/
inductive Number where
  /-- A number written without a fraction part. -/
  | int (i : Int)
  /-- A number written with a fraction part or an exponent. -/
  | float (x : Finite)
deriving Repr, DecidableEq

namespace Number

/-- The spelling of a number. -/
def text : Number → Text
  | .int i => integerText i
  | .float x => x.text

/-- The number as comparisons see it: integers are rounded to the nearest binary64 number. -/
def toBinary64 : Number → Binary64
  | .int i => .ofInt i
  | .float x => .finite x

/-- Whether two numbers are of the same kind and numerically equal. -/
def same : Number → Number → Bool
  | .int i, .int j => i = j
  | .float x, .float y => Binary64.same (.finite x) (.finite y)
  | _, _ => false

end Number

end HtmlViews
