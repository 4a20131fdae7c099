import HtmlViews.Numeric.Binary64
import HtmlViews.Text.Basic

/-!
# Reading numbers

A text is a number as a whole or not at all: nothing may stand before or behind it, blanks included.
Signs may be a plus or a minus; the point needs a digit on one of its sides; an exponent needs
digits. The decimal is rounded once, from its exact value, so that long rows of digits are read as
exactly as short ones.

Only ASCII digits count. The names without digits are those of the infinities and of the value that
is no number, in capitals or small letters.

* **digitsValue** — the number that decimal digits spell.
* **Binary64.read?** — a whole text as a number: an optional sign, then decimal digits with an
  optional point and exponent, or the name of an infinity or of the value that is no number.
* **Binary64.readDecimal?** — the same for digits behind the sign.
-/

namespace HtmlViews

/-- Whether a character is one of the ten ASCII digits. -/
def isDigit (c : Char) : Bool :=
  '0' ≤ c && c ≤ '9'

/-- The number that a run of decimal digits spells. -/
def digitsValue (ds : Text) : Nat :=
  ds.foldl (fun n c => 10 * n + (c.toNat - '0'.toNat)) 0

/-- The ASCII capitals of a text as small letters. -/
def Text.lowered (s : Text) : Text :=
  s.map Char.toLower

namespace Text

/-- An optional sign at the beginning of a text: whether it is a minus, and what follows. -/
def sign (s : Text) : Bool × Text :=
  match s with
  | '-' :: s => (true, s)
  | '+' :: s => (false, s)
  | s => (false, s)

/-- The digits before and behind an optional decimal point, and what follows them. -/
def decimalDigits (s : Text) : Text × Text × Text :=
  let whole := s.takeWhile isDigit
  match s.dropWhile isDigit with
  | '.' :: r => (whole, r.takeWhile isDigit, r.dropWhile isDigit)
  | r => (whole, [], r)

/-- The power of ten that a text spells when it is nothing but an exponent; an absent exponent
is `0`. -/
def exponent? (s : Text) : Option Int :=
  match s with
  | [] => some 0
  | c :: s =>
    if c = 'e' || c = 'E' then
      let (negative, ds) := sign s
      if ds ≠ [] && ds.all isDigit then
        some (if negative then -(digitsValue ds : Int) else (digitsValue ds : Int))
      else none
    else none

end Text

namespace Binary64

/-- A text of decimal digits with an optional point and an optional exponent, as the nearest
number; there is at least one digit before the exponent. -/
def readDecimal? (negative : Bool) (s : Text) : Option Binary64 :=
  let (whole, fraction, r) := s.decimalDigits
  if whole = [] ∧ fraction = [] then none
  else
    r.exponent?.map fun power =>
      ofDecimal negative (digitsValue (whole ++ fraction)) (whole ++ fraction).length
        (power - fraction.length)

/-- A whole text as a number. The names of the values without digits are read in any case of
letters. -/
def read? (s : Text) : Option Binary64 :=
  let (negative, r) := s.sign
  let name := r.lowered
  if name = "inf".toList || name = "infinity".toList then some (.infinite negative)
  else if name = "nan".toList then some .nan
  else readDecimal? negative r

end Binary64

end HtmlViews
