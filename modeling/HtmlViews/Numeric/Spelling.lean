import HtmlViews.Numeric.Reading
import HtmlViews.Numeric.Shortest

/-!
# Spelling numbers

A fractional number is spelled by its shortest decimal, with or without an exponent, depending on
where its first digit stands. The choices are data of their own, so that the spelling is defined
once and the style of the library is one value of it. A number of this kind never looks like an
integer: it has a point, with a zero behind it if need be, or an exponent.

* **decimalText** — the decimal digits of a natural number.
* **FloatStyle** — the choices that a spelling of fractional numbers makes.
* **Finite.text** — a number in the style of the library.
* **Binary64.text** — the spelling of any binary64 number.
-/

namespace HtmlViews

/-- The decimal digits of a natural number. -/
def decimalText (n : Nat) : Text :=
  Nat.toDigits 10 n

/-- The decimal digits of an integer, behind a minus when it is negative. -/
def integerText : Int → Text
  | .ofNat n => decimalText n
  | .negSucc n => '-' :: decimalText (n + 1)

/-- How numbers with a fraction part are spelled. -/
structure FloatStyle where
  /-- The least power of ten of the first digit that is written without an exponent. -/
  leastPlain : Int
  /-- The first power of ten that is written with an exponent again. -/
  plainBelow : Int
  /-- What ends a number without digits behind the point. -/
  wholeEnding : Text
  /-- What stands before a positive exponent. -/
  positiveSign : Text

/-- Numbers from `0.00001` to below `10 ^ 16` are written without an exponent and keep a digit
behind the point; positive exponents carry a plus. -/
def FloatStyle.standard : FloatStyle :=
  { leastPlain := -5, plainBelow := 16, wholeEnding := ['.', '0'], positiveSign := ['+'] }

namespace FloatStyle

/-- The digits `ds` with the point behind the first `places` of them. -/
def pointed (style : FloatStyle) (ds : Text) (places : Nat) : Text :=
  if ds.length ≤ places then
    ds ++ List.replicate (places - ds.length) '0' ++ style.wholeEnding
  else
    ds.take places ++ '.' :: ds.drop places

/-- The spelling of a decimal number without a sign. -/
def spell (style : FloatStyle) (d : Decimal) : Text :=
  let ds := decimalText d.digits
  let order : Int := d.power + (ds.length : Int) - 1
  if style.leastPlain ≤ order && order < style.plainBelow then
    if 0 ≤ order then style.pointed ds (order.toNat + 1)
    else '0' :: '.' :: List.replicate ((-order).toNat - 1) '0' ++ ds
  else
    let mantissa := if ds.length = 1 then ds else style.pointed ds 1
    let mark := if order < 0 then ['-'] else style.positiveSign
    mantissa ++ 'e' :: mark ++ decimalText order.natAbs

end FloatStyle

/-- The shortest spelling of a finite number that reads back. -/
def Finite.text (x : Finite) : Text :=
  let digits := FloatStyle.standard.spell x.shortest
  if x.negative then '-' :: digits else digits

/-- The spelling of any binary64 number. -/
def Binary64.text : Binary64 → Text
  | .nan => "NaN".toList
  | .infinite negative => if negative then "-inf".toList else "inf".toList
  | .finite x => x.text

end HtmlViews
