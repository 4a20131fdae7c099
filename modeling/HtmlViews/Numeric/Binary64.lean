/-!
# Binary64 numbers

Numbers with a fraction part are IEEE binary64 numbers. They are kept as exact dyadic fractions, so
comparing them is comparing integers, and only reading a decimal rounds.

The structure of a finite number says that it is in normal form, so every number has one
representation, except zero, which has two. All finite numbers are integers in the smallest unit,
which makes their order the one of integers.

Rounding is done once, on a quotient of natural numbers with the sign apart. The exponent is found
from the lengths in binary, and the significand by a division with remainder, with ties to the even
one. What rounds up to a significand of one digit more has it halved again.

* **Finite** — `± significand · 2 ^ exponent`, in units of `2 ^ -1074`.
* **Binary64** — a finite number, an infinity, or the value that is no number.
* **Binary64.ofRatio** — the number nearest to a quotient, ties to the even significand.
* **Binary64.compare?** — the numeric order; undefined when a side is no number.
* **Finite.scaled** — a finite number as an integer.
* **Binary64.ofInt**, **Binary64.ofDecimal** — the numbers nearest to an integer and to a decimal.
-/

namespace HtmlViews

/-- A finite binary64 number: `± significand · 2 ^ exponent` in units of `2 ^ -1074`. The
significand has 53 bits, or fewer at the least exponent. -/
structure Finite where
  /-- Whether the number carries a minus sign. -/
  negative : Bool
  /-- The digits, as an integer below `2 ^ 53`. -/
  significand : Nat
  /-- The number of times the significand is doubled. -/
  exponent : Nat
  significand_lt : significand < Nat.pow 2 53 := by decide
  exponent_le : exponent ≤ 2045 := by decide
  normal : Nat.pow 2 52 ≤ significand ∨ exponent = 0 := by decide
deriving DecidableEq, Repr

namespace Finite

/-- The number zero with a sign. -/
def zero (negative : Bool) : Finite :=
  { negative, significand := 0, exponent := 0 }

instance : Inhabited Finite :=
  ⟨zero false⟩

/-- The absolute value, in units of `2 ^ -1074`. -/
def magnitude (x : Finite) : Nat :=
  x.significand * Nat.pow 2 x.exponent

/-- The number itself, in units of `2 ^ -1074`; both zeros are `0`. -/
def scaled (x : Finite) : Int :=
  if x.negative then -(x.magnitude : Int) else (x.magnitude : Int)

end Finite

/-- A binary64 number. -/
inductive Binary64 where
  /-- The value of a computation without a numeric result. -/
  | nan
  /-- One of the two infinities. -/
  | infinite (negative : Bool)
  /-- A finite number. -/
  | finite (x : Finite)
deriving DecidableEq, Repr

namespace Binary64

/-- The number zero with a sign. -/
def zero (negative : Bool) : Binary64 :=
  .finite (.zero negative)

/-! ## Rounding -/

/-- The integer nearest to `n / d`; of two equally near ones the even one. -/
def roundHalfEven (n d : Nat) : Nat :=
  let quotient := n / d
  let double := 2 * (n % d)
  if double < d then quotient
  else if d < double then quotient + 1
  else if quotient % 2 = 0 then quotient
  else quotient + 1

/-- The least exponent at which `n / d` has no more than 53 binary digits before the point. -/
def leastExponent (n d : Nat) : Nat :=
  let estimate := n.log2 - (d.log2 + 52)
  if 0 < estimate ∧ n < d * Nat.pow 2 (estimate + 52) then estimate - 1 else estimate

/-- The number with the given sign, significand and exponent; an exponent too great for a finite
number gives an infinity. -/
def ofParts (negative : Bool) (significand exponent : Nat) : Binary64 :=
  if h : significand < Nat.pow 2 53 ∧ exponent ≤ 2045 ∧
      (Nat.pow 2 52 ≤ significand ∨ exponent = 0) then
    .finite ⟨negative, significand, exponent, h.1, h.2.1, h.2.2⟩
  else
    .infinite negative

/-- The number nearest to `± n / d`; of two equally near ones the one with the even significand.
What rounds beyond the greatest finite number is infinite. -/
def ofRatio (negative : Bool) (n d : Nat) : Binary64 :=
  if n = 0 then zero negative
  else
    let units := n * Nat.pow 2 1074
    let exponent := leastExponent units d
    let significand := roundHalfEven units (d * Nat.pow 2 exponent)
    if significand = Nat.pow 2 53 then ofParts negative (Nat.pow 2 52) (exponent + 1)
    else ofParts negative significand exponent

/-- The number nearest to an integer. -/
def ofInt (i : Int) : Binary64 :=
  ofRatio (decide (i < 0)) i.natAbs 1

/-- The number nearest to `± digits · 10 ^ power`, where `digits` has at most `length` decimal
digits. Powers that are out of reach of any finite number are not computed. -/
def ofDecimal (negative : Bool) (digits length : Nat) (power : Int) : Binary64 :=
  if digits = 0 then zero negative
  else if 400 < power then .infinite negative
  else if power + length < -400 then zero negative
  else if 0 ≤ power then ofRatio negative (digits * Nat.pow 10 power.toNat) 1
  else ofRatio negative digits (Nat.pow 10 (-power).toNat)

/-! ## Order -/

/-- How two numbers compare; none when one of them is no number. Both zeros are equal. -/
def compare? : Binary64 → Binary64 → Option Ordering
  | .nan, _ => none
  | _, .nan => none
  | .infinite a, .infinite b => some (Ord.compare b a)
  | .infinite a, .finite _ => some (if a then .lt else .gt)
  | .finite _, .infinite b => some (if b then .gt else .lt)
  | .finite x, .finite y => some (Ord.compare x.scaled y.scaled)

/-- Whether two numbers are numerically equal. -/
def same (x y : Binary64) : Bool :=
  compare? x y = some .eq

/-- Whether a number is zero. -/
def isZero (x : Binary64) : Bool :=
  same x (zero false)

end Binary64

end HtmlViews
