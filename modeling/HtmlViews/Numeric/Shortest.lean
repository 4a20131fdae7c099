import HtmlViews.Numeric.Binary64

/-!
# Shortest decimals

A finite number is written with the fewest digits that read back as that number, and with the
nearest of those decimals. The reals that round to a number form an interval around it; its ends
belong to it when the significand is even. A decimal with a given count of digits lies in the
interval only if one of the two neighbours of the number on that decimal grid does.

The interval of a number is kept in one unit with its bounds, all as natural numbers, so that a
decimal is tested by multiplying and comparing, without any rounding. Lengths are tried from one
digit on, and the first at which some decimal lies in the interval is the shortest; there is one
with seventeen digits for every number, and the last case of the definition is not reached.

* **Decimal** — digits and a power of ten.
* **Interval** — a positive number with the reals that round to it.
* **Finite.shortest** — the decimal to write.
-/

namespace HtmlViews

/-- The number `digits · 10 ^ power`. -/
structure Decimal where
  /-- The digits, as an integer. -/
  digits : Nat
  /-- The power of ten that the digits are multiplied by. -/
  power : Int
deriving DecidableEq, Repr

/-- A positive number `value / unit` with the bounds of the reals that round to it. -/
structure Interval where
  /-- The least of the reals, in the same unit. -/
  low : Nat
  /-- The number itself. -/
  value : Nat
  /-- The greatest of the reals. -/
  high : Nat
  /-- What all three are divided by. -/
  unit : Nat
  /-- Whether the bounds themselves round to the number. -/
  closed : Bool
deriving Repr

namespace Interval

/-- The reals that round to a positive finite number: half a step to each neighbour. Below a power
of two the step is half as wide. -/
def ofFinite (x : Finite) : Interval :=
  let value := 4 * x.magnitude
  let quarter := Nat.pow 2 x.exponent
  let half := 2 * quarter
  let below := if x.significand = Nat.pow 2 52 ∧ 0 < x.exponent then quarter else half
  { low := value - below, value, high := value + half, unit := 4 * Nat.pow 2 1074,
    closed := x.significand % 2 = 0 }

/-- The interval measured in steps of `10 ^ power`. -/
def inSteps (i : Interval) (power : Int) : Interval :=
  if 0 ≤ power then { i with unit := i.unit * Nat.pow 10 power.toNat }
  else
    let factor := Nat.pow 10 (-power).toNat
    { i with low := i.low * factor, value := i.value * factor, high := i.high * factor }

/-- Whether an integer lies in the interval. -/
def contains (i : Interval) (n : Nat) : Bool :=
  let point := n * i.unit
  if i.closed then i.low ≤ point && point ≤ i.high else i.low < point && point < i.high

/-- The integer of the interval nearest to its number, of two equally near ones the even one;
none when the interval holds no integer. -/
def nearest? (i : Interval) : Option Nat :=
  let down := i.value / i.unit
  let up := down + 1
  let left := i.value - down * i.unit
  let right := up * i.unit - i.value
  match i.contains down, i.contains up with
  | false, false => none
  | true, false => some down
  | false, true => some up
  | true, true =>
    if left < right then some down
    else if right < left then some up
    else if down % 2 = 0 then some down else some up

/-- The greatest `e` with `10 ^ e` at most the number of the interval. -/
def order (i : Interval) : Int :=
  let bits : Int := (i.value.log2 : Int) - i.unit.log2
  let estimate := (bits * 30103).fdiv 100000
  let reaches (e : Int) : Bool :=
    if 0 ≤ e then i.unit * Nat.pow 10 e.toNat ≤ i.value
    else i.unit ≤ i.value * Nat.pow 10 (-e).toNat
  if reaches (estimate + 1) then estimate + 1
  else if reaches estimate then estimate
  else estimate - 1

/-- The nearest decimal with `count` digits, when one of that length reads back. -/
def withDigits? (i : Interval) (count : Nat) : Option Decimal :=
  let power := i.order - (count - 1 : Nat)
  (i.inSteps power).nearest?.map fun n => ⟨n, power⟩

end Interval

namespace Decimal

/-- The same number without zeros at the end of its digits; `fuel` bounds their count. -/
def dropZeros : (fuel : Nat) → Decimal → Decimal
  | 0, d => d
  | fuel + 1, d =>
    if d.digits ≠ 0 ∧ d.digits % 10 = 0 then dropZeros fuel ⟨d.digits / 10, d.power + 1⟩ else d

end Decimal

/-- The decimal with the fewest digits that reads back as the absolute value of a number, and of
those the nearest one. Seventeen digits always suffice. -/
def Finite.shortest (x : Finite) : Decimal :=
  if x.significand = 0 then ⟨0, 0⟩
  else
    let i := Interval.ofFinite x
    match (List.range 17).findSome? fun n => i.withDigits? (n + 1) with
    | some d => d.dropZeros 17
    | none => ⟨i.value / i.unit, 0⟩

end HtmlViews
