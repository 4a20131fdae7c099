import HtmlViews.Numeric.Number
import Mathlib.Algebra.Group.Nat.Defs
import Mathlib.Order.Compare
import Mathlib.Tactic.SplitIfs

/-!
# The order of binary64 numbers

All numbers but the one that is no number are in a total order, in which both zeros are at the same
place. Apart from zeros, each finite number has a place of its own.

A finite number is a significand times a power of two, with the significand as large as it can be;
so of two numbers the one with the greater exponent is greater, and numbers with the same exponent
are compared by their significands. To compare them is to compare integers, their values in units of
the smallest power of two (**Finite.scaled**), and the laws of comparison are those of integers.

* **Binary64.compare?_swap** — comparing the other way round.
* **Binary64.same_of_compare?**, **Binary64.same_self** — equality is having the same place.
* **Binary64.ofRatio_ne_nan** — what is rounded has a place.
* **Finite.eq_or_of_scaled** — the finite numbers at one place.
-/

namespace HtmlViews

namespace Finite

/-- The numbers of a greater exponent are greater. -/
theorem magnitude_lt_of_exponent_lt {x y : Finite} (h : x.exponent < y.exponent) :
    x.magnitude < y.magnitude := by
  have hnormal : 2 ^ 52 ≤ y.significand := y.normal.resolve_right (by omega)
  calc x.significand * 2 ^ x.exponent
      < 2 ^ 53 * 2 ^ x.exponent :=
        Nat.mul_lt_mul_of_pos_right x.significand_lt (Nat.two_pow_pos _)
    _ = 2 ^ 52 * 2 ^ (x.exponent + 1) := by rw [Nat.pow_succ 2 x.exponent]; omega
    _ ≤ y.significand * 2 ^ y.exponent :=
        Nat.mul_le_mul hnormal (Nat.pow_le_pow_right (by decide) h)

/-- An absolute value has one significand and one exponent. -/
theorem eq_of_magnitude {x y : Finite} (h : x.magnitude = y.magnitude) :
    x.significand = y.significand ∧ x.exponent = y.exponent := by
  have hexponent : x.exponent = y.exponent := by
    by_contra hne
    rcases Nat.lt_or_gt_of_ne hne with hlt | hlt
    · exact absurd h (Nat.ne_of_lt (magnitude_lt_of_exponent_lt hlt))
    · exact absurd h.symm (Nat.ne_of_lt (magnitude_lt_of_exponent_lt hlt))
  unfold magnitude at h
  rw [hexponent] at h
  exact ⟨Nat.eq_of_mul_eq_mul_right (Nat.two_pow_pos _) h, hexponent⟩

/-- The place of a number without its sign is its magnitude. -/
theorem natAbs_scaled (x : Finite) : x.scaled.natAbs = x.magnitude := by
  unfold scaled
  split
  · rw [Int.natAbs_neg, Int.natAbs_natCast]
  · exact Int.natAbs_natCast _

/-- Without significand a number is zero. -/
theorem eq_zero_of_significand {x : Finite} (h : x.significand = 0) : x = .zero x.negative := by
  have hexponent : x.exponent = 0 := x.normal.resolve_left (by rw [h]; decide)
  obtain ⟨negative, significand, exponent, _, _, _⟩ := x
  obtain rfl : significand = 0 := h
  obtain rfl : exponent = 0 := hexponent
  rfl

/-- Two finite numbers at one place are the same, or they are both zero. -/
theorem eq_or_of_scaled {x y : Finite} (h : x.scaled = y.scaled) :
    x = y ∨ x = .zero x.negative ∧ y = .zero y.negative := by
  have hmagnitude : x.magnitude = y.magnitude := by
    rw [← natAbs_scaled, h, natAbs_scaled]
  obtain ⟨hsignificand, hexponent⟩ := eq_of_magnitude hmagnitude
  by_cases hsign : x.negative = y.negative
  · left
    obtain ⟨a, s, e, _, _, _⟩ := x
    obtain ⟨b, s', e', _, _, _⟩ := y
    obtain rfl : a = b := hsign
    obtain rfl : s = s' := hsignificand
    obtain rfl : e = e' := hexponent
    rfl
  · right
    have hzero : x.magnitude = 0 := by
      unfold scaled at h
      rw [← hmagnitude] at h
      -- One of the two sides is the negative of the other.
      split at h
      case isTrue hx =>
        rw [if_neg fun hy => hsign (hx.trans hy.symm)] at h
        omega
      case isFalse hx =>
        have hy : y.negative = true := by
          by_contra hy
          exact hsign ((eq_false_of_ne_true hx).trans (eq_false_of_ne_true hy).symm)
        rw [if_pos hy] at h
        omega
    have hx : x.significand = 0 :=
      (Nat.mul_eq_zero.mp hzero).resolve_right (Nat.ne_of_gt (Nat.two_pow_pos _))
    exact ⟨eq_zero_of_significand hx, eq_zero_of_significand (hsignificand ▸ hx)⟩

end Finite

namespace Binary64

/-- Comparing two numbers the other way round swaps their order. -/
theorem compare?_swap (x y : Binary64) : y.compare? x = (x.compare? y).map Ordering.swap := by
  cases x with
  | nan => cases y <;> rfl
  | infinite a =>
    cases y with
    | nan => rfl
    | infinite b => cases a <;> cases b <;> rfl
    | finite y => cases a <;> rfl
  | finite x =>
    cases y with
    | nan => rfl
    | infinite b => cases b <;> rfl
    | finite y => exact congrArg some Std.OrientedCmp.eq_swap

/-- Two numbers that are in order are equal if their order says so. -/
theorem same_of_compare? {x y : Binary64} {o : Ordering} (h : x.compare? y = some o) :
    x.same y = (o == .eq) := by
  unfold same
  rw [h]
  cases o <;> rfl

/-- Equality does not depend on the sides. -/
theorem same_comm (x y : Binary64) : x.same y = y.same x := by
  unfold same
  rw [compare?_swap x y]
  cases x.compare? y with
  | none => rfl
  | some o => cases o <;> rfl

/-- A number is equal to itself. -/
theorem same_self {x : Binary64} (h : x ≠ .nan) : x.same x = true := by
  cases x with
  | nan => exact absurd rfl h
  | infinite a => cases a <;> rfl
  | finite x =>
    have hself : (Binary64.finite x).compare? (.finite x) = some .eq :=
      congrArg some Std.ReflCmp.compare_self
    exact same_of_compare? hself

/-- What is made of a sign, a significand and an exponent has a place. -/
theorem ofParts_ne_nan (negative : Bool) (significand exponent : Nat) :
    ofParts negative significand exponent ≠ .nan := by
  unfold ofParts
  split
  · exact Binary64.noConfusion
  · exact Binary64.noConfusion

/-- The number nearest to a ratio has a place. -/
theorem ofRatio_ne_nan (negative : Bool) (n d : Nat) : ofRatio negative n d ≠ .nan := by
  unfold ofRatio
  split
  · exact Binary64.noConfusion
  · dsimp only
    split
    · exact ofParts_ne_nan _ _ _
    · exact ofParts_ne_nan _ _ _

/-- A decimal number has a place. -/
theorem ofDecimal_ne_nan (negative : Bool) (digits length : Nat) (power : Int) :
    ofDecimal negative digits length power ≠ .nan := by
  unfold ofDecimal
  split_ifs
  · exact Binary64.noConfusion
  · exact Binary64.noConfusion
  · exact Binary64.noConfusion
  · exact ofRatio_ne_nan _ _ _
  · exact ofRatio_ne_nan _ _ _

/-- An integer has a place. -/
theorem ofInt_ne_nan (i : Int) : ofInt i ≠ .nan :=
  ofRatio_ne_nan _ _ _

end Binary64

end HtmlViews
