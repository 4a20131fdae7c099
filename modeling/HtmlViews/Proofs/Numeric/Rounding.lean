import HtmlViews.Proofs.Numeric.Order
import Mathlib.Algebra.Order.Ring.Int

/-!
# Rounding integers

Binary64 numbers have 53 binary digits. An integer with more digits is rounded to its nearest
neighbour among the multiples of a step, of two equally near ones to the even multiple. Rounding
keeps the order of integers, and integers up to `2 ^ 53` are kept as they are.

Rounding is division with remainder, of which the result is raised when more than half is left, or
just half and the result is odd. The order is kept within the numbers with one count of digits,
because the step is the same for all of them; and between counts, because a number with fewer digits
is never rounded beyond the first one with more (**Binary64.roundedNat_bounds**). Powers of two can
be taken out of all of this, so the numbers that are actually represented, a significand and an
exponent, are compared as the rounded integers are.

* **Binary64.rounded** — an integer with 53 binary digits.
* **Binary64.rounded_of_le**, **Binary64.rounded_mono** — small integers are kept, and so is the
  order of all.
* **Binary64.exists_ofInt** — the binary64 number of an integer.
* **Binary64.compare?_ofInt** — integers are compared when they are rounded.
-/

namespace HtmlViews.Binary64

/-! ## Multiples -/

/-- Rounding goes down or up, to the side that is not farther. -/
theorem roundHalfEven_cases (n d : Nat) :
    (roundHalfEven n d = n / d ∧ 2 * (n % d) ≤ d) ∨
      (roundHalfEven n d = n / d + 1 ∧ d ≤ 2 * (n % d)) := by
  unfold roundHalfEven
  dsimp only
  split_ifs <;> omega

/-- A ratio may be expanded before it is rounded. -/
theorem roundHalfEven_mul_right (n d : Nat) {c : Nat} (hc : 0 < c) :
    roundHalfEven (n * c) (d * c) = roundHalfEven n d := by
  have hdouble : 2 * (n % d * c) = 2 * (n % d) * c := by rw [Nat.mul_assoc]
  unfold roundHalfEven
  simp only [Nat.mul_div_mul_right _ _ hc, Nat.mul_mod_mul_right, hdouble,
    Nat.mul_lt_mul_right hc]

/-- An integer is rounded to itself. -/
theorem roundHalfEven_one (n : Nat) : roundHalfEven n 1 = n := by
  have hmod : n % 1 = 0 := Nat.mod_one n
  rcases roundHalfEven_cases n 1 with ⟨h, -⟩ | ⟨-, h⟩
  · rw [h, Nat.div_one]
  · omega

/-- A greater number is rounded to a multiple that is not smaller. -/
theorem roundHalfEven_mono {m n : Nat} (h : m ≤ n) (d : Nat) :
    roundHalfEven m d ≤ roundHalfEven n d := by
  have hdiv : m / d ≤ n / d := Nat.div_le_div_right h
  rcases Nat.lt_or_eq_of_le hdiv with hlt | heq
  · rcases roundHalfEven_cases m d with ⟨hm, -⟩ | ⟨hm, -⟩ <;>
      rcases roundHalfEven_cases n d with ⟨hn, -⟩ | ⟨hn, -⟩ <;> omega
  · have hmod : m % d ≤ n % d := by
      have := Nat.div_add_mod m d
      have := Nat.div_add_mod n d
      rw [heq] at *
      omega
    unfold roundHalfEven
    dsimp only
    rw [heq]
    split_ifs <;> omega

/-- Between `2 ^ 52` and `2 ^ 53` multiples of `d`, a number is rounded to one of these. -/
theorem roundHalfEven_bounds {n d : Nat} (hlow : 2 ^ 52 * d ≤ n) (hhigh : n < 2 ^ 53 * d) :
    2 ^ 52 ≤ roundHalfEven n d ∧ roundHalfEven n d ≤ 2 ^ 53 := by
  have hd : 0 < d := by
    by_contra hd
    rw [Nat.eq_zero_of_not_pos hd] at hhigh
    exact absurd hhigh (Nat.not_lt_zero n)
  have hdown : 2 ^ 52 ≤ n / d := (Nat.le_div_iff_mul_le hd).mpr hlow
  have hup : n / d < 2 ^ 53 := (Nat.div_lt_iff_lt_mul hd).mpr hhigh
  rcases roundHalfEven_cases n d with ⟨h, -⟩ | ⟨h, -⟩ <;> omega

/-! ## Natural numbers -/

/-- The step between neighbours near a number: the power of two of which the number has at least
`2 ^ 52` multiples below it, and `1` for small numbers. -/
def step (n : Nat) : Nat :=
  Nat.pow 2 (n.log2 - 52)

/-- A natural number rounded to 53 binary digits. -/
def roundedNat (n : Nat) : Nat :=
  roundHalfEven n (step n) * step n

/-- A number of at most 53 binary digits is not rounded. -/
theorem roundedNat_of_log2_le {n : Nat} (h : n.log2 ≤ 52) : roundedNat n = n := by
  have hstep : step n = 1 := by
    unfold step
    rw [Nat.sub_eq_zero_of_le h]
  rw [roundedNat, hstep, roundHalfEven_one, Nat.mul_one]

/-- Natural numbers up to `2 ^ 53` have 53 binary digits. -/
theorem roundedNat_of_le {n : Nat} (h : n ≤ 2 ^ 53) : roundedNat n = n := by
  rcases Nat.lt_or_eq_of_le h with hlt | rfl
  · apply roundedNat_of_log2_le
    by_cases hn : n = 0
    · subst hn
      decide
    · exact Nat.le_of_lt_succ ((Nat.log2_lt hn).mpr hlt)
  · decide

/-- The powers of two around a number of at least 53 digits, in steps. -/
theorem pow_mul_step {n : Nat} (h : 52 ≤ n.log2) :
    2 ^ 52 * step n = 2 ^ n.log2 ∧ 2 ^ 53 * step n = 2 ^ (n.log2 + 1) := by
  have hpow : 2 ^ 52 * step n = 2 ^ n.log2 := by
    show 2 ^ 52 * 2 ^ (n.log2 - 52) = _
    rw [← Nat.pow_add, Nat.add_sub_cancel' h]
  refine ⟨hpow, ?_⟩
  rw [Nat.pow_succ 2 52, Nat.mul_right_comm, hpow, Nat.pow_succ]

/-- A number of at least 53 digits is rounded to one of its multiples of the step with 53 digits, or
to the one behind the last of them. -/
theorem roundHalfEven_step_bounds {n : Nat} (h : 52 ≤ n.log2) :
    2 ^ 52 ≤ roundHalfEven n (step n) ∧ roundHalfEven n (step n) ≤ 2 ^ 53 := by
  have hn : n ≠ 0 := by
    rintro rfl
    exact absurd h (by decide)
  obtain ⟨hlow, hhigh⟩ := pow_mul_step h
  apply roundHalfEven_bounds
  · rw [hlow]
    exact Nat.log2_self_le hn
  · rw [hhigh]
    exact Nat.lt_log2_self

/-- Rounding does not leave the numbers with the same count of digits, but for the least number with
one more. -/
theorem roundedNat_bounds {n : Nat} (hn : n ≠ 0) :
    2 ^ n.log2 ≤ roundedNat n ∧ roundedNat n ≤ 2 ^ (n.log2 + 1) := by
  rcases Nat.le_total n.log2 52 with hsmall | hlarge
  · rw [roundedNat_of_log2_le hsmall]
    exact ⟨Nat.log2_self_le hn, Nat.le_of_lt Nat.lt_log2_self⟩
  · obtain ⟨hdown, hup⟩ := roundHalfEven_step_bounds hlarge
    obtain ⟨hlow, hhigh⟩ := pow_mul_step hlarge
    rw [← hlow, ← hhigh]
    exact ⟨Nat.mul_le_mul_right _ hdown, Nat.mul_le_mul_right _ hup⟩

/-- Rounding keeps the order of natural numbers. -/
theorem roundedNat_mono {m n : Nat} (h : m ≤ n) : roundedNat m ≤ roundedNat n := by
  by_cases hm : m = 0
  · subst hm
    exact (roundedNat_of_le (Nat.zero_le _)).trans_le (Nat.zero_le _)
  · have hn : n ≠ 0 := by omega
    have hlog : m.log2 ≤ n.log2 := (Nat.le_log2 hn).mpr ((Nat.log2_self_le hm).trans h)
    rcases Nat.lt_or_eq_of_le hlog with hlt | heq
    · calc roundedNat m ≤ 2 ^ (m.log2 + 1) := (roundedNat_bounds hm).2
        _ ≤ 2 ^ n.log2 := Nat.pow_le_pow_right (by decide) hlt
        _ ≤ roundedNat n := (roundedNat_bounds hn).1
    · have hstep : step m = step n := by rw [step, step, heq]
      rw [roundedNat, roundedNat, hstep]
      exact Nat.mul_le_mul_right _ (roundHalfEven_mono h _)

/-- Rounding does not depend on the unit, when that is a power of two. -/
theorem roundedNat_two_mul (n : Nat) : roundedNat (2 * n) = 2 * roundedNat n := by
  by_cases hn : n = 0
  · subst hn
    rfl
  · have hlog : (2 * n).log2 = n.log2 + 1 := Nat.log2_two_mul hn
    rcases Nat.lt_or_ge n.log2 52 with hsmall | hlarge
    · rw [roundedNat_of_log2_le (by omega), roundedNat_of_log2_le (by omega)]
    · have hstep : step (2 * n) = step n * 2 := by
        unfold step
        rw [hlog, Nat.succ_sub hlarge]
        rfl
      rw [roundedNat, roundedNat, hstep, Nat.mul_comm 2 n, roundHalfEven_mul_right _ _ (by decide),
        ← Nat.mul_assoc, Nat.mul_comm]

/-- A power of two may be taken out before rounding. -/
theorem roundedNat_pow_mul (k n : Nat) : roundedNat (2 ^ k * n) = 2 ^ k * roundedNat n := by
  induction k with
  | zero => rw [Nat.pow_zero, Nat.one_mul, Nat.one_mul]
  | succ k ih =>
    rw [Nat.pow_succ, Nat.mul_comm (2 ^ k) 2, Nat.mul_assoc, roundedNat_two_mul, ih, Nat.mul_assoc]

/-! ## Integers -/

/-- An integer rounded to 53 binary digits. -/
def rounded (i : Int) : Int :=
  if i < 0 then -(roundedNat i.natAbs : Int) else (roundedNat i.natAbs : Int)

/-- Integers up to `2 ^ 53` have 53 binary digits. -/
theorem rounded_of_le {i : Int} (h : i.natAbs ≤ 2 ^ 53) : rounded i = i := by
  unfold rounded
  rw [roundedNat_of_le h]
  split <;> omega

/-- Rounding keeps the order of integers. -/
theorem rounded_mono {i j : Int} (h : i ≤ j) : rounded i ≤ rounded j := by
  unfold rounded
  split
  case isTrue hi =>
    split
    case isTrue hj =>
      have := roundedNat_mono (m := j.natAbs) (n := i.natAbs) (by omega)
      omega
    case isFalse => omega
  case isFalse hi =>
    rw [if_neg (by omega)]
    have := roundedNat_mono (m := i.natAbs) (n := j.natAbs) (by omega)
    omega

/-- Two integers that are not rounded to one number are rounded to numbers in their order. -/
theorem compare_rounded {i j : Int} (h : i = j ∨ rounded i ≠ rounded j) :
    compare (rounded i) (rounded j) = compare i j := by
  rcases h with rfl | hne
  · have hself : ∀ k : Int, compare k k = .eq := fun _ => Std.ReflCmp.compare_self
    rw [hself, hself]
  · rcases lt_trichotomy i j with hlt | rfl | hgt
    · have hrounded : rounded i < rounded j := lt_of_le_of_ne (rounded_mono hlt.le) hne
      rw [compare_lt_iff_lt.mpr hlt, compare_lt_iff_lt.mpr hrounded]
    · exact absurd rfl hne
    · have hrounded : rounded j < rounded i := lt_of_le_of_ne (rounded_mono hgt.le) hne.symm
      rw [compare_gt_iff_gt.mpr hgt, compare_gt_iff_gt.mpr hrounded]

/-! ## The binary64 number of an integer -/

/-- A power of two as factor adds its exponent to the number of binary digits. -/
theorem log2_pow_mul (k : Nat) {n : Nat} (hn : n ≠ 0) : (2 ^ k * n).log2 = k + n.log2 := by
  induction k with
  | zero => rw [Nat.pow_zero, Nat.one_mul, Nat.zero_add]
  | succ k ih =>
    have hne : 2 ^ k * n ≠ 0 := Nat.mul_ne_zero (Nat.ne_of_gt (Nat.two_pow_pos k)) hn
    rw [Nat.pow_succ, Nat.mul_comm (2 ^ k) 2, Nat.mul_assoc, Nat.log2_two_mul hne, ih]
    omega

/-- The exponent of a number is the one that leaves 53 of its digits before the point. -/
theorem leastExponent_one {n : Nat} (hn : n ≠ 0) : leastExponent n 1 = n.log2 - 52 := by
  have hlog : Nat.log2 1 = 0 := by decide
  unfold leastExponent
  simp only [hlog, Nat.zero_add, Nat.one_mul]
  split
  case isTrue h =>
    have hpow : n < 2 ^ (n.log2 - 52 + 52) := h.2
    rw [Nat.sub_add_cancel (by omega)] at hpow
    exact absurd (Nat.log2_self_le hn) (Nat.not_le_of_lt hpow)
  case isFalse => rfl

/-- A significand of 53 binary digits and an exponent within range make a finite number. -/
theorem ofParts_of_normal (negative : Bool) (significand exponent : Nat)
    (hlow : 2 ^ 52 ≤ significand) (hhigh : significand < 2 ^ 53) (hexponent : exponent ≤ 2045) :
    ∃ x : Finite, ofParts negative significand exponent = .finite x ∧ x.negative = negative ∧
      x.magnitude = significand * 2 ^ exponent :=
  ⟨_, dif_pos ⟨hhigh, hexponent, .inl hlow⟩, rfl, rfl⟩

/-- A natural number has the binary64 number that it is rounded to. -/
theorem exists_ofRatio_one (negative : Bool) {n : Nat} (hn : n ≠ 0) (hlog : n.log2 ≤ 63) :
    ∃ x : Finite, ofRatio negative n 1 = .finite x ∧ x.negative = negative ∧
      x.magnitude = 2 ^ 1074 * roundedNat n := by
  unfold ofRatio
  dsimp only
  -- The unit stays a variable, for `2 ^ 1074` is not to be computed.
  obtain ⟨k, hk⟩ : ∃ k, k = 1074 := ⟨_, rfl⟩
  have hcomm : n * Nat.pow 2 k = 2 ^ k * n := Nat.mul_comm _ _
  rw [← hk, if_neg hn, hcomm]
  obtain ⟨units, hunits⟩ : ∃ units, units = 2 ^ k * n := ⟨_, rfl⟩
  have hlogUnits : units.log2 = k + n.log2 := by
    rw [hunits, log2_pow_mul k hn]
  have hne : units ≠ 0 := by
    rintro rfl
    have hzero : Nat.log2 0 = 0 := by decide
    omega
  have hstep : Nat.pow 2 (units.log2 - 52) = step units := rfl
  rw [← roundedNat_pow_mul, ← hunits, leastExponent_one hne, Nat.one_mul, roundedNat, hstep]
  obtain ⟨hlow, hhigh⟩ := roundHalfEven_step_bounds (n := units) (by omega)
  split
  case isTrue hcarry =>
    obtain ⟨x, hx, hsign, hmagnitude⟩ := ofParts_of_normal negative (2 ^ 52)
      (units.log2 - 52 + 1) (by decide) (by decide) (by omega)
    refine ⟨x, hx, hsign, ?_⟩
    calc x.magnitude = 2 ^ 52 * 2 ^ (units.log2 - 52 + 1) := hmagnitude
      _ = 2 ^ 53 * 2 ^ (units.log2 - 52) := by rw [Nat.pow_succ 2 (units.log2 - 52)]; omega
      _ = roundHalfEven units (step units) * step units := by rw [hcarry]; rfl
  case isFalse hcarry =>
    exact ofParts_of_normal negative _ _ hlow (Nat.lt_of_le_of_ne hhigh hcarry) (by omega)

/-- An integer of at most 64 digits has the binary64 number that it is rounded to. -/
theorem exists_ofInt {i : Int} (h : i.natAbs < 2 ^ 64) :
    ∃ x : Finite, ofInt i = .finite x ∧ x.scaled = 2 ^ 1074 * rounded i := by
  by_cases hi : i.natAbs = 0
  · obtain rfl : i = 0 := Int.natAbs_eq_zero.mp hi
    have hzero : rounded 0 = 0 := by decide
    exact ⟨.zero false, rfl, by rw [hzero, Int.mul_zero]; decide⟩
  · have hlog : i.natAbs.log2 ≤ 63 := Nat.le_of_lt_succ ((Nat.log2_lt hi).mpr h)
    obtain ⟨x, hx, hsign, hmagnitude⟩ := exists_ofRatio_one (decide (i < 0)) hi hlog
    refine ⟨x, hx, ?_⟩
    have hcast : (x.magnitude : Int) = 2 ^ 1074 * (roundedNat i.natAbs : Int) := by
      rw [hmagnitude, Int.natCast_mul, Int.natCast_pow]
      rfl
    rw [Finite.scaled, rounded, hsign, hcast]
    by_cases hnegative : i < 0
    · rw [if_pos (decide_eq_true hnegative), if_pos hnegative, Int.mul_neg]
    · rw [if_neg (by simp [hnegative]), if_neg hnegative]

/-- Integers of at most 64 digits are compared when they are rounded. -/
theorem compare?_ofInt {i j : Int} (hi : i.natAbs < 2 ^ 64) (hj : j.natAbs < 2 ^ 64) :
    (ofInt i).compare? (ofInt j) = some (compare (rounded i) (rounded j)) := by
  obtain ⟨x, hx, hxscaled⟩ := exists_ofInt hi
  obtain ⟨y, hy, hyscaled⟩ := exists_ofInt hj
  have hunit : (0 : Int) < 2 ^ 1074 := Int.pow_pos (by decide)
  rw [hx, hy, compare?, hxscaled, hyscaled, ← cmp_eq_compare, ← cmp_eq_compare,
    cmp_mul_pos_left hunit]

end HtmlViews.Binary64
