import HtmlViews.Proofs.Numeric.Rounding
import HtmlViews.Proofs.Value.Order

/-!
# Comparing integers

Integers are compared as the binary64 numbers that they are rounded to. So integers of up to 53
binary digits are compared exactly; greater ones too, unless two different integers are rounded to
the same number.

All comparisons go through binary64 numbers, so what they say of two integers is what is true of the
numbers nearest to them (**Binary64.compare?_ofInt**). Rounding keeps the order, so a comparison can
only be wrong about the integers when both are rounded to one number; then it says that they are
equal. An integer can stand in a condition or in the context, which makes no difference to its
value.

* **Fits** — the integers that a value can hold.
* **Expr.IsInteger** — the operands that are integers.
* **comparison_of_integers** — what a comparison of two integers says.
-/

namespace HtmlViews.Condition

open Binary64 (rounded)

/-- Whether an integer fits into 64 bits, with a sign or without. -/
def Fits (i : Int) : Prop :=
  -9223372036854775808 ≤ i ∧ i ≤ 18446744073709551615

instance (i : Int) : Decidable (Fits i) :=
  inferInstanceAs (Decidable (_ ∧ _))

/-- Whether an operand is an integer: written in the condition, where it fits into 64 bits with a
sign, or the value of a name in the context. -/
inductive Expr.IsInteger (context : Context) : Expr → Int → Prop
  | literal {i : Int} : -9223372036854775808 ≤ i → i ≤ 9223372036854775807 →
      IsInteger context (.literal (.number (.int i))) i
  | name {name : String} {i : Int} : context.find? name = some (.number (.int i)) → Fits i →
      IsInteger context (.variable name) i

section Operands

variable {context : Context} {op : Operator} {lhs rhs : Expr} {a b : Int}

/-- An operand that is an integer is evaluated to it. -/
theorem Expr.IsInteger.eval (h : lhs.IsInteger context a) :
    lhs.eval context = .ok (.number (.int a)) := by
  cases h with
  | literal => rfl
  | name hname => rw [Expr.eval, hname]; rfl

/-- An integer that is an operand fits into 64 bits. -/
theorem Expr.IsInteger.fits (h : lhs.IsInteger context a) : Fits a := by
  cases h with
  | literal hlow hhigh => exact ⟨hlow, by omega⟩
  | name _ hfits => exact hfits

/-- Integers that fit are of 64 binary digits at most. -/
theorem Fits.natAbs_lt (h : Fits a) : a.natAbs < 2 ^ 64 := by
  obtain ⟨hlow, hhigh⟩ := h
  omega

/-- All comparisons of two integers look at the order of the numbers that they are rounded to. -/
theorem apply_integers (hop : op.Comparing) (ha : Fits a) (hb : Fits b) :
    op.apply (.number (.int a)) (.number (.int b)) =
      .ok (op.accepts (compare (rounded a) (rounded b))) := by
  have hnumbers : (Binary64.ofInt a).compare? (Binary64.ofInt b) =
      some (compare (rounded a) (rounded b)) :=
    Binary64.compare?_ofInt ha.natAbs_lt hb.natAbs_lt
  have hcompare : (Value.number (.int a)).compare (.number (.int b)) =
      .ordered (compare (rounded a) (rounded b)) := by
    rw [Value.compare_of_some rfl rfl]
    show Comparison.ofNumbers (Binary64.ofInt a) (Binary64.ofInt b) = _
    rw [Comparison.ofNumbers, hnumbers]
  have hloosely : (Value.number (.int a)).looselyEqual (.number (.int b)) =
      (compare (rounded a) (rounded b) == .eq) :=
    Value.looselyEqual_of_ordered trivial trivial hcompare
  have hidentical : (Value.number (.int a)).identical (.number (.int b)) =
      (compare (rounded a) (rounded b) == .eq) :=
    Binary64.same_of_compare? hnumbers
  cases op with
  | or => exact absurd rfl hop.1
  | and => exact absurd rfl hop.2
  | equal | notEqual => rw [Operator.apply, hloosely]; rfl
  | identical | notIdentical => rw [Operator.apply, hidentical]; rfl
  | less | lessEqual | greater | greaterEqual => exact apply_of_ordered (by decide) hcompare

/-- **A comparison of two integers says what is true of the numbers that they are rounded to, and so
what is true of the integers, unless two different ones are rounded to the same number**; up to
`2 ^ 53` no two are. The comparisons of kind and content are in the second and the third part
only. -/
theorem comparison_of_integers {s : Text} (hop : op.Comparing) (ha : lhs.IsInteger context a)
    (hb : rhs.IsInteger context b) (hs : (Expr.binary op lhs rhs).Rendering s) :
    (op ≠ .identical → op ≠ .notIdentical →
        holds s context = .ok (op.accepts (compare (rounded a) (rounded b)))) ∧
      (a = b ∨ rounded a ≠ rounded b → holds s context = .ok (op.accepts (compare a b))) ∧
      (a.natAbs ≤ 2 ^ 53 → b.natAbs ≤ 2 ^ 53 →
        holds s context = .ok (op.accepts (compare a b))) := by
  have hholds : holds s context = .ok (op.accepts (compare (rounded a) (rounded b))) := by
    rw [holds_of_rendering hop ha.eval hb.eval hs, apply_integers hop ha.fits hb.fits]
  refine ⟨fun _ _ => hholds, fun h => ?_, fun hasmall hbsmall => ?_⟩
  · rw [hholds, Binary64.compare_rounded h]
  · rw [hholds, Binary64.rounded_of_le hasmall, Binary64.rounded_of_le hbsmall]

end Operands

/-- An integer of 54 digits, which is rounded down, is found smaller than another one, which is
rounded up. -/
theorem comparison_of_integers_beyond :
    let context : Context := .ofList [("id", .number (.int 9007199254740993))]
    let lhs : Expr := .variable "id"
    let rhs : Expr := .literal (.number (.int 9007199254740995))
    let s := "$id < 9007199254740995".toList
    Operator.less.Comparing ∧ lhs.IsInteger context 9007199254740993 ∧
      rhs.IsInteger context 9007199254740995 ∧ (Expr.binary .less lhs rhs).Rendering s ∧
      holds s context = .ok true := by
  intro context lhs rhs s
  have hop : Operator.less.Comparing := by decide
  have hfind : context.find? "id" = some (.number (.int 9007199254740993)) := by
    show (Dict.empty.insert "id" _).find? "id" = _
    rw [Dict.find?_insert, if_pos rfl]
  have hlhs : lhs.IsInteger context 9007199254740993 := .name hfind (by decide)
  have hrhs : rhs.IsInteger context 9007199254740995 := .literal (by decide) (by decide)
  have hrendering : (Expr.binary .less lhs rhs).Rendering s := by
    have hname : IsName "id".toList := isName_cons rfl rfl
    have hdigits : IsDigits "9007199254740995".toList := ⟨by decide, List.all_eq_true.mp rfl⟩
    have hvalue : integerValue "9007199254740995".toList = 9007199254740995 := by decide
    exact rendering_of_atoms (.name hname) .name (.integer (.inl rfl) hdigits)
      (.integer hvalue (by decide) (by decide)) .less
  have hrounded : rounded 9007199254740993 ≠ rounded 9007199254740995 := by decide
  have hcomparison := comparison_of_integers hop hlhs hrhs hrendering
  exact ⟨hop, hlhs, hrhs, hrendering, hcomparison.2.1 (.inr hrounded)⟩

/-- No comparison says the same of all three orders. -/
theorem Operator.Comparing.accepts_ne {op : Operator} (h : op.Comparing) :
    op.accepts .eq ≠ op.accepts .lt ∨ op.accepts .eq ≠ op.accepts .gt := by
  cases op with
  | or => exact absurd rfl h.1
  | and => exact absurd rfl h.2
  | _ => decide

/-- Not one of the comparisons is right about all integers. -/
theorem not_exists_exact_comparison :
    ¬ ∃ op : Operator, op.Comparing ∧ ∀ a b : Int, Fits a → Fits b →
      outcome op (.number (.int a)) (.number (.int b)) = .ok (op.accepts (compare a b)) := by
  rintro ⟨op, hop, hexact⟩
  have hrounded : rounded 9007199254740992 = rounded 9007199254740993 := by decide
  have hself : compare (rounded 9007199254740992) (rounded 9007199254740992) = .eq :=
    Std.ReflCmp.compare_self
  have hless := hexact 9007199254740992 9007199254740993 (by decide) (by decide)
  have hgreater := hexact 9007199254740993 9007199254740992 (by decide) (by decide)
  rw [outcome_eq_apply hop, apply_integers hop (by decide) (by decide), ← hrounded, hself]
    at hless hgreater
  rcases hop.accepts_ne with hne | hne
  · exact hne (Except.ok.inj hless)
  · exact hne (Except.ok.inj hgreater)

end HtmlViews.Condition
