import HtmlViews.Proofs.Condition.Comparison
import HtmlViews.Proofs.Value.Sameness

/-!
# The comparisons of two values fit together

Equality and order are asked for by different operators, which look at two values each in a way of
its own. They never contradict each other: the sides can be changed with the direction of the
operator, two values have an order or none whatever operator asks for it, and between strings and
numbers that have an order exactly one of smaller, equal and greater is true.

Values are compared as numbers if both stand for numbers, and else as texts if both are strings;
otherwise they have no order. Both comparisons change with their sides, so the whole does, and the
operators read their answers off one order: an operator and its opposite with changed sides ask the
same. Which of smaller, equal and greater is true is settled by the order too, since for strings and
numbers equality across kinds asks for the same numbers, or for the same texts.

* **Value.compare_swap** — values in the other order.
* **Value.looselyEqual_of_ordered** — equality of strings and numbers is their order.
* **Condition.Agree** — what the comparisons of two values that have an order have to do with each
  other.
* **Condition.comparisons_agree** — the comparisons of any two values.
-/

namespace HtmlViews

namespace Comparison

/-- The outcome of the comparison with the sides changed. -/
def swap : Comparison → Comparison
  | .ordered o => .ordered o.swap
  | .unordered => .unordered
  | .incomparable => .incomparable

/-- To compare two numbers the other way round swaps the outcome. -/
theorem ofNumbers_swap (x y : Binary64) : ofNumbers y x = (ofNumbers x y).swap := by
  unfold ofNumbers
  rw [Binary64.compare?_swap x y]
  cases x.compare? y with
  | none => rfl
  | some o => rfl

/-- To compare two strings the other way round swaps the outcome. -/
theorem ofStrings_swap (s t : String) : ofStrings t s = (ofStrings s t).swap := by
  unfold ofStrings
  by_cases hlt : s < t
  · have hgt : ¬ t < s := String.lt_asymm hlt
    have hne : ¬ t = s := fun h => String.lt_irrefl s (h ▸ hlt)
    rw [if_neg hgt, if_neg hne, if_pos hlt]
    rfl
  · by_cases heq : s = t
    · subst heq
      rw [if_neg hlt, if_pos rfl]
      rfl
    · have hgt : t < s := by
        by_contra hgt
        exact heq (String.le_antisymm hgt hlt)
      rw [if_pos hgt, if_neg hlt, if_neg heq]
      rfl

/-- Two strings are equal if their order says so. -/
theorem eq_of_ofStrings {s t : String} {o : Ordering} (h : ofStrings s t = .ordered o) :
    decide (s = t) = (o == .eq) := by
  obtain rfl := Comparison.ordered.inj h
  split
  case isTrue hlt => exact decide_eq_false fun heq => String.lt_irrefl s (heq ▸ hlt)
  case isFalse =>
    split
    case isTrue heq => exact decide_eq_true heq
    case isFalse hne => exact decide_eq_false hne

end Comparison

namespace Value

/-- The order of two values as texts, which only strings have. -/
def compareTexts : Value → Value → Comparison
  | .str s, .str t => .ofStrings s t
  | _, _ => .incomparable

/-- To compare two values by their texts the other way round swaps the outcome. -/
theorem compareTexts_swap (x y : Value) : y.compareTexts x = (x.compareTexts y).swap := by
  cases x with
  | str s =>
    cases y with
    | str t => exact Comparison.ofStrings_swap s t
    | _ => rfl
  | _ => cases y <;> rfl

section Kinds

variable {x y : Value} {m n : Binary64}

/-- Values that stand for numbers are ordered as numbers. -/
theorem compare_of_some (hx : x.toBinary64? = some m) (hy : y.toBinary64? = some n) :
    x.compare y = .ofNumbers m n := by
  simp only [compare, hx, hy]

/-- Values of which one stands for no number are ordered as texts. -/
theorem compare_of_none (h : x.toBinary64? = none ∨ y.toBinary64? = none) :
    x.compare y = x.compareTexts y := by
  unfold compare
  split
  case h_1 m n hx hy =>
    rw [hx, hy] at h
    rcases h with h | h
    · cases h
    · cases h
  case h_2 => rfl

/-- Values that are both numbers agree if these are the same. -/
theorem agreeing_of_some (hx : x.toBinary64? = some m) (hy : y.toBinary64? = some n) :
    x.agreeing y = m.same n := by
  rw [agreeing, hx, hy]

/-- Values that are not both numbers agree if they have the same text. -/
theorem agreeing_of_none (h : x.toBinary64? = none ∨ y.toBinary64? = none) :
    x.agreeing y = decide (x.render = y.render) := by
  unfold agreeing
  split
  case h_1 m n hx hy =>
    rw [hx, hy] at h
    rcases h with h | h
    · cases h
    · cases h
  case h_2 => rfl

/-- Two values stand for numbers, or one of them does not. -/
theorem numbers_or_none (x y : Value) :
    (∃ m n, x.toBinary64? = some m ∧ y.toBinary64? = some n) ∨
      (x.toBinary64? = none ∨ y.toBinary64? = none) := by
  cases hx : x.toBinary64? with
  | none => exact .inr (.inl rfl)
  | some m =>
    cases hy : y.toBinary64? with
    | none => exact .inr (.inr rfl)
    | some n => exact .inl ⟨m, n, rfl, rfl⟩

end Kinds

/-- Changing the sides changes the order. -/
theorem compare_swap (x y : Value) : y.compare x = (x.compare y).swap := by
  rcases numbers_or_none x y with ⟨m, n, hx, hy⟩ | hnone
  · rw [compare_of_some hx hy, compare_of_some hy hx]
    exact Comparison.ofNumbers_swap m n
  · rw [compare_of_none hnone, compare_of_none hnone.symm]
    exact compareTexts_swap x y

/-- The values with a rank of their own: strings and numbers. -/
def IsRanked : Value → Prop
  | .str _ | .number _ => True
  | _ => False

/-- Strings and numbers are neither null nor truth values. -/
theorem IsRanked.isDefinite {x : Value} (h : x.IsRanked) : x.IsDefinite := by
  cases x with
  | null => exact h
  | bool b => exact h
  | _ => trivial

/-- Values that are in order as texts are strings. -/
theorem strings_of_compareTexts {x y : Value} {o : Ordering} (h : x.compareTexts y = .ordered o) :
    ∃ s t, x = .str s ∧ y = .str t := by
  unfold compareTexts at h
  split at h
  case h_1 s t => exact ⟨s, t, rfl, rfl⟩
  case h_2 => cases h

/-- Strings and numbers that have an order are equal across kinds if their order says so. -/
theorem looselyEqual_of_ordered {x y : Value} {o : Ordering} (hx : x.IsRanked) (hy : y.IsRanked)
    (h : x.compare y = .ordered o) : x.looselyEqual y = (o == .eq) := by
  rw [looselyEqual_of_isDefinite hx.isDefinite hy.isDefinite]
  rcases numbers_or_none x y with ⟨m, n, hm, hn⟩ | hnone
  · rw [compare_of_some hm hn, Comparison.ofNumbers] at h
    rw [agreeing_of_some hm hn]
    split at h
    case h_1 o' ho =>
      obtain rfl := Comparison.ordered.inj h
      exact Binary64.same_of_compare? ho
    case h_2 => cases h
  · rw [compare_of_none hnone] at h
    obtain ⟨s, t, rfl, rfl⟩ := strings_of_compareTexts h
    rw [agreeing_of_none hnone, ← Comparison.eq_of_ofStrings h]
    exact decide_eq_decide.mpr String.toList_inj

end Value

/-! ## Conditions -/

namespace Condition

/-- Whether a condition fails. -/
def Fails (op : Operator) (x y : Value) : Prop :=
  ∃ e, outcome op x y = .error e

/-- Whether a condition has a truth value. -/
def Answers (op : Operator) (x y : Value) : Prop :=
  ∃ b, outcome op x y = .ok b

/-- What the comparisons of two values have to do with each other that have an order: all of them
answer, the operators with the opposite direction answer alike on changed sides and otherwise
contradict each other, and of strings and numbers exactly one of the three orders is true. -/
structure Agree (x y : Value) : Prop where
  answers : ∀ op ∈ orderings, Answers op x y ∧ Answers op y x
  less_eq : outcome .less x y = outcome .greater y x
  lessEqual_eq : outcome .lessEqual x y = (outcome .greater x y).map (!·)
  greaterEqual_eq : outcome .greaterEqual x y = (outcome .less x y).map (!·)
  not_both : ¬ (outcome .less x y = .ok true ∧ outcome .greater x y = .ok true)
  exactly_one : x.IsRanked → y.IsRanked →
    ∃! op, op ∈ [Operator.less, .equal, .greater] ∧ outcome op x y = .ok true

/-- The conditions of two values that have an order are answered by it. -/
theorem outcome_of_ordered {op : Operator} {x y : Value} {o : Ordering} (hop : op ∈ orderings)
    (h : x.compare y = .ordered o) : outcome op x y = .ok (op.accepts o) := by
  rw [outcome_eq_apply (comparing_of_mem_orderings hop), apply_of_ordered hop h]

/-- The conditions of two values without an order fail. -/
theorem fails_of_not_ordered {op : Operator} {x y : Value} (hop : op ∈ orderings)
    (h : ∀ o, x.compare y ≠ .ordered o) : Fails op x y := by
  obtain ⟨e, he⟩ := exists_apply_eq_error hop h
  exact ⟨e, (outcome_eq_apply (comparing_of_mem_orderings hop) x y).trans he⟩

/-- An order is accepted by exactly one of these operators. -/
theorem existsUnique_accepts (o : Ordering) :
    ∃! op, op ∈ [Operator.less, .equal, .greater] ∧ op.accepts o = true := by
  have hunique : ∀ op' ∈ [Operator.less, .equal, .greater], ∀ op ∈ [Operator.less, .equal, .greater],
      op.accepts o = true → op'.accepts o = true → op' = op := by
    cases o <;> decide
  cases o with
  | lt => exact ⟨.less, by decide, fun op h => hunique op h.1 _ (by decide) rfl h.2⟩
  | eq => exact ⟨.equal, by decide, fun op h => hunique op h.1 _ (by decide) rfl h.2⟩
  | gt => exact ⟨.greater, by decide, fun op h => hunique op h.1 _ (by decide) rfl h.2⟩

/-- The comparisons of two values that have an order agree. -/
theorem agree_of_ordered {x y : Value} {o : Ordering} (h : x.compare y = .ordered o) :
    Agree x y := by
  have hswap : y.compare x = .ordered o.swap := by
    rw [Value.compare_swap x y, h]
    rfl
  have hless : outcome .less x y = .ok (o == .lt) := outcome_of_ordered (by decide) h
  have hlessEqual : outcome .lessEqual x y = .ok (o != .gt) := outcome_of_ordered (by decide) h
  have hgreater : outcome .greater x y = .ok (o == .gt) := outcome_of_ordered (by decide) h
  have hgreaterEqual : outcome .greaterEqual x y = .ok (o != .lt) :=
    outcome_of_ordered (by decide) h
  have hgreater' : outcome .greater y x = .ok (o.swap == .gt) :=
    outcome_of_ordered (by decide) hswap
  refine
    { answers := fun op hop => ⟨⟨_, outcome_of_ordered hop h⟩, ⟨_, outcome_of_ordered hop hswap⟩⟩
      less_eq := ?_
      lessEqual_eq := ?_
      greaterEqual_eq := ?_
      not_both := ?_
      exactly_one := ?_ }
  · rw [hless, hgreater']
    cases o <;> rfl
  · rw [hlessEqual, hgreater]
    rfl
  · rw [hgreaterEqual, hless]
    rfl
  · rintro ⟨hlt, hgt⟩
    rw [hless] at hlt
    rw [hgreater, eq_of_beq (Except.ok.inj hlt)] at hgt
    exact absurd (Except.ok.inj hgt) (by decide)
  · intro hx hy
    have hequal : outcome .equal x y = .ok (o == .eq) := by
      rw [outcome_eq_apply (by decide), Operator.apply, Value.looselyEqual_of_ordered hx hy h]
    have hanswer : ∀ op ∈ [Operator.less, .equal, .greater],
        outcome op x y = .ok (op.accepts o) := by
      intro op hop
      fin_cases hop
      · exact hless
      · exact hequal
      · exact hgreater
    obtain ⟨op, ⟨hop, haccepts⟩, hunique⟩ := existsUnique_accepts o
    refine ⟨op, ⟨hop, (hanswer op hop).trans (congrArg _ haccepts)⟩, ?_⟩
    rintro op' ⟨hop', htrue⟩
    rw [hanswer op' hop'] at htrue
    exact hunique op' ⟨hop', Except.ok.inj htrue⟩

/-- **The comparisons of any two values agree with each other**: equality of both kinds answers, and
alike for changed sides; and either all comparisons by order fail, in both directions, or none does
and they agree. -/
theorem comparisons_agree (x y : Value) :
    (∃ b, outcome .equal x y = .ok b ∧ outcome .equal y x = .ok b) ∧
      (∃ b, outcome .identical x y = .ok b ∧ outcome .identical y x = .ok b) ∧
      ((∀ op ∈ orderings, Fails op x y ∧ Fails op y x) ∨ Agree x y) := by
  refine ⟨⟨x.looselyEqual y, ?_, ?_⟩, ⟨x.identical y, ?_, ?_⟩, ?_⟩
  · exact outcome_eq_apply (by decide) x y
  · rw [outcome_eq_apply (by decide), Operator.apply, Value.looselyEqual_comm]
  · exact outcome_eq_apply (by decide) x y
  · rw [outcome_eq_apply (by decide), Operator.apply, Value.identical_comm]
  · by_cases h : ∃ o, x.compare y = .ordered o
    · obtain ⟨o, ho⟩ := h
      exact .inr (agree_of_ordered ho)
    · left
      have hnone : ∀ o, x.compare y ≠ .ordered o := not_exists.mp h
      have hnone' : ∀ o, y.compare x ≠ .ordered o := by
        intro o ho
        apply hnone o.swap
        rw [Value.compare_swap y x, ho]
        rfl
      exact fun op hop => ⟨fails_of_not_ordered hop hnone, fails_of_not_ordered hop hnone'⟩

end Condition

end HtmlViews
