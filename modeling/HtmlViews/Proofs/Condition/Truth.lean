import HtmlViews.Condition.Eval
import HtmlViews.Proofs.Condition.Reading

/-!
# Truth values of conditions

The truth value of a condition is made of those of its parts, and that of a text is the one of the
condition that it is read as. A connective evaluates its right side only if the left side does not
decide, so an error of the right side may stay unseen. The laws of truth values that keep the
operands in their order hold all the same, also where operands have none: both sides of a law come
upon the same error, or upon no error at all.

A law between conditions follows from one between truth values
(**Expr.interchangeable_of_truth_eq**), and that is a matter of cases: the truth values of the
operands are true, false or an error each, and in every case both sides come to the same. Since the
operands of the laws stay in their order, the first error that one side comes upon is the first one
of the other side.

* **Expr.truth** — the truth value of a condition, or the error that it has instead.
* **Expr.truth_not**, **Expr.truth_and**, **Expr.truth_or** — the truth values of connectives.
* **holds_of_read** — the truth value of a text.
* **Expr.Interchangeable** — conditions that have the same truth value or the same error.
* **Expr.connectives_lawful** — the laws of De Morgan, of associativity and of distributivity.
-/

namespace HtmlViews.Condition

namespace Expr

/-- The truth value of a condition, or the error that it has instead. -/
def truth (context : Context) (e : Expr) : Except ConditionError Bool :=
  (e.eval context).map Value.truthy

section Truth

variable (context : Context) (a b : Expr)

/-- A negation has the other truth value. -/
theorem truth_not : (not a).truth context = (a.truth context).map (!·) := by
  rw [truth, truth, eval]
  cases a.eval context with
  | error e => rfl
  | ok v => rfl

/-- A conjunction has the truth value of its right side if the left side is true. -/
theorem truth_and :
    (binary .and a b).truth context = (do
      if ← a.truth context then b.truth context else pure false) := by
  rw [truth, truth, truth, eval]
  cases a.eval context with
  | error e => rfl
  | ok v =>
    simp only [bind, Except.bind, Except.map]
    cases v.truthy with
    | false => rfl
    | true => cases b.eval context <;> rfl

/-- A disjunction has the truth value of its right side if the left side is false. -/
theorem truth_or :
    (binary .or a b).truth context = (do
      if ← a.truth context then pure true else b.truth context) := by
  rw [truth, truth, truth, eval]
  cases a.eval context with
  | error e => rfl
  | ok v =>
    simp only [bind, Except.bind, Except.map]
    cases v.truthy with
    | false => cases b.eval context <;> rfl
    | true => rfl

end Truth

end Expr

/-- A text that is read has the truth value of its condition. -/
theorem holds_of_read {e : Expr} {s : Text} (h : read s = .ok e) (context : Context) :
    holds s context = e.truth context := by
  rw [holds, value, h, Expr.truth]
  show (e.eval context >>= fun v => pure v.truthy) = _
  cases e.eval context <;> rfl

namespace Expr

/-- Whether two conditions have the same truth value or the same error in every context, as they
are and in whatever way they are written. -/
structure Interchangeable (e e' : Expr) : Prop where
  truth_eq : ∀ context, e.truth context = e'.truth context
  holds_eq : ∀ context s t, e.Rendering s → e'.Rendering t → holds s context = holds t context

/-- Expressions of which one holds wherever the other does are interchangeable. -/
theorem interchangeable_of_truth_eq {e e' : Expr}
    (h : ∀ context, e.truth context = e'.truth context) : e.Interchangeable e' where
  truth_eq := h
  holds_eq context s t hs ht := by
    rw [holds_of_read (read_of_rendering hs), holds_of_read (read_of_rendering ht), h]

section Laws

variable (a b c : Expr)

-- Both sides of each law evaluate `a` first. An error of it ends them both, and if it has a truth
-- value, they go on with the same operands.

/-- The negation of a conjunction is a disjunction of negations. -/
theorem interchangeable_not_and :
    (not (binary .and a b)).Interchangeable (binary .or (not a) (not b)) := by
  apply interchangeable_of_truth_eq
  intro context
  simp only [truth_not, truth_and, truth_or]
  rcases a.truth context with e | _ | _ <;> rfl

/-- The negation of a disjunction is a conjunction of negations. -/
theorem interchangeable_not_or :
    (not (binary .or a b)).Interchangeable (binary .and (not a) (not b)) := by
  apply interchangeable_of_truth_eq
  intro context
  simp only [truth_not, truth_and, truth_or]
  rcases a.truth context with e | _ | _ <;> rfl

/-- A conjunction of three may be grouped either way. -/
theorem interchangeable_and_assoc :
    (binary .and (binary .and a b) c).Interchangeable (binary .and a (binary .and b c)) := by
  apply interchangeable_of_truth_eq
  intro context
  simp only [truth_and]
  rcases a.truth context with e | _ | _ <;> rfl

/-- A disjunction of three may be grouped either way. -/
theorem interchangeable_or_assoc :
    (binary .or (binary .or a b) c).Interchangeable (binary .or a (binary .or b c)) := by
  apply interchangeable_of_truth_eq
  intro context
  simp only [truth_or]
  rcases a.truth context with e | _ | _ <;> rfl

/-- The side that names the first operand twice evaluates it twice only if it has the truth value
that leads on. -/
theorem interchangeable_and_or :
    (binary .and a (binary .or b c)).Interchangeable
      (binary .or (binary .and a b) (binary .and a c)) := by
  apply interchangeable_of_truth_eq
  intro context
  simp only [truth_and, truth_or]
  rcases a.truth context with e | _ | _ <;> rfl

/-- A disjunction distributes over a conjunction. -/
theorem interchangeable_or_and :
    (binary .or a (binary .and b c)).Interchangeable
      (binary .and (binary .or a b) (binary .or a c)) := by
  apply interchangeable_of_truth_eq
  intro context
  simp only [truth_and, truth_or]
  rcases a.truth context with e | _ | _ <;> rfl

/-- **The connectives are lawful, also where operands have no truth value**: a negation goes over to
the operands (De Morgan), conjunctions and disjunctions are associative, and each of the two goes
over to the right operand of the other. Both sides have the same truth value or the same error, and
so the same message, in every context and in whatever way they are written. -/
theorem connectives_lawful :
    (not (binary .and a b)).Interchangeable (binary .or (not a) (not b)) ∧
    (not (binary .or a b)).Interchangeable (binary .and (not a) (not b)) ∧
    (binary .and (binary .and a b) c).Interchangeable (binary .and a (binary .and b c)) ∧
    (binary .or (binary .or a b) c).Interchangeable (binary .or a (binary .or b c)) ∧
    (binary .and a (binary .or b c)).Interchangeable
      (binary .or (binary .and a b) (binary .and a c)) ∧
    (binary .or a (binary .and b c)).Interchangeable
      (binary .and (binary .or a b) (binary .or a c)) :=
  ⟨interchangeable_not_and a b, interchangeable_not_or a b, interchangeable_and_assoc a b c,
    interchangeable_or_assoc a b c, interchangeable_and_or a b c, interchangeable_or_and a b c⟩

/-- The error of a right operand is seen if the left one leads on to it, and not otherwise. -/
example :
    let failing := binary .less (literal .null) (literal (.str "x"))
    (binary .or (not (literal (.bool true))) (not failing)).truth .empty =
        .error (.incomparable .less .null (.str "x")) ∧
      (binary .or (not (literal (.bool false))) (not failing)).truth .empty = .ok true :=
  ⟨rfl, rfl⟩

end Laws

end Expr

end HtmlViews.Condition
