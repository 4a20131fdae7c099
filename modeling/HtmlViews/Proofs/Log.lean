import HtmlViews.Log

/-!
# Laws of logged results

A logged result is a value with the lines that were written on the way to it. To put two of them
together is to take the value of the second and the lines of both, so the laws of monads are those
of rows of lines: the empty row makes no difference, and it does not matter how rows are grouped.

Stages that write lines are compared as computations in what follows; these laws let a proof move
what has no effect past what has one.

* Results with lines form a lawful monad.
* **Logged.value_map**, **Logged.log_map** — a result that is changed keeps its lines.
* **Logged.ext** — a logged result is its value and its lines.
-/

namespace HtmlViews.Logged

variable {α β : Type}

/-- Computations with the same value and the same lines are the same. -/
theorem ext {x y : Logged α} (hvalue : x.value = y.value) (hlog : x.log = y.log) : x = y := by
  cases x
  cases y
  cases hvalue
  cases hlog
  rfl

instance : LawfulMonad Logged :=
  .mk' Logged
    (fun x => ext rfl (List.append_nil x.log))
    (fun _ _ => ext rfl (List.nil_append _))
    (fun _ _ _ => ext rfl (List.append_assoc _ _ _))

/-- The value of a computation may be mapped. -/
@[simp] theorem value_map (f : α → β) (x : Logged α) : (f <$> x).value = f x.value :=
  rfl

/-- To map a value writes nothing. -/
@[simp] theorem log_map (f : α → β) (x : Logged α) : (f <$> x).log = x.log :=
  List.append_nil x.log

end HtmlViews.Logged
