import HtmlViews.Engine.View
import HtmlViews.Proofs.Render.Run

/-!
# Answering requests

What a request does to the session and the log of its visitor, as equations.

A request is a computation on the visit, that is on the session and the log, which may fail. A
failure does not undo what was done before it, so each equation says what the visit is afterwards in
both cases. Renders have a call stack besides, and the equation of a render inside of a request
takes it away again.

* **Request.exec** — what a request gives, with the session and the log that it leaves.
* **Request.exec_run** — a render that is a part of a request.
* **Engine.exec_view** — the page of a template.
* **Request.exec_bind_of_ok**, **Request.exec_bind_of_error** — a step behind another one.
-/

namespace HtmlViews

namespace Request

variable {α β : Type}

/-- What a request gives for a visit, with the session and the log that it leaves. -/
def exec (x : Request α) (visit : Visit) : Except Failure α × Visit :=
  StateT.run (ExceptT.run x) visit

/-- A value alone is the result and changes nothing. -/
@[simp] theorem exec_pure (a : α) (visit : Visit) :
    (pure a : Request α).exec visit = (.ok a, visit) :=
  rfl

/-- A step on the visit is taken and cannot fail. -/
@[simp] theorem exec_lift (x : StateM Visit α) (visit : Visit) :
    (liftM x : Request α).exec visit = (.ok (x.run visit).1, (x.run visit).2) :=
  rfl

/-- A step behind one that gives a result. -/
theorem exec_bind_of_ok {x : Request α} {visit visit' : Visit} {a : α}
    (h : x.exec visit = (.ok a, visit')) (f : α → Request β) :
    (x >>= f).exec visit = (f a).exec visit' :=
  run_bind_of_ok h f

/-- A step behind one that fails is not taken. -/
theorem exec_bind_of_error {x : Request α} {visit visit' : Visit} {e : Failure}
    (h : x.exec visit = (.error e, visit')) (f : α → Request β) :
    (x >>= f).exec visit = (.error e, visit') :=
  run_bind_of_error h f

/-- A step whose result is mapped. -/
theorem exec_map (f : α → β) (x : Request α) (visit : Visit) :
    (f <$> x).exec visit = ((x.exec visit).1.map f, (x.exec visit).2) :=
  run_map f x visit

/-- A step behind two requests that come to the same. -/
theorem exec_bind_congr {x y : Request α} {visit visit' : Visit}
    (h : x.exec visit = y.exec visit') (f : α → Request β) :
    (x >>= f).exec visit = (y >>= f).exec visit' := by
  show (match x.exec visit with | (r, s) => ExceptT.bindCont f r s) = _
  rw [h]
  rfl

/-- A step behind another one gives a result only if both do. -/
theorem exec_bind_eq_ok {x : Request α} {f : α → Request β} {visit visit'' : Visit} {b : β}
    (h : (x >>= f).exec visit = (.ok b, visit'')) :
    ∃ a visit', x.exec visit = (.ok a, visit') ∧ (f a).exec visit' = (.ok b, visit'') := by
  rcases hx : x.exec visit with ⟨r, visit'⟩
  cases r with
  | error e =>
    rw [exec_bind_of_error hx] at h
    cases h
  | ok a =>
    rw [exec_bind_of_ok hx] at h
    exact ⟨a, visit', rfl, h⟩

/-- A render begins with its own call stack, of which nothing is left. -/
@[simp] theorem exec_run (stack : CallStack) (x : Render α) (visit : Visit) :
    (Render.run stack x).exec visit =
      ((x.exec ⟨visit, stack⟩).1, (x.exec ⟨visit, stack⟩).2.visit) :=
  rfl

/-- A render whose result is mapped is a request whose result is. -/
theorem run_map (stack : CallStack) (f : α → β) (x : Render α) :
    Render.run stack (f <$> x) = f <$> Render.run stack x := by
  funext visit
  show (Render.run stack (f <$> x)).exec visit = (f <$> Render.run stack x).exec visit
  rw [exec_run, exec_map, exec_run, Render.exec_map]

end Request

/-- The page of a template is what its text renders to. -/
theorem Engine.exec_view {e : Engine} {name : String} {t : Template}
    (h : e.template? name = some t) (context : Context) (visit : Visit) :
    (e.view name context).exec visit =
      (do
        let content ← Render.run (e.stack .origin name) (Render.text e context t.source.toList)
        pure ⟨content, .rendered⟩ : Request View).exec
          { visit with log := visit.log ++ [.view name] } := by
  unfold Engine.view
  rw [Request.exec_bind_of_ok (Request.exec_lift _ _), h]
  rfl

end HtmlViews
