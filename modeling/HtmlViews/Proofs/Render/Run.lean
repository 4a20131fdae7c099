import HtmlViews.Proofs.CallStack
import HtmlViews.Render.Pass

/-!
# Running renders

What each step of a render does to the state, as equations. Behind a step that fails, a computation
with a state takes no other one.

A render is a computation on a state that may fail, and the state stays when it fails. Here it is
taken as a function from states to a result and a state, and each of its steps is described by one
equation; proofs about renders rewrite with these and do not unfold the monad. The equation for a
component brings together all that happens around its template: it is entered, a line is written,
its template is rendered, it is left, and its failure is settled.

* **run_bind_of_ok**, **run_bind_of_error** — a step behind another one.
* **Render.exec** — what a render gives, with the state that it leaves.
* **Render.exec_component_of_entered** — a component that has a template and room.
* **Render.settle** — what a component leaves for what its template gave.
-/

namespace HtmlViews

/-! ## Computations with a state that may fail -/

section Fallible

variable {ε σ α β : Type} {x : ExceptT ε (StateM σ) α} {s s' : σ}

/-- A step behind one that gives a result. -/
theorem run_bind_of_ok {a : α} (h : StateT.run (ExceptT.run x) s = (.ok a, s'))
    (f : α → ExceptT ε (StateM σ) β) :
    StateT.run (ExceptT.run (x >>= f)) s = StateT.run (ExceptT.run (f a)) s' := by
  show (match StateT.run (ExceptT.run x) s with | (r, s) => ExceptT.bindCont f r s) = _
  rw [h]
  rfl

/-- A step behind one that fails is not taken. -/
theorem run_bind_of_error {e : ε} (h : StateT.run (ExceptT.run x) s = (.error e, s'))
    (f : α → ExceptT ε (StateM σ) β) :
    StateT.run (ExceptT.run (x >>= f)) s = (.error e, s') := by
  show (match StateT.run (ExceptT.run x) s with | (r, s) => ExceptT.bindCont f r s) = _
  rw [h]
  rfl

/-- A step whose result is mapped. -/
theorem run_map (f : α → β) (x : ExceptT ε (StateM σ) α) (s : σ) :
    StateT.run (ExceptT.run (f <$> x)) s =
      ((StateT.run (ExceptT.run x) s).1.map f, (StateT.run (ExceptT.run x) s).2) := by
  rw [map_eq_pure_bind]
  rcases hx : StateT.run (ExceptT.run x) s with ⟨r, s'⟩
  cases r with
  | ok a => exact run_bind_of_ok hx _
  | error e => exact run_bind_of_error hx _

end Fallible

namespace Render

variable {α β : Type}

/-- What a render gives in a state, with the state that it leaves. -/
def exec (x : Render α) (st : RenderState) : Except Failure α × RenderState :=
  StateT.run (ExceptT.run x) st

/-- Two renders are equal when they do the same in every state. -/
theorem ext {x y : Render α} (h : ∀ st, x.exec st = y.exec st) : x = y :=
  funext h

/-! ## Steps -/

/-- A value alone is the result and changes nothing. -/
@[simp] theorem exec_pure (a : α) (st : RenderState) : (pure a : Render α).exec st = (.ok a, st) :=
  rfl

/-- A failure alone is the result and changes nothing. -/
@[simp] theorem exec_throw (f : Failure) (st : RenderState) :
    (throw f : Render α).exec st = (.error f, st) :=
  rfl

/-- A step behind one that gives a result. -/
theorem exec_bind_of_ok {x : Render α} {st st' : RenderState} {a : α} (h : x.exec st = (.ok a, st'))
    (f : α → Render β) : (x >>= f).exec st = (f a).exec st' := by
  show (match x.exec st with | (r, s) => ExceptT.bindCont f r s) = _
  rw [h]
  rfl

/-- A step behind one that fails is not taken. -/
theorem exec_bind_of_error {x : Render α} {st st' : RenderState} {e : Failure}
    (h : x.exec st = (.error e, st')) (f : α → Render β) :
    (x >>= f).exec st = (.error e, st') :=
  run_bind_of_error h f

/-- A step whose result is mapped. -/
theorem exec_map (f : α → β) (x : Render α) (st : RenderState) :
    (f <$> x).exec st = ((x.exec st).1.map f, (x.exec st).2) :=
  run_map f x st

/-- To look at the call stack changes nothing. -/
@[simp] theorem exec_stack (st : RenderState) : stack.exec st = (.ok st.stack, st) :=
  rfl

/-- A step on the visit cannot fail and leaves the call stack as it is. -/
@[simp] theorem exec_onVisit (x : StateM Visit α) (st : RenderState) :
    (onVisit x).exec st = (.ok (x.run st.visit).1, { st with visit := (x.run st.visit).2 }) :=
  rfl

/-- To leave a component shortens the call stack and cannot fail. -/
@[simp] theorem exec_leave (st : RenderState) :
    leave.exec st = (.ok (), { st with stack := st.stack.pop }) :=
  rfl

/-- The failure of a computation is a result of its outcome. -/
theorem exec_outcome {x : Render α} {st st' : RenderState} {r : Except Failure α}
    (h : x.exec st = (r, st')) : (outcome x).exec st = (.ok r, st') := by
  show (Except.ok (x.exec st).1, (x.exec st).2) = _
  rw [h]

/-- A component that there is room for is entered. -/
theorem exec_enter_of_ok {st : RenderState} {name : String} {pushed : CallStack}
    (h : st.stack.push name = .ok pushed) :
    (enter name).exec st = (.ok (), { st with stack := pushed }) := by
  unfold enter
  rw [exec_bind_of_ok (exec_stack st), h]
  rfl

/-- A component that there is no room for is refused, and nothing changes. -/
theorem exec_enter_of_error {st : RenderState} {name : String} {f : Failure}
    (h : st.stack.push name = .error f) : (enter name).exec st = (.error f, st) := by
  unfold enter
  rw [exec_bind_of_ok (exec_stack st), h]
  rfl

/-! ## Components -/

/-- What takes the place of a failure depends on nothing but the state, and only writes to the
log. -/
theorem exec_contain (engine : Engine) (f : Failure) (st : RenderState) :
    (contain engine f).exec st =
      (.ok (fragment f engine.config.isDebug),
        { st with visit.log := st.visit.log ++ [.failedIn f st.stack.current.name] }) :=
  rfl

variable {engine : Engine} {inner : Context → Text → Render Text} {c : Component.Call}

/-- The place of a component that has no template. -/
theorem exec_component_of_none (h : engine.component? c.name = none) (st : RenderState) :
    (component engine inner c).exec st =
      (contain engine (.componentNotFound (String.ofList c.name))).exec st := by
  unfold component
  rw [h]

/-- A component for which there is no room. -/
theorem exec_component_of_refused {t : Template} (h : engine.component? c.name = some t)
    {st : RenderState} {f : Failure}
    (hpush : st.stack.push (String.ofList (componentTemplate c.name)) = .error f) :
    (component engine inner c).exec st = (.error f, st) := by
  unfold component
  rw [h]
  exact exec_bind_of_error (exec_enter_of_error hpush) _

/-- What a component leaves in the page for what its template gave. -/
def settle (engine : Engine) : Except Failure Text → Render Text
  | .ok s => pure s
  | .error f => if f.isFatal then throw f else contain engine f

/-- A fatal failure goes on. -/
theorem settle_of_fatal {f : Failure} (h : f.isFatal = true) :
    settle engine (.error f) = throw f :=
  if_pos h

/-- Any other failure is shown in place. -/
theorem settle_of_not_fatal {f : Failure} (h : ¬ f.isFatal = true) :
    settle engine (.error f) = contain engine f :=
  if_neg h

/-- A component that is entered: its template is rendered with one more frame on the stack, and
behind it one frame is left. -/
theorem exec_component_of_entered {t : Template} (h : engine.component? c.name = some t)
    {st : RenderState} {pushed : CallStack}
    (hpush : st.stack.push (String.ofList (componentTemplate c.name)) = .ok pushed)
    {r : Except Failure Text} {visit : Visit} {stack : CallStack}
    (hinner : (inner c.params t.source.toList).exec
      { visit := { st.visit with
          log := st.visit.log ++ [.component (String.ofList c.name) pushed.trace] },
        stack := pushed } = (r, ⟨visit, stack⟩)) :
    (component engine inner c).exec st = (settle engine r).exec ⟨visit, stack.pop⟩ := by
  unfold component
  rw [h]
  refine (exec_bind_of_ok (exec_enter_of_ok hpush) _).trans ?_
  refine (exec_bind_of_ok (exec_stack _) _).trans ?_
  refine (exec_bind_of_ok (exec_onVisit _ _) _).trans ?_
  refine (exec_bind_of_ok (exec_outcome hinner) _).trans ?_
  refine (exec_bind_of_ok (exec_leave _) _).trans ?_
  cases r <;> rfl

end Render

end HtmlViews
