import HtmlViews.Proofs.Crash.Component
import HtmlViews.Proofs.Crash.Conditional
import HtmlViews.Proofs.Crash.Switch
import HtmlViews.Proofs.Render.Run
import HtmlViews.Proofs.Render.Stages

/-!
# Rendering without crashing

A render goes through its stages, each of which may crash, and from a component into its template.
A crash is no failure: no component contains it, and it would end the render and the request.

Each stage of a pass is safe by its own module, and the stages are put together in their order. What
remains is the stage of components, whose templates are rendered in turn: its proof goes by
induction on the room that the call stack has left, as renders do themselves. The frame that names
the template in messages of the log is always there, because the frame of the page is never left.

* **Crashing.hoist** — a computation that may crash as a part of a larger one.
* **CallStack.checkedCurrent_eq** — there always is a current frame.
* **Render.checkedPass_eq** — a pass does not crash if the templates of components do not.
* **Render.checkedInside_eq** — no template of a component crashes, at any depth.
* **Render.checkedText_eq** — no text crashes.
-/

namespace HtmlViews

namespace Crashing

variable {m n : Type → Type} [Monad m] [Monad n] {α : Type}

/-- A computation that may crash as a part of a larger one, which it makes crash. -/
def hoist (lift : m (Except Crash α) → n (Except Crash α)) (x : Crashing m α) : Crashing n α :=
  ExceptT.mk (lift x.run)

/-- What cannot crash is a part that cannot crash. -/
theorem hoist_safely {lift : m (Except Crash α) → n (Except Crash α)} {x : m α} {y : n α}
    (h : lift (Except.ok <$> x) = Except.ok <$> y) : hoist lift (safely x) = safely y :=
  ExceptT.ext h

end Crashing

/-! ## The call stack -/

/-- The current frame: the last one, which has to be there. -/
def CallStack.checkedCurrent (s : CallStack) : Checked Frame := do
  let last ← Checked.minus s.frames.length 1
  Checked.unwrap s.frames[last]?

/-- There always is a current frame. -/
theorem CallStack.checkedCurrent_eq (s : CallStack) : s.checkedCurrent = .ok s.current := by
  obtain ⟨first, above, limit⟩ := s
  have hlength : (CallStack.frames ⟨first, above, limit⟩).length = above.length + 1 := by
    simp [frames]
  have hlast : (CallStack.frames ⟨first, above, limit⟩)[above.length]? =
      some (CallStack.current ⟨first, above, limit⟩) := by
    cases above with
    | nil => rfl
    | cons f above => simp [frames, current]
  rw [checkedCurrent, hlength, Checked.minus_of_le (Nat.le_add_left _ _)]
  show Checked.unwrap (CallStack.frames ⟨first, above, limit⟩)[above.length]? = _
  rw [hlast]
  rfl

namespace Render

open Crashing

/-! ## Components -/

/-- The result of a computation or its failure, with the state that it leaves behind. A crash is
neither. -/
def checkedOutcome {α : Type} (x : Crashing Render α) : Crashing Render (Except Failure α) :=
  ExceptT.mk do
    match ← outcome x.run with
    | .ok (.ok a) => pure (.ok (.ok a))
    | .ok (.error crash) => pure (.error crash)
    | .error f => pure (.ok (.error f))

/-- The outcome of a render that does not crash. -/
theorem checkedOutcome_safely {α : Type} (x : Render α) :
    checkedOutcome (safely x) = safely (outcome x) := by
  apply ExceptT.ext
  apply Render.ext
  intro st
  rcases hx : x.exec st with ⟨r, st'⟩
  have hlifted : (Except.ok (ε := Crash) <$> x).exec st = (r.map Except.ok, st') := by
    rw [exec_map, hx]
  have hright : (Except.ok (ε := Crash) <$> outcome x).exec st = (.ok (.ok r), st') := by
    rw [exec_map, exec_outcome hx]
    rfl
  refine Eq.trans ?_ hright.symm
  refine (exec_bind_of_ok (exec_outcome hlifted) _).trans ?_
  cases r <;> rfl

/-- Writes a failure to the log, and gives what is shown in its place. -/
def checkedContain (engine : Engine) (f : Failure) : Crashing Render Text := do
  let stack ← safely stack
  let frame ← check stack.checkedCurrent
  safely (onVisit (Visit.write (.failedIn f frame.name)))
  pure (fragment f engine.config.isDebug)

/-- A failure is shown in place without a crash. -/
theorem checkedContain_eq (engine : Engine) (f : Failure) :
    checkedContain engine f = safely (contain engine f) := by
  simp only [checkedContain, CallStack.checkedCurrent_eq, check_ok, pure_bind, contain,
    safely_bind, safely_pure]

/-- What a call of a component leaves in the page. -/
def checkedComponent (engine : Engine) (inner : Context → Text → Crashing Render Text)
    (call : Component.Call) : Crashing Render Text := do
  let name := String.ofList call.name
  match engine.component? call.name with
  | none => checkedContain engine (.componentNotFound name)
  | some template =>
    safely (enter (String.ofList (componentTemplate call.name)))
    let stack ← safely stack
    safely (onVisit (Visit.write (.component name stack.trace)))
    let result ← checkedOutcome (inner call.params template.source.toList)
    safely leave
    match result with
    | .ok s => pure s
    | .error f => if f.isFatal then safely (throw f) else checkedContain engine f

variable {engine : Engine} {inner : Context → Text → Render Text}
  {checkedInner : Context → Text → Crashing Render Text}

/-- A component does not crash if its template does not. -/
theorem checkedComponent_eq (h : ∀ context s, checkedInner context s = safely (inner context s))
    (call : Component.Call) :
    checkedComponent engine checkedInner call = safely (component engine inner call) := by
  unfold checkedComponent component
  cases engine.component? call.name with
  | none => exact checkedContain_eq engine _
  | some template =>
    simp only [h, checkedOutcome_safely, safely_bind]
    refine bind_congr fun _ => bind_congr fun stack => bind_congr fun _ =>
      bind_congr fun result => bind_congr fun _ => ?_
    cases result with
    | ok s => exact (safely_pure s).symm
    | error f =>
      by_cases hfatal : f.isFatal = true
      · simp only [if_pos hfatal]
      · simp only [if_neg hfatal, checkedContain_eq]

/-! ## Passes -/

/-- A stage on the session and the log. -/
def checkedOnStore (x : Crashing (StateT Store Logged) Text) : Crashing Render Text :=
  hoist (fun x => onVisit (Visit.withStore x)) x

/-- A stage that writes to the log. -/
def checkedLogged (x : Crashing Logged Text) : Crashing Render Text :=
  hoist (fun x => onVisit (Visit.logged x)) x

/-- A stage that works on the store, as a step of a render. -/
theorem checkedOnStore_safely (x : StateT Store Logged Text) :
    checkedOnStore (safely x) = safely (onVisit (Visit.withStore x)) := by
  apply hoist_safely
  rw [Visit.withStore_map, onVisit_map]

/-- A stage that only writes lines, as a step of a render. -/
theorem checkedLogged_safely (x : Logged Text) :
    checkedLogged (safely x) = safely (onVisit (Visit.logged x)) := by
  apply hoist_safely
  rw [Visit.logged_map, onVisit_map]

/-- The stages of a render, in their order. -/
def checkedPass (engine : Engine) (inner : Context → Text → Crashing Render Text)
    (context : Context) (s : Text) : Crashing Render Text := do
  let s ← checkedOnStore (Message.checkedExpand s)
  let s ← Variable.checkedSubstitute context s
  let s ← Component.checkedExpand (fun entry => onVisit (Visit.write entry))
    (checkedComponent engine inner) s
  let s ← Loop.checkedExpand context s
  let s ← checkedLogged (Conditional.checkedExpand context s)
  let s ← checkedLogged (Switch.checkedExpand context s)
  let s ← Url.checkedExpand "@assets(".toList engine.config.baseUrl engine.config.publicPath s
  let s ← Url.checkedExpand "@images(".toList engine.config.baseUrl engine.config.imagesPath s
  let s ← checkedOnStore (Validation.checkedExpand s)
  safely (onVisit (Visit.withCsrf (Csrf.expand s)))

/-- A pass does not crash if the templates of components do not. -/
theorem checkedPass_eq (h : ∀ context s, checkedInner context s = safely (inner context s))
    (context : Context) (s : Text) :
    checkedPass engine checkedInner context s = safely (pass engine inner context s) := by
  simp only [checkedPass, pass, Message.checkedExpand_eq, checkedOnStore_safely,
    Variable.checkedSubstitute_eq, Component.checkedExpand_eq (checkedComponent_eq h),
    Loop.checkedExpand_eq, Conditional.checkedExpand_eq, Switch.checkedExpand_eq,
    checkedLogged_safely, Url.checkedExpand_eq, Validation.checkedExpand_eq, pure_bind, safely_bind]
  rfl

/-- How the template of a component is rendered when `room` components can be entered, that one
included. -/
def checkedInside (engine : Engine) : (room : Nat) → Context → Text → Crashing Render Text
  | 0 => fun _ _ => safely refuse
  | room + 1 => checkedPass engine (checkedInside engine room)

/-- No template of a component crashes, however deeply components are nested. -/
theorem checkedInside_eq (engine : Engine) (room : Nat) (context : Context) (s : Text) :
    checkedInside engine room context s = safely (inside engine room context s) := by
  induction room generalizing context s with
  | zero => rfl
  | succ room ih => exact checkedPass_eq ih context s

/-- A text rendered with the components in it. -/
def checkedText (engine : Engine) (context : Context) (s : Text) : Crashing Render Text := do
  let stack ← safely stack
  checkedPass engine (checkedInside engine stack.room) context s

/-- A text is rendered without a crash. -/
theorem checkedText_eq (engine : Engine) (context : Context) (s : Text) :
    checkedText engine context s = safely (text engine context s) := by
  rw [checkedText, text, safely_bind]
  refine bind_congr fun stack => ?_
  exact checkedPass_eq (checkedInside_eq engine stack.room) context s

/-- A component rendered on its own. -/
def checkedCall (engine : Engine) (c : Component.Call) : Crashing Render Text := do
  let stack ← safely stack
  checkedComponent engine (checkedInside engine stack.room) c

/-- A call of a component is answered without a crash. -/
theorem checkedCall_eq (engine : Engine) (c : Component.Call) :
    checkedCall engine c = safely (call engine c) := by
  rw [checkedCall, call, safely_bind]
  refine bind_congr fun stack => ?_
  exact checkedComponent_eq (checkedInside_eq engine stack.room) c

end Render

end HtmlViews
