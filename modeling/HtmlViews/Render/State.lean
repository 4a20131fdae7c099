import HtmlViews.CallStack
import HtmlViews.Log
import HtmlViews.Session

/-!
# The state of a render

While a page is put together, its session is consumed, its log grows, and the call stack follows the
components. A failure ends the render but leaves all of that as it is at that moment.

The state stands below the failure: a computation that fails still has a state behind it, so what
was consumed stays consumed and what was written stays written, also when the failure is shown in a
page and the render goes on. The session and the log outlive a render and are those of the request;
the call stack belongs to one render and begins anew with the next.

Stages of a render work on parts of the state only, on the store, on the source of tokens, or on
nothing but the log. Each is lifted by one function, which leaves the other parts as they are.

* **Visit** — the session and the log of one request.
* **Visit.write**, **Visit.logged**, **Visit.withStore**, **Visit.withCsrf** — steps on them.
* **RenderState** — a visit with the call stack of the current render.
* **Render** — a computation on that state which may fail.
* **Render.enter**, **Render.leave** — the call stack around a component.
* **Render.run** — a render as a part of a request.
* **Render.outcome** — a result or a failure as a value, with the state behind it.
-/

namespace HtmlViews

/-! ## Visits -/

/-- What a request changes. -/
structure Visit where
  /-- What the pages of the visitor may consume. -/
  session : Session
  /-- The lines written so far, the earliest first. -/
  log : List LogEntry := []

namespace Visit

/-- Writes a line. -/
def write (entry : LogEntry) : StateM Visit Unit :=
  modify fun v => { v with log := v.log ++ [entry] }

/-- The result of a computation, whose lines are written. -/
def logged {α : Type} (x : Logged α) : StateM Visit α := fun v =>
  (x.value, { v with log := v.log ++ x.log })

/-- The result of a computation on the messages and errors of the session. -/
def withStore {α : Type} (x : StateT Store Logged α) : StateM Visit α := fun v =>
  let r := x.run v.session.store
  (r.value.1,
    { session := { v.session with store := r.value.2 }, log := v.log ++ r.log })

/-- The result of a computation on the source of tokens. -/
def withCsrf {α : Type} (x : StateM CsrfProvider α) : StateM Visit α := fun v =>
  let (a, csrf) := x.run v.session.csrf
  (a, { v with session := { v.session with csrf } })

end Visit

/-- A computation for a request. It may fail. -/
abbrev Request := ExceptT Failure (StateM Visit)

/-! ## Renders -/

/-- The state of a render. -/
structure RenderState where
  /-- The session and the log. -/
  visit : Visit
  /-- The templates that are being rendered. -/
  stack : CallStack

/-- A computation while a template is rendered. It may fail. -/
abbrev Render := ExceptT Failure (StateM RenderState)

namespace Render

/-- A step on the session and the log. -/
def onVisit {α : Type} (x : StateM Visit α) : Render α :=
  ExceptT.lift fun s =>
    let (a, visit) := x.run s.visit
    (a, { s with visit })

/-- The call stack. -/
def stack : Render CallStack :=
  RenderState.stack <$> get

/-- Enters the template of a component, unless that exceeds the limit. -/
def enter (name : String) : Render Unit := do
  match (← stack).push name with
  | .ok stack => modify fun s => { s with stack }
  | .error f => throw f

/-- Leaves the current template. -/
def leave : Render Unit :=
  modify fun s => { s with stack := s.stack.pop }

/-- The result of a computation or its failure, with the state that it leaves behind. -/
def outcome {α : Type} (x : Render α) : Render (Except Failure α) :=
  ExceptT.lift x.run

/-- Runs a render as a part of a request, with a call stack of its own. -/
def run {α : Type} (stack : CallStack) (x : Render α) : Request α :=
  ExceptT.mk fun visit =>
    let (result, s) := StateT.run (ExceptT.run x) { visit, stack }
    (result, s.visit)

end Render

end HtmlViews
