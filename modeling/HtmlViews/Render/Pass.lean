import HtmlViews.Directive.Component
import HtmlViews.Directive.Conditional
import HtmlViews.Directive.Csrf
import HtmlViews.Directive.Loop
import HtmlViews.Directive.Message
import HtmlViews.Directive.Switch
import HtmlViews.Directive.Url
import HtmlViews.Directive.Validation
import HtmlViews.Directive.Variable
import HtmlViews.Engine.Basic
import HtmlViews.Fragment
import HtmlViews.Render.State

/-!
# Rendering a template

A text is rendered in one pass of ten stages. Only the third stage, which expands components,
renders other templates; how deeply is bounded by the room that the call stack has left.

The order of the stages is part of what a page means: messages come first, so that what they show is
searched for variables; values of variables are in place before components are called, so arguments
may hold them; and what a component leaves is searched by the stages behind, like the text around
it. No stage is run a second time on the same text.

The recursion goes down with the room on the stack. A component is rendered by the same pass with
one place less, and without a place it is refused. Since entering a component is refused before
that, this last case is never reached, which is proved of the definition and not assumed in it.

* **Render.pass** — the ten stages, in their order.
* **Render.component** — a component in the place of its call.
* **Render.inside** — how the template of a component is rendered.
* **Render.text** — a text rendered with the components in it.

Every failure is contained in the component where it arises, except that of nesting too deeply,
which ends the whole render.
-/

namespace HtmlViews.Render

/-- Writes a failure to the log, and gives what is shown in its place. -/
def contain (engine : Engine) (f : Failure) : Render Text := do
  let stack ← stack
  onVisit (Visit.write (.failedIn f stack.current.name))
  pure (fragment f engine.config.isDebug)

/-- What a call of a component leaves in the page. Its template is rendered by `inner`, in a frame
of its own and with the parameters as its only context. -/
def component (engine : Engine) (inner : Context → Text → Render Text) (call : Component.Call) :
    Render Text := do
  let name := String.ofList call.name
  match engine.component? call.name with
  | none => contain engine (.componentNotFound name)
  | some template =>
    enter (String.ofList (componentTemplate call.name))
    let stack ← stack
    onVisit (Visit.write (.component name stack.trace))
    let result ← outcome (inner call.params template.source.toList)
    leave
    match result with
    | .ok s => pure s
    | .error f => if f.isFatal then throw f else contain engine f

/-- The stages of a render: messages, variables, components, loops, conditionals, switches, URLs of
public files, URLs of images, errors of form fields and tokens. Each works on the text that the one
before leaves. -/
def pass (engine : Engine) (inner : Context → Text → Render Text) (context : Context) (s : Text) :
    Render Text := do
  let s ← onVisit (Visit.withStore (Message.expand s))
  let s := Variable.substitute context s
  let s ← Component.expand (fun entry => onVisit (Visit.write entry)) (component engine inner) s
  let s := Loop.expand context s
  let s ← onVisit (Visit.logged (Conditional.expand context s))
  let s ← onVisit (Visit.logged (Switch.expand context s))
  let s := Url.expandAssets engine.config s
  let s := Url.expandImages engine.config s
  let s ← onVisit (Visit.withStore (Validation.expand s))
  onVisit (Visit.withCsrf (Csrf.expand s))

/-- The failure of a component that the call stack has no room for. -/
def refuse {α : Type} : Render α := do
  let stack ← stack
  throw (.recursionLimit stack.current.name stack.limit)

/-- How the template of a component is rendered when `room` components can be entered, that one
included. -/
def inside (engine : Engine) : (room : Nat) → Context → Text → Render Text
  | 0 => fun _ _ => refuse
  | room + 1 => pass engine (inside engine room)

/-- A text rendered with the components in it. -/
def text (engine : Engine) (context : Context) (s : Text) : Render Text := do
  let stack ← stack
  pass engine (inside engine stack.room) context s

/-- A component rendered on its own. -/
def call (engine : Engine) (c : Component.Call) : Render Text := do
  let stack ← stack
  component engine (inside engine stack.room) c

end HtmlViews.Render
