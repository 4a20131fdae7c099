import HtmlViews.Failure

/-!
# Call stacks

While a page is rendered, a stack holds the templates that stand inside each other, so that
components cannot be nested without end.

The first frame stands apart from the others, so a stack is never empty and there is always a
current template. Only frames of components count for the limit: a layout begins a render of its
own, with a stack of its own, and what the render began with is no component of it. The refusal
names the component that was not entered and leaves the stack as it was.

To enter a component and to leave it again gives back the stack as it was, so no component can
change what stands below it.

* **Frame** — a template that is being rendered.
* **CallStack** — the frame a render began with and those of the components inside it.
* **CallStack.push** — enter a component; refused at the limit.
* **CallStack.pop** — leave the current component; the first frame stays.
* **CallStack.depth**, **CallStack.room** — how many components are nested, and how many more may
  be.
* **CallStack.trace** — the names of all frames, as the log shows them.
-/

namespace HtmlViews

/-- What a template is rendered as. -/
inductive FrameKind where
  /-- The view or the component that the render began with. -/
  | origin
  /-- A component inside of another template. -/
  | component
  /-- A layout around a rendered view. -/
  | layout
deriving DecidableEq, Repr

/-- The name of a kind of frame. -/
def FrameKind.name : FrameKind → String
  | .origin => "Origin"
  | .component => "Component"
  | .layout => "Layout"

/-- A template that is being rendered. -/
structure Frame where
  /-- What it is rendered as. -/
  kind : FrameKind
  /-- Its name. -/
  name : String
deriving DecidableEq, Repr

/-- The templates that are being rendered. There is always the one the render began with. -/
structure CallStack where
  /-- The frame that the render began with. -/
  first : Frame
  /-- The frames above it, the current one first. -/
  above : List Frame := []
  /-- How many components may be nested. -/
  limit : Nat
deriving DecidableEq, Repr

namespace CallStack

/-- The stack of a render that begins. -/
def start (kind : FrameKind) (name : String) (limit : Nat) : CallStack :=
  { first := ⟨kind, name⟩, limit }

/-- The frame of the template that is being rendered right now. -/
def current (s : CallStack) : Frame :=
  s.above.headD s.first

/-- All frames, the first one first. -/
def frames (s : CallStack) : List Frame :=
  s.first :: s.above.reverse

/-- The number of components that are nested. -/
def depth (s : CallStack) : Nat :=
  s.frames.countP fun f => f.kind = .component

/-- How many more components can be entered. -/
def room (s : CallStack) : Nat :=
  s.limit - s.depth

/-- The stack inside of a component; refused when as many components are nested as the limit
allows. -/
def push (s : CallStack) (name : String) : Except Failure CallStack :=
  if s.limit ≤ s.depth then .error (.recursionLimit name s.limit)
  else .ok { s with above := ⟨.component, name⟩ :: s.above }

/-- The stack behind the current component. The first frame stays. -/
def pop (s : CallStack) : CallStack :=
  { s with above := s.above.tail }

/-- The names of the templates, from the first to the current one. -/
def trace (s : CallStack) : String :=
  " > ".intercalate (s.frames.map Frame.name)

end CallStack

end HtmlViews
