import HtmlViews.Render.Pass

/-!
# Views

Each function begins a call stack of its own, with the limit of the engine, and renders with the
session of the request. To put a page into a layout is a second render: the page stands in the
places of the layout as text, and the whole goes through all stages again, with the context that the
layout is given. So directives that the first render has left in the page are expanded by the
second.

A layout without a place for the page is a mistake of the template, and is shown as one; the page is
not shown then, and the layout is not rendered.

* **View** — a rendered page, which can still be put into layouts.
* **Engine.view** — the page of a template.
* **Engine.inLayout** — a page put into a layout.
* **Engine.component** — a component alone.
* **Engine.oneOff** — a text that is no template of the engine.

A template that is missing is shown as a fragment in the page. The only failure of these functions
is that of nesting components too deeply.
-/

namespace HtmlViews

/-- Whether a page went through a layout. -/
inductive ViewState where
  /-- The page is what its own template renders to. -/
  | rendered
  /-- The page was put into a layout. -/
  | layoutWrapped
deriving DecidableEq, Repr

/-- The short name of a state. -/
def ViewState.name : ViewState → String
  | .rendered => "rendered"
  | .layoutWrapped => "layout-wrapped"

/-- A rendered page. -/
structure View where
  /-- Its text. -/
  content : Text
  /-- Whether it went through a layout. -/
  state : ViewState
deriving DecidableEq, Repr

/-- The reader of the places for the page in a layout. -/
def slotReader : Reader Unit :=
  markerReader "slot".toList

/-- Whether a layout has a place for a page. -/
def hasSlot (layout : Text) : Bool :=
  (Text.pieces slotReader layout).any fun
    | .plain _ => false
    | .found _ => true

/-- A layout with a page in each of its places. -/
def fillSlots (content layout : Text) : Text :=
  Text.expand slotReader (fun _ => content) layout

namespace Engine

/-- The call stack of a render that begins. -/
def stack (e : Engine) (kind : FrameKind) (name : String) : CallStack :=
  .start kind name e.maxDepth

/-- What is shown in the place of a page that cannot be rendered; the failure is written to the
log. -/
def showFailure (e : Engine) (f : Failure) : Request Text := do
  Visit.write (.failed f)
  pure (fragment f e.config.isDebug)

/-- The page of a template. -/
def view (e : Engine) (name : String) (context : Context) : Request View := do
  Visit.write (.view name)
  let content ← match e.template? name with
    | some t => Render.run (e.stack .origin name) (Render.text e context t.source.toList)
    | none => e.showFailure (.templateNotFound name)
  pure { content, state := .rendered }

/-- The failure of a layout that has no place for a page. -/
def noSlot (name : String) : Failure :=
  .malformedDirective "layout"
    ("layout '" ++ name ++ "' has no \x7b\x7bslot\x7d\x7d marker")

/-- A page put into a layout: into each of its places, as it is. The whole is rendered again. -/
def inLayout (e : Engine) (name : String) (context : Context) (v : View) : Request View := do
  let content ← match e.template? name with
    | some t =>
      let layout := t.source.toList
      if hasSlot layout then do
        Visit.write (.layout name)
        Render.run (e.stack .layout name)
          (Render.text e context (fillSlots v.content layout))
      else e.showFailure (noSlot name)
    | none => e.showFailure (.layoutNotFound name)
  pure { content, state := .layoutWrapped }

/-- The page of a template, put into one layout after the other. -/
def page (e : Engine) (name : String) (context : Context) (layouts : List String) :
    Request View := do
  let v ← e.view name context
  layouts.foldlM (fun v layout => e.inLayout layout context v) v

/-- A component alone, with a context as its parameters. -/
def component (e : Engine) (name : String) (context : Context) : Request Text :=
  Render.run (e.stack .origin name) (Render.call e ⟨name.toList, context⟩)

/-- The name of the frame of a text that is no template. -/
def oneOffName : String :=
  "__render_str"

/-- A text that is no template of the engine, rendered. -/
def oneOff (e : Engine) (source : Text) (context : Context) : Request Text :=
  Render.run (e.stack .origin oneOffName) (Render.text e context source)

end Engine

end HtmlViews
