import HtmlViews.Proofs.Crash.Render
import HtmlViews.Proofs.Engine.Request

/-!
# Requests without crashing

Whatever an engine is asked for, and whatever is in its templates and in the session of its visitor,
the answer is one that cannot crash: a page, or the failure of nesting components too deeply.

A request is a render with a call stack of its own and a page around it. A crash would end the
request as it would end the render, so it is enough that renders do not crash, and that putting a
page into a layout takes no places at all.

What is said of each request is the equation of both computations, for all engines, contexts and
sessions: so a request does not only not crash, it gives the same answer and leaves the same session
and the same log as the request that cannot.

* **Engine.checkedView**, **Engine.checkedInLayout**, **Engine.checkedComponent**,
  **Engine.checkedOneOff** — the requests, each of which may crash.
* **Engine.never_crashes** — none of them does.
* **Engine.checkedPage_eq** — a page in any number of layouts.
-/

namespace HtmlViews

open Crashing

/-- Runs a render that may crash as a part of a request, with a call stack of its own. -/
def Render.checkedRun {α : Type} (stack : CallStack) (x : Crashing Render α) :
    Crashing Request α :=
  hoist (run stack) x

/-- A render that does not crash can be run without a crash. -/
theorem Render.checkedRun_safely {α : Type} (stack : CallStack) (x : Render α) :
    checkedRun stack (safely x) = safely (run stack x) :=
  hoist_safely (Request.run_map stack Except.ok x)

namespace Engine

/-! ## Requests -/

/-- The page of a template. -/
def checkedView (e : Engine) (name : String) (context : Context) : Crashing Request View := do
  safely (Visit.write (.view name))
  let content ← match e.template? name with
    | some t =>
      Render.checkedRun (e.stack .origin name) (Render.checkedText e context t.source.toList)
    | none => safely (e.showFailure (.templateNotFound name))
  pure { content, state := .rendered }

/-- A page put into a layout: into each of its places, as it is. The whole is rendered again. -/
def checkedInLayout (e : Engine) (name : String) (context : Context) (v : View) :
    Crashing Request View := do
  let content ← match e.template? name with
    | some t =>
      let layout := t.source.toList
      if hasSlot layout then do
        safely (Visit.write (.layout name))
        Render.checkedRun (e.stack .layout name)
          (Render.checkedText e context (fillSlots v.content layout))
      else safely (e.showFailure (noSlot name))
    | none => safely (e.showFailure (.layoutNotFound name))
  pure { content, state := .layoutWrapped }

/-- The page of a template, put into one layout after the other. -/
def checkedPage (e : Engine) (name : String) (context : Context) (layouts : List String) :
    Crashing Request View := do
  let v ← e.checkedView name context
  layouts.foldlM (fun v layout => e.checkedInLayout layout context v) v

/-- A component alone, with a context as its parameters. -/
def checkedComponent (e : Engine) (name : String) (context : Context) : Crashing Request Text :=
  Render.checkedRun (e.stack .origin name) (Render.checkedCall e ⟨name.toList, context⟩)

/-- A text that is no template of the engine, rendered. -/
def checkedOneOff (e : Engine) (source : Text) (context : Context) : Crashing Request Text :=
  Render.checkedRun (e.stack .origin oneOffName) (Render.checkedText e context source)

/-! ## No request crashes -/

variable (e : Engine) (context : Context)

/-- A view is rendered without a crash. -/
theorem checkedView_eq (name : String) :
    e.checkedView name context = safely (e.view name context) := by
  unfold checkedView view
  rw [safely_bind]
  refine bind_congr fun _ => ?_
  cases e.template? name with
  | some t => simp [Render.checkedText_eq, Render.checkedRun_safely]
  | none => simp

/-- A view is put into a layout without a crash. -/
theorem checkedInLayout_eq (name : String) (v : View) :
    e.checkedInLayout name context v = safely (e.inLayout name context v) := by
  unfold checkedInLayout inLayout
  cases e.template? name with
  | some t =>
    by_cases hslot : hasSlot t.source.toList = true
    · simp [hslot, Render.checkedText_eq, Render.checkedRun_safely]
    · simp [hslot]
  | none => simp

/-- A view is put into several layouts without a crash. -/
theorem checkedPage_eq (name : String) (layouts : List String) :
    e.checkedPage name context layouts = safely (e.page name context layouts) := by
  have hlayouts : ∀ v, layouts.foldlM (fun v layout => e.checkedInLayout layout context v) v =
      safely (layouts.foldlM (fun v layout => e.inLayout layout context v) v) := by
    induction layouts with
    | nil =>
      intro v
      exact (safely_pure v).symm
    | cons layout layouts ih =>
      intro v
      rw [List.foldlM_cons, List.foldlM_cons, checkedInLayout_eq, safely_bind]
      exact bind_congr ih
  simp only [checkedPage, page, checkedView_eq, hlayouts, safely_bind]

/-- A component is rendered without a crash. -/
theorem checkedComponent_eq (name : String) :
    e.checkedComponent name context = safely (e.component name context) := by
  rw [checkedComponent, Render.checkedCall_eq, Render.checkedRun_safely]
  rfl

/-- A text that is no template is rendered without a crash. -/
theorem checkedOneOff_eq (source : Text) :
    e.checkedOneOff source context = safely (e.oneOff source context) := by
  rw [checkedOneOff, Render.checkedText_eq, Render.checkedRun_safely]
  rfl

/-- **No input crashes an engine.** Whatever its templates, its settings and its limit are, in every
context and for every visitor, a text, a page, a page in a layout and a component are answered as by
computations that cannot crash at all, and so are conditions and lists of parameters. -/
theorem never_crashes :
    (∀ source, (e.checkedOneOff source context).run = Except.ok <$> e.oneOff source context) ∧
    (∀ name, (e.checkedView name context).run = Except.ok <$> e.view name context) ∧
    (∀ name v, (e.checkedInLayout name context v).run =
      Except.ok <$> e.inLayout name context v) ∧
    (∀ name layouts, (e.checkedPage name context layouts).run =
      Except.ok <$> e.page name context layouts) ∧
    (∀ name, (e.checkedComponent name context).run = Except.ok <$> e.component name context) ∧
    (∀ condition, Condition.checkedHolds condition context =
      .ok (Condition.holds condition context)) ∧
    ∀ s, Component.checkedParams s = .ok (Component.parseParams s) := by
  refine ⟨?_, ?_, ?_, ?_, ?_, ?_, ?_⟩
  · intro source
    rw [checkedOneOff_eq, run_safely]
  · intro name
    rw [checkedView_eq, run_safely]
  · intro name v
    rw [checkedInLayout_eq, run_safely]
  · intro name layouts
    rw [checkedPage_eq, run_safely]
  · intro name
    rw [checkedComponent_eq, run_safely]
  · intro condition
    exact Condition.checkedHolds_eq condition context
  · exact Component.checkedParams_eq

end Engine

end HtmlViews
