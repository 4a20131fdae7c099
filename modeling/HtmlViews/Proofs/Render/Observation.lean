import HtmlViews.Proofs.Engine.Request
import HtmlViews.Proofs.Render.Composition
import HtmlViews.Proofs.Render.Nesting
import HtmlViews.Proofs.Render.Stages

/-!
# What a visitor can observe

The visitor of a page sees the page and, with the next requests, the session that it left. The log
is not shown, and neither are the names of the templates on the call stack. Two renders that nest as
deeply give the same page and leave the same session when they start with the same session, whatever
the logs and the call stacks say.

Two renders start with the same session and any logs, with call stacks that have the same room and
the same limit but may name other templates. Each step either does not read the log or the names, or
only writes to the log; so results and sessions stay the same, and the call stacks go on to have the
same room. For components the induction is on the room that is left.

Failures name templates, so two failures are not the same for this reason alone; that they are shown
alike is a condition where it matters (**Render.UpToLog.contain**).

* **CallStack.SameNesting** — that two call stacks nest as many components under the same limit.
* **Render.UpToLog** — that two renders give the same result and leave the same session.
* **Render.UpToLog.text**, **Render.UpToLog.component_text** — this holds of a render with itself.
* **Request.UpToLog** — the same for requests.
-/

namespace HtmlViews

/-! ## Call stacks -/

namespace CallStack

/-- Whether two call stacks nest as many components under the same limit. -/
structure SameNesting (stack stack' : CallStack) : Prop where
  depth : stack.depth = stack'.depth
  limit : stack.limit = stack'.limit

namespace SameNesting

variable {stack stack' pushed : CallStack} {name : String}

/-- A call stack nests as many components as itself. -/
theorem refl (stack : CallStack) : SameNesting stack stack :=
  ⟨rfl, rfl⟩

/-- Renders that begin nest nothing. -/
theorem start (kind kind' : FrameKind) (name name' : String) (limit : Nat)
    (h : kind ≠ .component) (h' : kind' ≠ .component) :
    SameNesting (.start kind name limit) (.start kind' name' limit) where
  depth := by simp [CallStack.start, CallStack.depth, frames, h, h']
  limit := rfl

/-- What can be entered from one can be entered from the other. -/
theorem push (h : SameNesting stack stack') (hpush : stack.push name = .ok pushed) :
    ∃ pushed', stack'.push name = .ok pushed' ∧ SameNesting pushed pushed' := by
  have hlt := (push_eq_ok_iff.mp hpush).1
  rw [h.depth, h.limit] at hlt
  have hpush' : stack'.push name = .ok _ := push_eq_ok_iff.mpr ⟨hlt, rfl⟩
  refine ⟨_, hpush', ?_, ?_⟩
  · rw [depth_of_push hpush, depth_of_push hpush', h.depth]
  · rw [limit_of_push hpush, limit_of_push hpush', h.limit]

/-- What is refused is refused with the same failure. -/
theorem push_error (h : SameNesting stack stack') {f : Failure}
    (hpush : stack.push name = .error f) : stack'.push name = .error f := by
  obtain ⟨hle, rfl⟩ := push_eq_error_iff.mp hpush
  rw [h.limit, h.depth] at hle
  rw [h.limit]
  exact push_eq_error_iff.mpr ⟨hle, rfl⟩

end SameNesting

end CallStack

/-- The steps of a pass do not read the log. -/
theorem Visit.Step.upToLog {α : Type} {x : StateM Visit α} (h : Step x) {visit visit' : Visit}
    (hsession : visit.session = visit'.session) :
    (x.run visit).1 = (x.run visit').1 ∧
      (x.run visit).2.session = (x.run visit').2.session := by
  obtain ⟨session, log⟩ := visit
  obtain ⟨session', log'⟩ := visit'
  obtain rfl : session = session' := hsession
  cases h <;> exact ⟨rfl, rfl⟩

/-! ## Renders -/

namespace Render

variable {engine : Engine} {stack stack' : CallStack} {α β : Type}

/-- Whether two renders, each with its call stack, give the same result and leave the same session
when they start with the same session. Their logs may differ. The call stacks are left as they
were. -/
def UpToLog (stack stack' : CallStack) (x y : Render α) : Prop :=
  ∀ visit visit', visit.session = visit'.session →
    ∃ r after after', x.exec ⟨visit, stack⟩ = (r, ⟨after, stack⟩) ∧
      y.exec ⟨visit', stack'⟩ = (r, ⟨after', stack'⟩) ∧ after.session = after'.session

namespace UpToLog

/-- A value alone is the same whatever the log is. -/
theorem pure (a : α) : UpToLog stack stack' (pure a) (pure a) := by
  intro visit visit' hsession
  exact ⟨.ok a, visit, visit', rfl, rfl, hsession⟩

/-- A failure is the same whatever the log is. -/
theorem throw (f : Failure) : UpToLog stack stack' (throw f : Render α) (throw f) := by
  intro visit visit' hsession
  exact ⟨.error f, visit, visit', rfl, rfl, hsession⟩

/-- Two renders in a row agree up to the log if each of them does. -/
theorem bind {x y : Render α} {f g : α → Render β} (hx : UpToLog stack stack' x y)
    (hf : ∀ a, UpToLog stack stack' (f a) (g a)) :
    UpToLog stack stack' (x >>= f) (y >>= g) := by
  intro visit visit' hsession
  obtain ⟨r, after, after', hxr, hyr, hafter⟩ := hx visit visit' hsession
  cases r with
  | error e => exact ⟨.error e, after, after', exec_bind_of_error hxr f, exec_bind_of_error hyr g,
      hafter⟩
  | ok a =>
    obtain ⟨r, last, last', hfr, hgr, hlast⟩ := hf a after after' hafter
    refine ⟨r, last, last', ?_, ?_, hlast⟩
    · rw [exec_bind_of_ok hxr, hfr]
    · rw [exec_bind_of_ok hyr, hgr]

/-- Renders that agree up to the log may be put together. -/
theorem compositional : Compositional Render (UpToLog stack stack') :=
  ⟨pure, bind⟩

/-- A step of a pass does not look at the log. -/
theorem step {x : StateM Visit α} (h : Visit.Step x) :
    UpToLog stack stack' (onVisit x) (onVisit x) := by
  intro visit visit' hsession
  obtain ⟨hresult, hafter⟩ := h.upToLog hsession
  refine ⟨.ok (x.run visit).1, _, _, exec_onVisit x _, ?_, hafter⟩
  rw [hresult]
  exact exec_onVisit x _

/-- Two failures that are shown alike cannot be told apart. -/
theorem contain {f f' : Failure}
    (h : fragment f engine.config.isDebug = fragment f' engine.config.isDebug) :
    UpToLog stack stack' (contain engine f) (contain engine f') := by
  intro visit visit' hsession
  have hshown := exec_contain engine f' ⟨visit', stack'⟩
  rw [← h] at hshown
  exact ⟨_, _, _, exec_contain engine f _, hshown, hsession⟩

/-- A result is settled alike whatever the log is. -/
theorem settle (r : Except Failure Text) :
    UpToLog stack stack' (settle engine r) (settle engine r) := by
  cases r with
  | ok s => exact pure s
  | error f =>
    by_cases hf : f.isFatal = true
    · rw [settle_of_fatal hf]
      exact throw f
    · rw [settle_of_not_fatal hf]
      exact contain rfl

variable {inner inner' : Context → Text → Render Text}

/-- A component looks the same when its template does, in every place that can be entered. -/
theorem component (hnesting : stack.SameNesting stack')
    (h : ∀ name pushed pushed', stack.push name = .ok pushed → pushed.SameNesting pushed' →
      ∀ context s, UpToLog pushed pushed' (inner context s) (inner' context s))
    (c : Component.Call) :
    UpToLog stack stack' (component engine inner c) (component engine inner' c) := by
  intro visit visit' hsession
  cases hc : engine.component? c.name with
  | none =>
    rw [exec_component_of_none hc, exec_component_of_none hc]
    exact contain rfl visit visit' hsession
  | some template =>
    cases hpush : stack.push (String.ofList (componentTemplate c.name)) with
    | error f =>
      exact ⟨.error f, visit, visit', exec_component_of_refused hc hpush,
        exec_component_of_refused hc (hnesting.push_error hpush), hsession⟩
    | ok pushed =>
      obtain ⟨pushed', hpush', hpushed⟩ := hnesting.push hpush
      -- The traces in the two lines of the log differ.
      obtain ⟨r, after, after', hr, hr', hafter⟩ :=
        h _ pushed pushed' hpush hpushed c.params template.source.toList
          { visit with log := visit.log ++ [.component (String.ofList c.name) pushed.trace] }
          { visit' with log := visit'.log ++ [.component (String.ofList c.name) pushed'.trace] }
          hsession
      have hx : (Render.component engine inner c).exec ⟨visit, stack⟩ = _ :=
        exec_component_of_entered hc hpush hr
      have hy : (Render.component engine inner' c).exec ⟨visit', stack'⟩ = _ :=
        exec_component_of_entered hc hpush' hr'
      rw [hx, hy, CallStack.pop_of_push hpush, CallStack.pop_of_push hpush']
      exact settle r after after' hafter

/-- A text looks the same from every call stack that nests as deeply: each component takes one of
the places that are left. -/
theorem text (hnesting : stack.SameNesting stack') (context : Context) (s : Text) :
    UpToLog stack stack' (text engine context s) (text engine context s) := by
  induction hroom : stack.room generalizing stack stack' context s with
  | zero =>
    rw [text_eq]
    refine compositional.pass step (component hnesting ?_) context s
    intro name pushed pushed' hpush
    have hpushed := CallStack.room_of_push hpush
    omega
  | succ room ih =>
    rw [text_eq]
    refine compositional.pass step (component hnesting ?_) context s
    intro name pushed pushed' hpush hpushed context s
    have hpushedRoom := CallStack.room_of_push hpush
    exact ih hpushed context s (by omega)

/-- A call of a component is answered alike whatever the log is. -/
theorem component_text (hnesting : stack.SameNesting stack') (c : Component.Call) :
    UpToLog stack stack' (Render.component engine (Render.text engine) c)
      (Render.component engine (Render.text engine) c) := by
  apply component hnesting
  intro name pushed pushed' hpush hpushed
  exact text hpushed

/-- The stages behind that of components do not read the call stack. -/
theorem through_stagesBehind (context : Context) (s : Text) :
    UpToLog stack stack' (through (stagesBehind engine context) s)
      (through (stagesBehind engine context) s) :=
  compositional.through_stagesBehind step context s

end UpToLog

end Render

/-! ## Requests -/

namespace Request

variable {α β : Type}

/-- Whether two requests give the same result and leave the same session when they start with the
same session. Their logs may differ. -/
def UpToLog (x y : Request α) : Prop :=
  ∀ visit visit', visit.session = visit'.session →
    (x.exec visit).1 = (y.exec visit').1 ∧
      (x.exec visit).2.session = (y.exec visit').2.session

namespace UpToLog

/-- A value alone is the same whatever the log is. -/
theorem pure (a : α) : UpToLog (pure a) (pure a) := by
  intro visit visit' hsession
  exact ⟨rfl, hsession⟩

/-- What is written to the log is not observed. -/
theorem write (entry entry' : LogEntry) :
    UpToLog (liftM (Visit.write entry)) (liftM (Visit.write entry')) := by
  intro visit visit' hsession
  exact ⟨rfl, hsession⟩

/-- Two requests in a row agree up to the log if each of them does. -/
theorem bind {x y : Request α} {f g : α → Request β} (hx : UpToLog x y)
    (hf : ∀ a, UpToLog (f a) (g a)) : UpToLog (x >>= f) (y >>= g) := by
  intro visit visit' hsession
  obtain ⟨hresult, hafter⟩ := hx visit visit' hsession
  rcases hxr : x.exec visit with ⟨r, after⟩
  rcases hyr : y.exec visit' with ⟨r', after'⟩
  rw [hxr, hyr] at hresult hafter
  obtain rfl : r = r' := hresult
  cases r with
  | error e =>
    rw [exec_bind_of_error hxr, exec_bind_of_error hyr]
    exact ⟨rfl, hafter⟩
  | ok a =>
    rw [exec_bind_of_ok hxr, exec_bind_of_ok hyr]
    exact hf a after after' hafter

/-- Renders that look the same do so as parts of requests. -/
theorem run {stack stack' : CallStack} {x y : Render α} (h : Render.UpToLog stack stack' x y) :
    UpToLog (Render.run stack x) (Render.run stack' y) := by
  intro visit visit' hsession
  obtain ⟨r, after, after', hx, hy, hafter⟩ := h visit visit' hsession
  rw [exec_run, exec_run, hx, hy]
  exact ⟨rfl, hafter⟩

/-- The pages of two templates look the same if their texts do. -/
theorem view {e : Engine} {name name' : String} {t t' : Template}
    (ht : e.template? name = some t) (ht' : e.template? name' = some t') {context : Context}
    (h : ∀ stack stack', stack.SameNesting stack' → Render.UpToLog stack stack'
      (Render.text e context t.source.toList) (Render.text e context t'.source.toList)) :
    UpToLog (e.view name context) (e.view name' context) := by
  unfold Engine.view
  rw [ht, ht']
  have hstart : (e.stack .origin name).SameNesting (e.stack .origin name') := by
    apply CallStack.SameNesting.start <;> decide
  refine bind (write _ _) fun _ => ?_
  exact bind (run (h _ _ hstart)) fun content => pure _

end UpToLog

end Request

end HtmlViews
