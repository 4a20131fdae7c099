import HtmlViews.Proofs.Engine.Request
import HtmlViews.Proofs.Render.Nesting

/-!
# Raising the limit

How many components may be nested matters to a render only when it fails for that reason. For this,
a render is compared with another one that has the same call stack under a higher limit: step by
step both do the same, until the first one ends with a failure that ends everything.

The comparison needs both renders to leave their call stacks as they found them, else nothing could
be said of the next step; so this is a part of **Render.Raised**. It is kept by composition. For a
component there are three cases: both are entered; the first is refused, which is fatal, so that
nothing has to be said of the second; or there is no such component. Failures that are not fatal are
shown in place by both in the same way. The induction goes along the room under the lower limit.

* **CallStack.withLimit** — a call stack under another limit.
* **Render.Raised** — that a render under a higher limit does what another one does, unless that one
  fails fatally.
* **Request.KeptBy** — that a request does what another one does whenever that one succeeds.
* **Engine.keptBy_setMaxDepth** — this holds of every request when the limit of the engine is
  raised.
-/

namespace HtmlViews

/-! ## Call stacks -/

namespace CallStack

variable {stack pushed : CallStack} {limit : Nat} {name : String}

/-- The call stack under another limit. -/
def withLimit (stack : CallStack) (limit : Nat) : CallStack :=
  { stack with limit }

/-- What can be entered can be entered under a higher limit. -/
theorem push_withLimit (hlimit : stack.limit ≤ limit) (h : stack.push name = .ok pushed) :
    (stack.withLimit limit).push name = .ok (pushed.withLimit limit) := by
  obtain ⟨hdepth, rfl⟩ := push_eq_ok_iff.mp h
  exact push_eq_ok_iff.mpr ⟨Nat.lt_of_lt_of_le hdepth hlimit, rfl⟩

/-- Under a higher limit there is no less room. -/
theorem room_le_room_withLimit (hlimit : stack.limit ≤ limit) :
    stack.room ≤ (stack.withLimit limit).room :=
  Nat.sub_le_sub_right hlimit stack.depth

end CallStack

/-! ## Renders -/

namespace Render

variable {engine : Engine} {stack : CallStack} {limit : Nat} {α β : Type}

/-- Whether a result is a failure that ends the whole render. -/
def endsAll : Except Failure α → Bool
  | .ok _ => false
  | .error f => f.isFatal

/-- Whether `y`, under a higher limit, does what `x` does unless that fails fatally, where both
leave their call stacks as they were. -/
def Raised (stack : CallStack) (limit : Nat) (x y : Render α) : Prop :=
  ∀ visit, ∃ r visit', x.exec ⟨visit, stack⟩ = (r, ⟨visit', stack⟩) ∧
    (endsAll r = false →
      y.exec ⟨visit, stack.withLimit limit⟩ = (r, ⟨visit', stack.withLimit limit⟩))

namespace Raised

/-- A value alone does not depend on the limit. -/
theorem pure (a : α) : Raised stack limit (pure a) (pure a) := by
  intro visit
  exact ⟨.ok a, visit, exec_pure a _, fun _ => exec_pure a _⟩

/-- A step on the visit does not depend on the limit. -/
theorem onVisit (x : StateM Visit α) : Raised stack limit (onVisit x) (onVisit x) := by
  intro visit
  exact ⟨.ok (x.run visit).1, (x.run visit).2, exec_onVisit x _, fun _ => exec_onVisit x _⟩

/-- Two renders in a row do the same under a higher limit if each of them does. -/
theorem bind {x y : Render α} {f g : α → Render β} (hx : Raised stack limit x y)
    (hf : ∀ a, Raised stack limit (f a) (g a)) : Raised stack limit (x >>= f) (y >>= g) := by
  intro visit
  obtain ⟨r, visit', hxr, hyr⟩ := hx visit
  cases r with
  | error e =>
    refine ⟨.error e, visit', exec_bind_of_error hxr f, ?_⟩
    intro hmild
    exact exec_bind_of_error (hyr hmild) g
  | ok a =>
    obtain ⟨r, visit'', hfr, hgr⟩ := hf a visit'
    refine ⟨r, visit'', ?_, ?_⟩
    · rw [exec_bind_of_ok hxr, hfr]
    · intro hmild
      rw [exec_bind_of_ok (hyr rfl), hgr hmild]

/-- Renders that do the same under a higher limit may be put together. -/
theorem compositional : Compositional Render (Raised stack limit) :=
  ⟨pure, bind⟩

/-- A failure is shown under every limit in the same way. -/
theorem contain (f : Failure) : Raised stack limit (contain engine f) (contain engine f) := by
  intro visit
  exact ⟨_, _, exec_contain engine f _, fun _ => exec_contain engine f _⟩

/-- What follows a template is the same under every limit. -/
theorem settle (r : Except Failure Text) :
    Raised stack limit (settle engine r) (settle engine r) := by
  cases r with
  | ok s => exact pure s
  | error f =>
    by_cases hf : f.isFatal = true
    · rw [settle_of_fatal hf]
      intro visit
      exact ⟨.error f, visit, exec_throw f _, fun _ => exec_throw f _⟩
    · rw [settle_of_not_fatal hf]
      exact contain f

/-- The failure of nesting too deeply is fatal, and nothing is said of what follows it. -/
theorem refuse (y : Render α) : Raised stack limit refuse y := by
  intro visit
  refine ⟨.error (.recursionLimit stack.current.name stack.limit), visit, rfl, ?_⟩
  intro hmild
  cases hmild

variable {inner inner' : Context → Text → Render Text}

/-- A component does the same when its template does, in every place that can be entered. -/
theorem component (hlimit : stack.limit ≤ limit)
    (h : ∀ name pushed, stack.push name = .ok pushed →
      ∀ context s, Raised pushed limit (inner context s) (inner' context s))
    (c : Component.Call) :
    Raised stack limit (component engine inner c) (component engine inner' c) := by
  intro visit
  cases hc : engine.component? c.name with
  | none =>
    rw [exec_component_of_none hc, exec_component_of_none hc]
    exact contain _ visit
  | some template =>
    cases hpush : stack.push (String.ofList (componentTemplate c.name)) with
    | error f =>
      -- The lower limit refuses the component, which ends the render; so nothing is claimed of
      -- the higher one.
      refine ⟨.error f, visit, exec_component_of_refused hc hpush, ?_⟩
      intro hmild
      obtain ⟨-, rfl⟩ := CallStack.push_eq_error_iff.mp hpush
      cases hmild
    | ok pushed =>
      have hraised := CallStack.push_withLimit hlimit hpush
      obtain ⟨r, visit', hr, hr'⟩ := h _ pushed hpush c.params template.source.toList
        { visit with log := visit.log ++ [.component (String.ofList c.name) pushed.trace] }
      have hx : (Render.component engine inner c).exec ⟨visit, stack⟩ = _ :=
        exec_component_of_entered hc hpush hr
      rw [CallStack.pop_of_push hpush] at hx
      by_cases hmild : endsAll r = false
      · have hy : (Render.component engine inner' c).exec ⟨visit, stack.withLimit limit⟩ = _ :=
          exec_component_of_entered hc hraised (hr' hmild)
        rw [hx, hy, CallStack.pop_of_push hraised]
        exact settle r visit'
      · cases r with
        | ok s => exact absurd rfl hmild
        | error f =>
          rw [settle_of_fatal (eq_true_of_ne_false hmild)] at hx
          refine ⟨.error f, visit', hx, ?_⟩
          intro h
          exact absurd h hmild

/-- Inside of components, more room changes nothing but fatal failures. -/
theorem inside {room room' : Nat} (hroom : room ≤ room') (hlimit : stack.limit ≤ limit)
    (context : Context) (s : Text) :
    Raised stack limit (inside engine room context s) (inside engine room' context s) := by
  induction room generalizing room' stack context s with
  | zero => exact refuse _
  | succ room ih =>
    obtain ⟨room', rfl⟩ := Nat.exists_eq_succ_of_ne_zero (Nat.ne_zero_of_lt hroom)
    refine compositional.pass (fun _ => onVisit _) ?_ context s
    apply component hlimit
    intro name pushed hpush context s
    apply ih (Nat.le_of_succ_le_succ hroom)
    rw [CallStack.limit_of_push hpush]
    exact hlimit

/-- A text is rendered alike under a higher limit. -/
theorem text (hlimit : stack.limit ≤ limit) (context : Context) (s : Text) :
    Raised stack limit (text engine context s) (text engine context s) := by
  intro visit
  rw [exec_text, exec_text]
  refine compositional.pass (fun _ => onVisit _) ?_ context s visit
  apply component hlimit
  intro name pushed hpush
  apply inside (CallStack.room_le_room_withLimit hlimit)
  rw [CallStack.limit_of_push hpush]
  exact hlimit

/-- A call of a component is answered alike under a higher limit. -/
theorem call (hlimit : stack.limit ≤ limit) (c : Component.Call) :
    Raised stack limit (call engine c) (call engine c) := by
  intro visit
  rw [exec_call, exec_call]
  refine component hlimit ?_ c visit
  intro name pushed hpush
  apply inside (CallStack.room_le_room_withLimit hlimit)
  rw [CallStack.limit_of_push hpush]
  exact hlimit

end Raised

end Render

/-! ## Requests -/

namespace Request

variable {α β : Type}

/-- Whether one request does what another one does whenever that one succeeds: it gives the same
result, and leaves the same session and log. -/
def KeptBy (x y : Request α) : Prop :=
  ∀ visit a visit', x.exec visit = (.ok a, visit') → y.exec visit = (.ok a, visit')

namespace KeptBy

/-- A request does what it does. -/
theorem refl (x : Request α) : x.KeptBy x := by
  intro visit a visit' h
  exact h

/-- Requests in a row are kept if each of them is. -/
theorem bind {x y : Request α} {f g : α → Request β} (hx : x.KeptBy y)
    (hf : ∀ a, (f a).KeptBy (g a)) : (x >>= f).KeptBy (y >>= g) := by
  intro visit b visit'' h
  obtain ⟨a, visit', hxa, hfb⟩ := exec_bind_eq_ok h
  rw [exec_bind_of_ok (hx visit a visit' hxa)]
  exact hf a visit' b visit'' hfb

/-- Requests that are kept may be put together. -/
theorem compositional : Compositional Request KeptBy :=
  ⟨fun _ => refl _, bind⟩

/-- A render that does the same under a higher limit does so as a part of a request. -/
theorem run {stack : CallStack} {limit : Nat} {x y : Render α} (h : Render.Raised stack limit x y) :
    (Render.run stack x).KeptBy (Render.run (stack.withLimit limit) y) := by
  intro visit a visit' hrun
  obtain ⟨r, v, hx, hy⟩ := h visit
  rw [exec_run, hx] at hrun
  obtain ⟨rfl, rfl⟩ := Prod.mk.inj hrun
  rw [exec_run, hy rfl]

end KeptBy

end Request

namespace Render

variable (e : Engine) (d : Nat)

/-- The limit of the engine plays no part in a pass: it is in the call stack. -/
theorem inside_setMaxDepth (room : Nat) : inside (e.setMaxDepth d) room = inside e room := by
  induction room with
  | zero => rfl
  | succ room ih =>
    unfold inside
    rw [ih]
    rfl

/-- How a text is rendered does not depend on the limit of the engine, only on that of the stack. -/
theorem text_setMaxDepth : text (e.setMaxDepth d) = text e := by
  funext context s
  unfold text
  simp only [inside_setMaxDepth]
  rfl

/-- Neither does how a call is answered. -/
theorem call_setMaxDepth : call (e.setMaxDepth d) = call e := by
  funext c
  unfold call
  simp only [inside_setMaxDepth]
  rfl

end Render

namespace Engine

variable {d d' : Nat}

/-- The limit of an engine does not matter to its templates. -/
theorem template?_setMaxDepth (e : Engine) (d : Nat) (name : String) :
    (e.setMaxDepth d).template? name = e.template? name :=
  rfl

/-- What a text is rendered to is kept by an engine with a higher limit. -/
theorem run_text_keptBy (e : Engine) (h : d ≤ d') (kind : FrameKind) (name : String)
    (context : Context) (s : Text) :
    (Render.run ((e.setMaxDepth d).stack kind name)
        (Render.text (e.setMaxDepth d) context s)).KeptBy
      (Render.run ((e.setMaxDepth d').stack kind name)
        (Render.text (e.setMaxDepth d') context s)) := by
  rw [Render.text_setMaxDepth, Render.text_setMaxDepth]
  have hlimit : ((e.setMaxDepth d).stack kind name).limit ≤ d' := h
  exact .run (.text hlimit context s)

/-- What a call is answered by is kept by an engine with a higher limit. -/
theorem run_call_keptBy (e : Engine) (h : d ≤ d') (kind : FrameKind) (name : String)
    (c : Component.Call) :
    (Render.run ((e.setMaxDepth d).stack kind name) (Render.call (e.setMaxDepth d) c)).KeptBy
      (Render.run ((e.setMaxDepth d').stack kind name) (Render.call (e.setMaxDepth d') c)) := by
  rw [Render.call_setMaxDepth, Render.call_setMaxDepth]
  have hlimit : ((e.setMaxDepth d).stack kind name).limit ≤ d' := h
  exact .run (.call hlimit c)

/-- A view is kept by an engine with a higher limit. -/
theorem view_keptBy (e : Engine) (h : d ≤ d') (name : String) (context : Context) :
    ((e.setMaxDepth d).view name context).KeptBy ((e.setMaxDepth d').view name context) := by
  unfold view
  refine .bind (.refl _) fun _ => ?_
  rw [template?_setMaxDepth, template?_setMaxDepth]
  cases e.template? name with
  | none => exact .refl _
  | some t => exact .bind (run_text_keptBy e h _ _ _ _) fun _ => .refl _

/-- A view in a layout is kept by an engine with a higher limit. -/
theorem inLayout_keptBy (e : Engine) (h : d ≤ d') (name : String) (context : Context) (v : View) :
    ((e.setMaxDepth d).inLayout name context v).KeptBy
      ((e.setMaxDepth d').inLayout name context v) := by
  unfold inLayout
  rw [template?_setMaxDepth, template?_setMaxDepth]
  cases e.template? name with
  | none => exact .refl _
  | some t =>
    by_cases hslot : hasSlot t.source.toList = true
    · simp only [if_pos hslot]
      refine .bind (.refl _) fun _ => ?_
      exact .bind (run_text_keptBy e h _ _ _ _) fun _ => .refl _
    · simp only [if_neg hslot]
      exact .refl _

/-- **Raising the limit of an engine changes no successful request**: the view of a template, in any
layouts, a component on its own and a text that is no template give the same result, and they leave
the same messages, errors and log, and the same number of questions for a token. -/
theorem keptBy_setMaxDepth (e : Engine) (h : d ≤ d') :
    (∀ name context, ((e.setMaxDepth d).view name context).KeptBy
      ((e.setMaxDepth d').view name context)) ∧
    (∀ name context layouts, ((e.setMaxDepth d).page name context layouts).KeptBy
      ((e.setMaxDepth d').page name context layouts)) ∧
    (∀ name context, ((e.setMaxDepth d).component name context).KeptBy
      ((e.setMaxDepth d').component name context)) ∧
    ∀ source context, ((e.setMaxDepth d).oneOff source context).KeptBy
      ((e.setMaxDepth d').oneOff source context) := by
  refine ⟨view_keptBy e h, ?_, ?_, ?_⟩
  · intro name context layouts
    refine .bind (view_keptBy e h name context) fun v => ?_
    apply Request.KeptBy.compositional.foldlM
    intro v layout
    exact inLayout_keptBy e h layout context v
  · intro name context
    exact run_call_keptBy e h _ _ _
  · intro source context
    exact run_text_keptBy e h _ _ _ _

/-- A component that shows an error, beside a token: all of it is within a limit of one. -/
theorem keptBy_setMaxDepth_component :
    let e := (empty.add "page" "a@component('b')@csrf()").add "components/b" "b: @errors('f')"
    let visit : Visit :=
      { session := { store := Store.empty.addError "f" "no", csrf := .constant "t" } }
    let x := (e.setMaxDepth 1).view "page" .empty
    let y := (e.setMaxDepth 2).view "page" .empty
    1 ≤ 2 ∧ (x.exec visit).1.toOption = some ⟨"ab: no".toList ++ csrfField "t", .rendered⟩ ∧
      y.exec visit = x.exec visit := by
  intro e visit x y
  have hone : (x.exec visit).1.toOption =
      some ⟨"ab: no".toList ++ csrfField "t", .rendered⟩ := by
    decide +kernel
  refine ⟨by decide, hone, ?_⟩
  rcases hx : x.exec visit with ⟨r, visit'⟩
  cases r with
  | error f =>
    rw [hx] at hone
    cases hone
  | ok v => exact (keptBy_setMaxDepth e (by decide)).1 _ _ _ _ _ hx

end Engine

end HtmlViews
