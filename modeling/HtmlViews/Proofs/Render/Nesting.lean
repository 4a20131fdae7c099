import HtmlViews.Proofs.Render.Composition
import HtmlViews.Proofs.Render.Run

/-!
# Nesting is bounded

Templates may call each other as components, and the calls may come from data. A render ends all the
same: each component takes one of the places that the call stack has left, and behind a component
its place is free again. For this, two ways to render what stands inside of components are compared:
if they agree wherever a component can be entered, nothing tells them apart.

A render is defined with the room of its call stack as fuel, and a text inside of a component is
rendered with one place less. To get rid of the fuel, two ways to render the inside of components
are taken as parameters of a pass: if they are alike wherever a component can be entered, the passes
are alike (**Alike.pass**). By induction on the room the watched render is alike, whatever giving up
means; so giving up is never needed, and as a special case the room may be forgotten (**text_eq**).

That a call stack comes back as it was after each component is part of the invariant, since the room
behind a component depends on it.

* **Overflow** — the failure of a component for which the call stack has no room.
* **Alike** — that two renders do the same, leave the call stack as it was, and fail in no other
  way.
* **watched** — rendering that gives up below a number of levels or above a number of frames.
* **text_eq**, **call_eq** — a render is a pass that renders what is inside of it in the same way.
* **Bounded** — that a render never has to give up.
* **nesting_bounded** — that this holds of every render.
-/

namespace HtmlViews.Render

variable {engine : Engine} {stack : CallStack} {α β : Type}

/-- The failure of a component of the engine for which a call stack has no room. -/
def Overflow (engine : Engine) (limit : Nat) (f : Failure) : Prop :=
  ∃ name template, engine.component? name = some template ∧
    f = .recursionLimit (String.ofList (componentTemplate name)) limit

/-! ## Renders that do the same -/

/-- Whether two renders do the same with a call stack, leave that stack behind in whatever way they
end, and fail only when the limit of the stack is exceeded. -/
def Alike (engine : Engine) (stack : CallStack) (x y : Render α) : Prop :=
  ∀ visit, ∃ r visit', x.exec ⟨visit, stack⟩ = (r, ⟨visit', stack⟩) ∧
    y.exec ⟨visit, stack⟩ = (r, ⟨visit', stack⟩) ∧
    ∀ f, r = .error f → Overflow engine stack.limit f

namespace Alike

/-- A value alone is the same however deep it stands. -/
theorem pure (a : α) : Alike engine stack (pure a) (pure a) := by
  intro visit
  refine ⟨.ok a, visit, exec_pure a _, exec_pure a _, ?_⟩
  intro f h
  cases h

/-- A step on the visit leaves the call stack alone. -/
theorem onVisit (x : StateM Visit α) : Alike engine stack (onVisit x) (onVisit x) := by
  intro visit
  refine ⟨.ok (x.run visit).1, (x.run visit).2, exec_onVisit x _, exec_onVisit x _, ?_⟩
  intro f h
  cases h

/-- Writing a failure to the log is no failure. -/
theorem contain (f : Failure) : Alike engine stack (contain engine f) (contain engine f) := by
  intro visit
  refine ⟨.ok (fragment f engine.config.isDebug), _, exec_contain engine f _,
    exec_contain engine f _, ?_⟩
  intro f h
  cases h

/-- Two renders in a row do the same if each of them does. -/
theorem bind {x y : Render α} {f g : α → Render β} (hx : Alike engine stack x y)
    (hf : ∀ a, Alike engine stack (f a) (g a)) : Alike engine stack (x >>= f) (y >>= g) := by
  intro visit
  obtain ⟨r, visit', hxr, hyr, hover⟩ := hx visit
  cases r with
  | error e =>
    refine ⟨.error e, visit', exec_bind_of_error hxr f, exec_bind_of_error hyr g, ?_⟩
    intro e' he
    obtain rfl := Except.error.inj he
    exact hover e rfl
  | ok a =>
    obtain ⟨r, visit'', hfr, hgr, hover⟩ := hf a visit'
    refine ⟨r, visit'', ?_, ?_, hover⟩
    · rw [exec_bind_of_ok hxr, hfr]
    · rw [exec_bind_of_ok hyr, hgr]

/-- Renders that do the same may be put together. -/
theorem compositional : Compositional Render (Alike engine stack) :=
  ⟨pure, bind⟩

/-- What follows a template is alike if the only failure is that of nesting too deeply. -/
theorem settle {r : Except Failure Text} (h : ∀ f, r = .error f → Overflow engine stack.limit f) :
    Alike engine stack (settle engine r) (settle engine r) := by
  cases r with
  | ok s => exact pure s
  | error f =>
    by_cases hf : f.isFatal = true
    · rw [settle_of_fatal hf]
      intro visit
      exact ⟨.error f, visit, exec_throw f _, exec_throw f _, h⟩
    · rw [settle_of_not_fatal hf]
      exact contain f

variable {inner inner' : Context → Text → Render Text}

/-- Components are alike when their templates are, in every place that can be entered. -/
theorem component
    (h : ∀ name pushed, stack.push name = .ok pushed →
      ∀ context s, Alike engine pushed (inner context s) (inner' context s))
    (c : Component.Call) :
    Alike engine stack (component engine inner c) (component engine inner' c) := by
  intro visit
  cases hc : engine.component? c.name with
  | none =>
    rw [exec_component_of_none hc, exec_component_of_none hc]
    exact contain _ visit
  | some template =>
    cases hpush : stack.push (String.ofList (componentTemplate c.name)) with
    | error f =>
      refine ⟨.error f, visit, exec_component_of_refused hc hpush,
        exec_component_of_refused hc hpush, ?_⟩
      intro f' hf'
      obtain rfl := Except.error.inj hf'
      exact ⟨c.name, template, hc, (CallStack.push_eq_error_iff.mp hpush).2⟩
    | ok pushed =>
      obtain ⟨r, visit', hr, hr', hover⟩ := h _ pushed hpush c.params template.source.toList
        { visit with log := visit.log ++ [.component (String.ofList c.name) pushed.trace] }
      have hx : (Render.component engine inner c).exec ⟨visit, stack⟩ = _ :=
        exec_component_of_entered hc hpush hr
      have hy : (Render.component engine inner' c).exec ⟨visit, stack⟩ = _ :=
        exec_component_of_entered hc hpush hr'
      rw [hx, hy, CallStack.pop_of_push hpush]
      refine settle ?_ visit'
      rw [← CallStack.limit_of_push hpush]
      exact hover

/-- Renders are alike when the components inside of them are. -/
theorem pass
    (h : ∀ name pushed, stack.push name = .ok pushed →
      ∀ context s, Alike engine pushed (inner context s) (inner' context s))
    (context : Context) (s : Text) :
    Alike engine stack (pass engine inner context s) (pass engine inner' context s) :=
  compositional.pass (fun _ => onVisit _) (component h) context s

end Alike

/-! ## Giving up -/

/-- A text rendered as `text` renders it, except that `giveUp` takes over below `levels` renders
inside each other, and wherever more than `frames` components are nested. The call stack grows only
where a component is entered, and what was entered is rendered at once, so no call stack of the
render goes unwatched. -/
def watched (engine : Engine) (frames : Nat) (giveUp : Context → Text → Render Text) :
    (levels : Nat) → Context → Text → Render Text
  | 0 => giveUp
  | levels + 1 => fun context s => do
    let stack ← Render.stack
    if stack.depth ≤ frames then pass engine (watched engine frames giveUp levels) context s
    else giveUp context s

variable {frames : Nat} {giveUp : Context → Text → Render Text}

/-- As long as the call stack is not too deep, the watched render takes a pass. -/
theorem exec_watched (h : stack.depth ≤ frames) (levels : Nat) (context : Context) (s : Text)
    (visit : Visit) :
    (watched engine frames giveUp (levels + 1) context s).exec ⟨visit, stack⟩ =
      (pass engine (watched engine frames giveUp levels) context s).exec ⟨visit, stack⟩ := by
  rw [watched, exec_bind_of_ok (exec_stack _), if_pos h]

/-- With a level for each place that is left on the call stack, and one more, giving up is never
necessary. -/
theorem alike_watched (hlimit : stack.limit ≤ frames) (hdepth : stack.depth ≤ frames) {levels : Nat}
    (hlevels : stack.room < levels) (context : Context) (s : Text) :
    Alike engine stack (pass engine (inside engine stack.room) context s)
      (watched engine frames giveUp levels context s) := by
  induction levels generalizing stack context s with
  | zero => exact absurd hlevels (Nat.not_lt_zero _)
  | succ levels ih =>
    intro visit
    rw [exec_watched hdepth]
    refine Alike.pass ?_ context s visit
    intro name pushed hpush context s
    -- What is inside of a component has one place less, and one level less.
    have hroom := CallStack.room_of_push hpush
    have hlimit' := CallStack.limit_of_push hpush
    rw [← hroom]
    refine ih ?_ ?_ ?_ context s
    · rw [hlimit']
      exact hlimit
    · exact Nat.le_trans (CallStack.depth_le_of_push hpush) hlimit
    · omega

/-! ## The recursion -/

/-- A text is rendered by a pass with the room that the call stack has. -/
theorem exec_text (context : Context) (s : Text) (visit : Visit) :
    (text engine context s).exec ⟨visit, stack⟩ =
      (pass engine (inside engine stack.room) context s).exec ⟨visit, stack⟩ := by
  unfold text
  rw [exec_bind_of_ok (exec_stack _)]

/-- A call is answered with the room that the call stack has. -/
theorem exec_call (c : Component.Call) (visit : Visit) :
    (call engine c).exec ⟨visit, stack⟩ =
      (component engine (inside engine stack.room) c).exec ⟨visit, stack⟩ := by
  unfold call
  rw [exec_bind_of_ok (exec_stack _)]

/-- What renders the inside of a component renders it as a text on its own. -/
theorem alike_text (context : Context) (s : Text) :
    Alike engine stack (pass engine (inside engine stack.room) context s)
      (text engine context s) := by
  intro visit
  rw [exec_text]
  have hwatched : Alike engine stack (pass engine (inside engine stack.room) context s)
      (watched engine (max stack.limit stack.depth) (fun _ _ => pure []) (stack.room + 1)
        context s) :=
    alike_watched (Nat.le_max_left _ _) (Nat.le_max_right _ _) (Nat.lt_succ_self _) context s
  obtain ⟨r, visit', hr, -, hover⟩ := hwatched visit
  exact ⟨r, visit', hr, hr, hover⟩

/-- In a component that was entered, what is rendered inside does the same as a text on its own. -/
theorem alike_inside {name : String} {pushed : CallStack} (hpush : stack.push name = .ok pushed)
    (context : Context) (s : Text) :
    Alike engine pushed (inside engine stack.room context s) (text engine context s) := by
  rw [← CallStack.room_of_push hpush]
  exact alike_text context s

/-- A text is rendered by the pass that renders the templates of its components in the same way. -/
theorem text_eq (engine : Engine) (context : Context) (s : Text) :
    text engine context s = pass engine (text engine) context s := by
  apply ext
  rintro ⟨visit, stack⟩
  have hpass : Alike engine stack (pass engine (inside engine stack.room) context s)
      (pass engine (text engine) context s) := by
    apply Alike.pass
    intro name pushed hpush
    exact alike_inside hpush
  obtain ⟨r, visit', hr, hr', -⟩ := hpass visit
  rw [exec_text, hr, hr']

/-- A component on its own is rendered like one in the page of a template. -/
theorem call_eq (engine : Engine) (c : Component.Call) :
    call engine c = component engine (text engine) c := by
  apply ext
  rintro ⟨visit, stack⟩
  have hcomponent : Alike engine stack (component engine (inside engine stack.room) c)
      (component engine (text engine) c) := by
    apply Alike.component
    intro name pushed hpush
    exact alike_inside hpush
  obtain ⟨r, visit', hr, hr', -⟩ := hcomponent visit
  rw [exec_call, hr, hr']

/-! ## Every render ends -/

/-- Whether a render with a call stack leaves that stack behind in whatever way it ends, fails only
for a component of the engine beyond the limit of the stack, and does the same when it is watched,
whatever giving up means. -/
structure Bounded (engine : Engine) (stack : CallStack) (x : Render Text)
    (watch : (giveUp : Context → Text → Render Text) → Render Text) : Prop where
  steady : ∀ visit, (x.exec ⟨visit, stack⟩).2.stack = stack
  overflow : ∀ visit f, (x.exec ⟨visit, stack⟩).1 = .error f → Overflow engine stack.limit f
  ends : ∀ giveUp visit, (watch giveUp).exec ⟨visit, stack⟩ = x.exec ⟨visit, stack⟩

/-- A render that does the same when it is watched, whatever giving up means, is bounded. -/
theorem Bounded.of_alike {x : Render Text}
    {watch : (giveUp : Context → Text → Render Text) → Render Text}
    (h : ∀ giveUp, Alike engine stack x (watch giveUp)) : Bounded engine stack x watch where
  steady visit := by
    obtain ⟨r, visit', hx, -, -⟩ := h (fun _ _ => pure []) visit
    rw [hx]
  overflow visit f hf := by
    obtain ⟨r, visit', hx, -, hover⟩ := h (fun _ _ => pure []) visit
    rw [hx] at hf
    exact hover f hf
  ends giveUp visit := by
    obtain ⟨r, visit', hx, hy, -⟩ := h giveUp visit
    rw [hx, hy]

/-- Whatever templates call each other, every render ends: the renders inside each other are no more
than the places left on the call stack and the first one, no more components are nested than the
limit allows or the call stack began with, the call stack is left as it was, and the only failure is
that of a component of the engine beyond the limit. -/
theorem nesting_bounded (engine : Engine) (first : Frame) (above : List Frame) :
    let stack : CallStack := { first, above, limit := engine.maxDepth }
    let frames := max engine.maxDepth stack.depth
    (∀ context s, text engine context s = pass engine (text engine) context s) ∧
      (∀ c, call engine c = component engine (text engine) c) ∧
      (∀ context s, Bounded engine stack (text engine context s) fun giveUp =>
        watched engine frames giveUp (stack.room + 1) context s) ∧
      ∀ c, Bounded engine stack (call engine c) fun giveUp =>
        component engine (watched engine frames giveUp stack.room) c := by
  intro stack frames
  have hlimit : stack.limit ≤ frames := Nat.le_max_left _ _
  have hdepth : stack.depth ≤ frames := Nat.le_max_right _ _
  refine ⟨text_eq engine, call_eq engine, ?_, ?_⟩
  · intro context s
    apply Bounded.of_alike
    intro giveUp visit
    rw [exec_text]
    exact alike_watched hlimit hdepth (Nat.lt_succ_self _) context s visit
  · intro c
    apply Bounded.of_alike
    intro giveUp visit
    rw [exec_call]
    refine Alike.component ?_ c visit
    intro name pushed hpush context s
    rw [← CallStack.room_of_push hpush]
    refine alike_watched ?_ ?_ (Nat.lt_succ_self _) context s
    · rw [CallStack.limit_of_push hpush]
      exact hlimit
    · exact Nat.le_trans (CallStack.depth_le_of_push hpush) hlimit

end HtmlViews.Render
