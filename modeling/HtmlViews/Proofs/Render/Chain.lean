import HtmlViews.Proofs.Render.Calls
import HtmlViews.Proofs.Render.Literal
import Mathlib.Data.ENat.Basic

/-!
# Chains of components

A component shows a text and calls another one behind it, which does the same, and so on. Such a
chain may come to an end or go on without one, for instance when components call each other in turn.
Each component takes one place on the call stack before it is rendered, so the limit tells exactly
how long a chain can be, and the first component for which there is no place is the one that is
named.

The induction is on the number of components that there is still room for. A component of the chain
shows its text and then what the next one gives (**Chain.exec_component_of_next**), so what it shows
with all that are behind it is the texts of these in a row; and if the next one is refused, the
failure ends the render, and each component around it passes it on
(**Chain.exec_component_of_next_error**). The stages behind that of components find nothing in what
the chain shows, since the texts of the components have no sign that a directive begins with.

A chain is given by a function from numbers to calls, with a length that may be infinite; so
components that call each other in turn are a chain like any other.

* **Component.CalledIn** — a text that is a call once the values of a context are put in.
* **Component.Leads** — what a component shows, and which call it makes behind that.
* **Chain** — components of an engine that lead from one to the next.
* **Chain.exec_component_within**, **Chain.exec_component_beyond** — a component of a chain, where
  there is room for the rest of the chain, and where there is none.
* **Engine.chain_limited** — what a page shows that calls the first component of a chain.
-/

namespace HtmlViews

/-! ## Links -/

namespace Component

/-- Whether a text becomes the call `c`, and nothing else, when the values of a context are put in;
no message begins in it. -/
structure CalledIn (context : Context) (w : Text) (c : Call) : Prop where
  messages : Passes Message.reader.read w []
  read : reader.read (Variable.substitute context w) = some (.call c, [])

/-- What is a call as it stands is one in every context. -/
theorem IsCall.calledIn {w : Text} {c : Call} (h : IsCall w c) (context : Context) :
    CalledIn context w c where
  messages := h.messages []
  read := by
    have hvalues : Variable.substitute context w = w := Text.expand_of_passes (h.placeholders []) _
    have hread : Found.read? (w ++ []) = some (.call c, []) := h.read []
    rwa [List.append_nil, ← hvalues] at hread

/-- Whether the component of a call shows the text `t` and makes the call `next` behind it, or makes
no call at all. -/
inductive Leads (e : Engine) (c : Call) (t : Text) : (next : Option Call) → Prop
  | call {template : Template} {w : Text} {next : Call}
      (hloaded : e.component? c.name = some template)
      (hsource : template.source.toList = t ++ w) (hcall : CalledIn c.params w next) :
      Leads e c t (some next)
  | stop {template : Template} (hloaded : e.component? c.name = some template)
      (hsource : template.source.toList = t) : Leads e c t none

/-- A component that calls another one by its name alone leads to it. -/
theorem Leads.naming {e : Engine} {name next t : Text} {template : Template}
    (hloaded : e.component? name = some template)
    (hsource : template.source.toList = t ++ Component.naming next) (hne : next ≠ [])
    (hnext : ∀ c ∈ next, isNamePart c = true) (params : Context) :
    Leads e ⟨name, params⟩ t (some ⟨next, .empty⟩) :=
  .call hloaded hsource ((isCall_naming hne hnext).calledIn params)

/-- A component that leads on is loaded. -/
theorem Leads.loaded {e : Engine} {c : Call} {t : Text} {next : Option Call}
    (h : Leads e c t next) : ∃ template, e.component? c.name = some template := by
  cases h with
  | call hloaded => exact ⟨_, hloaded⟩
  | stop hloaded => exact ⟨_, hloaded⟩

end Component

namespace Render

variable {t : Text}

/-- A literal text is rendered as it is. -/
theorem text_literal (hat : '@' ∉ t) (hbrace : '{' ∉ t) (engine : Engine) (context : Context) :
    text engine context t = pure t := by
  have happend := text_append hat hbrace engine context []
  rwa [List.append_nil, text_nil, map_pure, List.append_nil] at happend

/-- A call behind a literal text shows its component there, taken through the stages behind. -/
theorem text_calledIn (hat : '@' ∉ t) (hbrace : '{' ∉ t) {context : Context} {w : Text}
    {c : Component.Call} (hcall : Component.CalledIn context w c) (engine : Engine) :
    text engine context (t ++ w) = (t ++ ·) <$> (do
      let shown ← component engine (text engine) c
      through (stagesBehind engine context) shown) := by
  rw [text_append hat hbrace, text_of_substitute hcall.messages rfl hcall.read]

end Render

/-! ## Entering a component -/

/-- A state with another log. -/
def RenderState.withLog (st : RenderState) (log : List LogEntry) : RenderState :=
  { st with visit.log := log }

/-- The state in which the template of a component is rendered, where there is room for it. -/
def RenderState.entered (st : RenderState) (c : Component.Call) : RenderState :=
  let pushed : CallStack := { st.stack with
    above := ⟨.component, String.ofList (componentTemplate c.name)⟩ :: st.stack.above }
  { visit.session := st.visit.session
    visit.log := st.visit.log ++ [.component (String.ofList c.name) pushed.trace]
    stack := pushed }

namespace Render

variable {engine : Engine} {c : Component.Call} {st : RenderState}

/-- Where there is room, the component is entered. -/
theorem push_of_room (hroom : st.stack.depth < st.stack.limit) :
    st.stack.push (String.ofList (componentTemplate c.name)) = .ok (st.entered c).stack :=
  CallStack.push_eq_ok_iff.mpr ⟨hroom, rfl⟩

/-- A component that is entered takes one place. -/
theorem depth_entered (hroom : st.stack.depth < st.stack.limit) :
    (st.entered c).stack.depth = st.stack.depth + 1 :=
  CallStack.depth_of_push (push_of_room hroom)

/-- In the component the limit is the same. -/
theorem limit_entered : (st.entered c).stack.limit = st.stack.limit :=
  rfl

/-- A component that fits on the call stack does what its template does with one more frame. -/
theorem exec_component_of_room {inner : Context → Text → Render Text} {template : Template}
    (hloaded : engine.component? c.name = some template)
    (hroom : st.stack.depth < st.stack.limit) {r : Except Failure Text} {log : List LogEntry}
    (hinner : (inner c.params template.source.toList).exec (st.entered c) =
      (r, (st.entered c).withLog log)) :
    (component engine inner c).exec st = (settle engine r).exec (st.withLog log) :=
  exec_component_of_entered hloaded (push_of_room hroom) hinner

end Render

/-! ## Chains -/

/-- Components of an engine that lead from one to the next. A component may come more than once. -/
structure Chain (e : Engine) where
  /-- The number of components, which need not be finite. -/
  length : ℕ∞
  /-- The calls of the components. -/
  call : ℕ → Component.Call
  /-- The texts that the components show. -/
  shown : ℕ → Text
  length_pos : 0 < length
  leads : ∀ i : ℕ, (i + 1 : ℕ) < length →
    Component.Leads e (call i) (shown i) (some (call (i + 1)))
  stops : ∀ i : ℕ, length = (i + 1 : ℕ) → Component.Leads e (call i) (shown i) none
  literal : ∀ i : ℕ, i < length → '@' ∉ shown i ∧ '{' ∉ shown i

namespace Chain

variable {e : Engine} (chain : Chain e) {i : ℕ}

/-- What `n` components of a chain show, from the component `i` on. -/
def textFrom (i n : ℕ) : Text :=
  (List.range' i n).flatMap chain.shown

/-- What the first `n` components of a chain show. -/
def text (n : ℕ) : Text :=
  chain.textFrom 0 n

/-- The failure of a component of a chain for which there is no room. -/
def refused (i limit : ℕ) : Failure :=
  .recursionLimit (String.ofList (componentTemplate (chain.call i).name)) limit

/-- What components show from one on is what this one shows, and what the others show. -/
theorem textFrom_succ (i n : ℕ) :
    chain.textFrom i (n + 1) = chain.shown i ++ chain.textFrom (i + 1) n := by
  rw [textFrom, List.range'_succ, List.flatMap_cons, textFrom]

/-- What components show that lead on has no sign in it that a directive begins with. -/
theorem at_not_mem_textFrom {n : ℕ} (h : (i + n : ℕ) ≤ chain.length) :
    '@' ∉ chain.textFrom i n := by
  intro hmem
  obtain ⟨j, hj, hat⟩ := List.mem_flatMap.mp hmem
  have hlt : j < i + n := (List.mem_range'_1.mp hj).2
  exact (chain.literal j (lt_of_lt_of_le (Nat.cast_lt.mpr hlt) h)).1 hat

/-- What a component shows that leads on has no sign in it that anything begins with. -/
theorem literal_of_next (h : (i + 1 : ℕ) < chain.length) :
    '@' ∉ chain.shown i ∧ '{' ∉ chain.shown i :=
  chain.literal i (lt_of_le_of_lt (Nat.cast_le.mpr (Nat.le_succ i)) h)

/-- The components of a chain are components of the engine. -/
theorem loaded (h : i < chain.length) :
    ∃ template, e.component? (chain.call i).name = some template := by
  have hle : ((i + 1 : ℕ) : ℕ∞) ≤ chain.length := by
    rw [Nat.cast_add, Nat.cast_one]
    exact Order.add_one_le_of_lt h
  rcases hle.lt_or_eq with hlt | heq
  · exact (chain.leads i hlt).loaded
  · exact (chain.stops i heq.symm).loaded

/-! ## Components of a chain -/

variable {st : RenderState} {n : ℕ} {log : List LogEntry}

/-- What a component of a chain shows with what the next one gives inside of it. -/
theorem exec_component_of_next (hnext : (i + 1 : ℕ) < chain.length)
    (hroom : st.stack.depth < st.stack.limit) {s : Text} (hat : '@' ∉ s)
    (hshown : (Render.component e (Render.text e) (chain.call (i + 1))).exec
      (st.entered (chain.call i)) = (.ok s, (st.entered (chain.call i)).withLog log)) :
    (Render.component e (Render.text e) (chain.call i)).exec st =
      (.ok (chain.shown i ++ s), st.withLog log) := by
  obtain ⟨hloaded, hsource, hcall⟩ | - := chain.leads i hnext
  obtain ⟨hatShown, hbrace⟩ := chain.literal_of_next hnext
  refine Render.exec_component_of_room hloaded hroom (r := .ok _) ?_
  rw [hsource, Render.text_calledIn hatShown hbrace hcall, Render.exec_map,
    Render.exec_bind_of_ok hshown, Render.through_of_not_mem hat, Render.exec_pure]
  rfl

/-- A component of a chain fails as the next one does inside of it, if that is a failure that ends
the render. -/
theorem exec_component_of_next_error (hnext : (i + 1 : ℕ) < chain.length)
    (hroom : st.stack.depth < st.stack.limit) {f : Failure} (hfatal : f.isFatal = true)
    (hfails : (Render.component e (Render.text e) (chain.call (i + 1))).exec
      (st.entered (chain.call i)) =
        (.error f, (st.entered (chain.call i)).withLog log)) :
    (Render.component e (Render.text e) (chain.call i)).exec st =
      (.error f, st.withLog log) := by
  obtain ⟨hloaded, hsource, hcall⟩ | - := chain.leads i hnext
  obtain ⟨hatShown, hbrace⟩ := chain.literal_of_next hnext
  have hsettle : (Render.settle e (.error f)).exec (st.withLog log) =
      (.error f, st.withLog log) := by
    rw [Render.settle_of_fatal hfatal, Render.exec_throw]
  rw [← hsettle]
  refine Render.exec_component_of_room hloaded hroom ?_
  rw [hsource, Render.text_calledIn hatShown hbrace hcall, Render.exec_map,
    Render.exec_bind_of_error hfails]
  rfl

/-- A component of a chain is shown with those behind it, where there is room for all of them. -/
theorem exec_component_within (hlength : chain.length = (i + n + 1 : ℕ))
    (hroom : st.stack.depth + n < st.stack.limit) :
    ∃ log, (Render.component e (Render.text e) (chain.call i)).exec st =
      (.ok (chain.textFrom i (n + 1)), st.withLog log) := by
  -- With each component there is one place less, and one component less that needs one.
  induction n generalizing i st with
  | zero =>
    obtain - | ⟨hloaded, hsource⟩ := chain.stops i hlength
    obtain ⟨hat, hbrace⟩ := chain.literal i (by rw [hlength]; exact Nat.cast_lt.mpr (by omega))
    have hshown : chain.textFrom i 1 = chain.shown i := by
      simp [textFrom]
    refine ⟨(st.entered (chain.call i)).visit.log,
      Render.exec_component_of_room hloaded hroom (r := .ok _) ?_⟩
    rw [hsource, Render.text_literal hat hbrace, hshown]
    rfl
  | succ n ih =>
    have hlength' : chain.length = (i + 1 + n + 1 : ℕ) := by
      rw [hlength]
      congr 1
      omega
    have hnext : ((i + 1 : ℕ) : ℕ∞) < chain.length := by
      rw [hlength]
      exact Nat.cast_lt.mpr (by omega)
    have hat : '@' ∉ chain.textFrom (i + 1) (n + 1) :=
      chain.at_not_mem_textFrom hlength'.ge
    have hplace : st.stack.depth < st.stack.limit := by omega
    have hinside : (st.entered (chain.call i)).stack.depth + n <
        (st.entered (chain.call i)).stack.limit := by
      rw [Render.depth_entered hplace, Render.limit_entered]
      omega
    obtain ⟨log, hshown⟩ := ih hlength' hinside
    rw [textFrom_succ]
    exact ⟨log, chain.exec_component_of_next hnext hplace hat hshown⟩

/-- Where there is room for `n` components, the one behind them in a chain is refused. -/
theorem exec_component_beyond (hlength : (i + n : ℕ) < chain.length)
    (hroom : st.stack.depth + n = st.stack.limit) :
    ∃ log, (Render.component e (Render.text e) (chain.call i)).exec st =
      (.error (chain.refused (i + n) st.stack.limit), st.withLog log) := by
  induction n generalizing i st with
  | zero =>
    obtain ⟨template, hloaded⟩ := chain.loaded hlength
    have hpush : st.stack.push (String.ofList (componentTemplate (chain.call i).name)) =
        .error (chain.refused i st.stack.limit) :=
      CallStack.push_eq_error_iff.mpr ⟨hroom.ge, rfl⟩
    exact ⟨st.visit.log, Render.exec_component_of_refused hloaded hpush⟩
  | succ n ih =>
    have hnext : ((i + 1 : ℕ) : ℕ∞) < chain.length :=
      lt_of_le_of_lt (Nat.cast_le.mpr (by omega)) hlength
    have hplace : st.stack.depth < st.stack.limit := by omega
    have hinside : (st.entered (chain.call i)).stack.depth + n =
        (st.entered (chain.call i)).stack.limit := by
      rw [Render.depth_entered hplace, Render.limit_entered]
      omega
    have hindex : i + 1 + n = i + (n + 1) := by omega
    obtain ⟨log, hfails⟩ := ih (by rwa [hindex]) hinside
    rw [hindex] at hfails
    exact ⟨log, chain.exec_component_of_next_error hnext hplace rfl hfails⟩

/-! ## Pages with a chain -/

section Pages

variable {context : Context} {w : Text} (hpage : Component.CalledIn context w (chain.call 0))

include hpage

/-- A page that calls the first component of a chain shows all of it, where there is room. -/
theorem exec_text_within (hlength : chain.length = n)
    (hroom : st.stack.depth + n ≤ st.stack.limit) :
    ∃ log, (Render.text e context w).exec st = (.ok (chain.text n), st.withLog log) := by
  obtain ⟨m, rfl⟩ : ∃ m, n = m + 1 := by
    refine Nat.exists_eq_succ_of_ne_zero fun hzero => ?_
    exact absurd chain.length_pos (by simp [hlength, hzero])
  have hlength' : chain.length = (0 + m + 1 : ℕ) := by
    rw [hlength, Nat.zero_add]
  obtain ⟨log, hshown⟩ := chain.exec_component_within hlength' hroom
  have hat : '@' ∉ chain.text (m + 1) := by
    apply chain.at_not_mem_textFrom
    rw [Nat.zero_add, hlength]
  refine ⟨log, ?_⟩
  rw [Render.text_of_substitute hpage.messages rfl hpage.read, Render.exec_bind_of_ok hshown]
  rw [text] at hat
  rw [Render.through_of_not_mem hat, Render.exec_pure, text]

/-- Such a page fails for the component of the chain for which there is no room. -/
theorem exec_text_beyond (hlength : n < chain.length)
    (hroom : st.stack.depth + n = st.stack.limit) :
    ∃ log, (Render.text e context w).exec st =
      (.error (chain.refused n st.stack.limit), st.withLog log) := by
  have hlength' : ((0 + n : ℕ) : ℕ∞) < chain.length := by
    rwa [Nat.zero_add]
  obtain ⟨log, hfails⟩ := chain.exec_component_beyond hlength' hroom
  rw [Nat.zero_add] at hfails
  refine ⟨log, ?_⟩
  rw [Render.text_of_substitute hpage.messages rfl hpage.read, Render.exec_bind_of_error hfails]

end Pages

end Chain

/-- Whether a request gives the result `r` and leaves the session as it was. -/
def Request.Gives {α : Type} (x : Request α) (visit : Visit) (r : Except Failure α) : Prop :=
  (x.exec visit).1 = r ∧ (x.exec visit).2.session = visit.session

/-- A request gives its result if it leaves the session as it was. -/
theorem Request.gives_of_exec {α : Type} {x : Request α} {visit visit' : Visit}
    {r : Except Failure α} (h : x.exec visit = (r, visit'))
    (hsession : visit'.session = visit.session) : x.Gives visit r := by
  rw [Gives, h]
  exact ⟨rfl, hsession⟩

namespace Engine

/-- Whether a text is rendered to `r`, on its own and as the template of a view. -/
structure Renders (e : Engine) (context : Context) (source : Text) (visit : Visit)
    (r : Except Failure Text) : Prop where
  oneOff : (e.oneOff source context).Gives visit r
  view : ∀ name t, e.template? name = some t → t.source.toList = source →
    (e.view name context).Gives visit (r.map fun s => ⟨s, .rendered⟩)

/-- What a text is rendered to where no component is around it. -/
theorem renders_of_exec_text {e : Engine} {context : Context} {source : Text}
    {r : Except Failure Text}
    (h : ∀ st : RenderState, st.stack.depth = 0 → st.stack.limit = e.maxDepth →
      ∃ log, (Render.text e context source).exec st = (r, st.withLog log)) (visit : Visit) :
    Renders e context source visit r := by
  have hrun : ∀ name visit, ∃ log,
      (Render.run (e.stack .origin name) (Render.text e context source)).exec visit =
        (r, { visit with log }) := by
    intro name visit
    obtain ⟨log, hlog⟩ := h ⟨visit, e.stack .origin name⟩ rfl rfl
    refine ⟨log, ?_⟩
    rw [Request.exec_run, hlog]
    rfl
  constructor
  · obtain ⟨log, hlog⟩ := hrun oneOffName visit
    exact Request.gives_of_exec hlog rfl
  · intro name t ht hsource
    obtain ⟨log, hlog⟩ := hrun name { visit with log := visit.log ++ [.view name] }
    rw [← hsource] at hlog
    cases r with
    | ok s =>
      refine Request.gives_of_exec ((exec_view ht _ _).trans (Request.exec_bind_of_ok hlog _)) rfl
    | error f =>
      exact Request.gives_of_exec ((exec_view ht _ _).trans (Request.exec_bind_of_error hlog _)) rfl

/-- **The limit is exact**: a page that calls the first component of a chain shows the texts of all
its components if these are no more than the limit allows, and fails for the first component beyond
the limit if there is one, whether the chain has an end or not. -/
theorem chain_limited (e : Engine) (chain : Chain e) {context : Context} {page : Text}
    (hpage : Component.CalledIn context page (chain.call 0)) (visit : Visit) :
    (∀ n : ℕ, chain.length = n → n ≤ e.maxDepth →
      e.Renders context page visit (.ok (chain.text n))) ∧
    (e.maxDepth < chain.length →
      e.Renders context page visit (.error (chain.refused e.maxDepth e.maxDepth))) := by
  constructor
  · intro n hlength hn
    refine renders_of_exec_text (fun st hdepth hlimit => ?_) visit
    exact chain.exec_text_within hpage hlength (by omega)
  · intro hlength
    refine renders_of_exec_text (fun st hdepth hlimit => ?_) visit
    have hroom : st.stack.depth + e.maxDepth = st.stack.limit := by omega
    obtain ⟨log, hfails⟩ := chain.exec_text_beyond hpage hlength hroom
    rw [hlimit] at hfails
    exact ⟨log, hfails⟩

/-- Two components one inside the other, and two that call each other in turn. -/
def chainEngine : Engine :=
  (((empty.add "components/outer" "<p>@component('inner')").add "components/inner"
    "<b>").add "components/even" "0@component('odd')").add "components/odd" "1@component('even')"

/-- The chain of the two components of which one is inside the other. -/
def nestedChain (d : ℕ) : Chain (chainEngine.setMaxDepth d) where
  length := (2 : ℕ)
  call i := ⟨if i = 0 then "outer".toList else "inner".toList, .empty⟩
  shown i := if i = 0 then "<p>".toList else "<b>".toList
  length_pos := by decide
  leads := by
    intro i hi
    obtain rfl : i = 0 := by
      have := Nat.cast_lt.mp hi
      omega
    exact .naming rfl (by decide) (by decide) (List.all_eq_true.mp (by decide)) .empty
  stops := by
    intro i hi
    obtain rfl : i = 1 := by
      have := Nat.cast_inj.mp hi
      omega
    exact .stop rfl (by decide)
  literal := by
    intro i hi
    split <;> decide

/-- The chain of the two components that call each other, which has no end. -/
def turningChain (d : ℕ) : Chain (chainEngine.setMaxDepth d) where
  length := ⊤
  call i := ⟨if i % 2 = 0 then "even".toList else "odd".toList, .empty⟩
  shown i := if i % 2 = 0 then "0".toList else "1".toList
  length_pos := ENat.top_pos
  leads := by
    intro i hi
    rcases Nat.mod_two_eq_zero_or_one i with h | h
    · have hnext : (i + 1) % 2 = 1 := by omega
      simp only [h, hnext]
      exact .naming rfl (by decide) (by decide) (List.all_eq_true.mp (by decide)) .empty
    · have hnext : (i + 1) % 2 = 0 := by omega
      simp only [h, hnext]
      exact .naming rfl (by decide) (by decide) (List.all_eq_true.mp (by decide)) .empty
  stops := by
    intro i hi
    exact absurd hi.symm (ENat.natCast_ne_top _)
  literal := by
    intro i hi
    split <;> decide

/-- The first chain under a limit of two, where it fits, and of one, where its end does not; and the
second chain, of which the fifth component is refused under a limit of four. -/
theorem chain_limited_turns :
    let visit : Visit := { session := { store := .empty, csrf := .constant "t" } }
    ((chainEngine.setMaxDepth 2).oneOff "@component('outer')".toList .empty).Gives visit
        (.ok "<p><b>".toList) ∧
      ((chainEngine.setMaxDepth 1).oneOff "@component('outer')".toList .empty).Gives visit
        (.error (.recursionLimit "components/inner" 1)) ∧
      ((chainEngine.setMaxDepth 4).oneOff "@component('even')".toList .empty).Gives visit
        (.error (.recursionLimit "components/even" 4)) := by
  intro visit
  have houter :
      Component.CalledIn .empty (Component.naming "outer".toList) ⟨"outer".toList, .empty⟩ :=
    (Component.isCall_naming (by decide) (List.all_eq_true.mp (by decide))).calledIn .empty
  have heven :
      Component.CalledIn .empty (Component.naming "even".toList) ⟨"even".toList, .empty⟩ :=
    (Component.isCall_naming (by decide) (List.all_eq_true.mp (by decide))).calledIn .empty
  refine ⟨?_, ?_, ?_⟩
  · exact ((chain_limited _ (nestedChain 2) houter visit).1 2 rfl (by decide)).oneOff
  · have hbeyond : (1 : ℕ∞) < (nestedChain 1).length := Nat.cast_lt.mpr (by decide)
    exact ((chain_limited _ (nestedChain 1) houter visit).2 hbeyond).oneOff
  · have hrefused : (turningChain 4).refused 4 4 = .recursionLimit "components/even" 4 := by
      rfl
    rw [← hrefused]
    exact ((chain_limited _ (turningChain 4) heven visit).2 (ENat.natCast_lt_top _)).oneOff

end Engine

end HtmlViews
