import HtmlViews.Proofs.Engine.Request
import HtmlViews.Proofs.Log
import HtmlViews.Proofs.Message.Block
import HtmlViews.Proofs.Render.Composition
import HtmlViews.Proofs.Validation.Field

/-!
# What is consumed is reported

A page consumes messages and errors of its session and writes a line to the log for each. The lines
account for what is gone: what is not reported is as it was, what is reported is gone and reported
once, and nothing is ever put in. This holds of each step of a render, and lines and stores of one
step behind another add up.

The proof goes from small computations to large ones. A line reports a delivery or not
(**LogEntry.isDelivery**), and computations that report none leave the store alone. To take a
message or the errors of a field changes one entry and writes one line
(**Store.accountedBy_takeMessage**, **Store.accountedBy_takeError**); what has gone cannot go again,
so the numbers of lines add up (**KeptOrGone.trans**). That a render accounts for what it consumes
is kept when renders are put together, holds of each stage, and passes through components by
induction on the room that the call stack has left. Nothing in this depends on whether a template or
a request fails: what was consumed before stays consumed, and was reported.

* **KeptOrGone** — what became of one entry of a store, beside the number of lines about it.
* **Store.AccountedBy** — that lines account for what is gone from a store.
* **Visit.Accounted** — that the lines which a visit got account for what is gone from its session.
* **Engine.consumption_accounted** — views, layouts and components account for what they consume.
-/

namespace HtmlViews

variable {α β : Type}

/-! ## Lines about deliveries -/

/-- Whether a line reports that something was delivered and is gone. -/
def LogEntry.isDelivery : LogEntry → Bool
  | .consumedMessage _ | .consumedErrors _ => true
  | _ => false

/-- Whether no delivery is reported. -/
def Logged.Quiet (x : Logged α) : Prop :=
  ∀ entry ∈ x.log, entry.isDelivery = false

namespace Logged.Quiet

/-- A value alone writes nothing. -/
theorem pure (a : α) : Quiet (pure a) := by
  intro entry hentry
  cases hentry

/-- A line that reports no delivery. -/
theorem write {entry : LogEntry} (h : entry.isDelivery = false) : Quiet (write entry) := by
  intro entry' hentry'
  rw [List.mem_singleton.mp hentry', h]

/-- Two quiet computations in a row. -/
theorem bind {x : Logged α} {f : α → Logged β} (hx : Quiet x) (hf : ∀ a, Quiet (f a)) :
    Quiet (x >>= f) := by
  intro entry hentry
  rcases List.mem_append.mp hentry with h | h
  · exact hx entry h
  · exact hf _ entry h

/-- Quiet computations may be put together. -/
theorem compositional : Compositional Logged fun x _ => Quiet x :=
  ⟨pure, bind⟩

end Logged.Quiet

/-- Conditional blocks deliver nothing, and neither do switches. -/
theorem Conditional.quiet_isTrue (context : Context) (condition : Text) :
    (isTrue context condition).Quiet := by
  unfold isTrue
  split
  · exact .pure _
  · exact .bind (.write rfl) fun _ => .pure _

/-- The stage of conditionals reports no delivery. -/
theorem Conditional.quiet_expand (context : Context) (s : Text) : (expand context s).Quiet := by
  fun_induction expand context s with
  | case1 => exact .pure _
  | case2 c t _ ih => exact .bind ih fun _ => .pure _
  | case3 c t r _ ih => exact .bind (.write rfl) fun _ => .bind ih fun _ => .pure _
  | case4 c t condition r _ ih => exact .bind (.write rfl) fun _ => .bind ih fun _ => .pure _
  | case5 c t b r _ ihBranch ihRest =>
    exact .bind (quiet_isTrue _ _) fun holds => .bind (ihBranch holds) fun _ =>
      .bind ihRest fun _ => .pure _

/-- Nor does the search for a case. -/
theorem Switch.quiet_findCase (context : Context) (subject s : Text) :
    (findCase context subject s).Quiet := by
  fun_induction findCase context subject s with
  | case1 => exact .pure _
  | case2 s reason _ => exact .bind (.write rfl) fun _ => .pure _
  | case3 => exact .pure _
  | case4 s c r _ _ ih => exact ih

/-- The stage of switches reports no delivery. -/
theorem Switch.quiet_expand (context : Context) (s : Text) : (expand context s).Quiet := by
  refine Logged.Quiet.compositional.expandM (g := Found.show context) reader ?_ s
  intro found
  cases found with
  | block subject body =>
    refine Logged.Quiet.bind (quiet_findCase _ _ _) fun content => ?_
    cases content with
    | none => exact .pure _
    | some content => exact .pure _
  | endless subject => exact Logged.Quiet.bind (.write rfl) fun _ => .pure _
  | unclosed => exact Logged.Quiet.bind (.write rfl) fun _ => .pure _

/-! ## Entries -/

/-- What became of an entry of a store about which a number of lines was written: it is as it was
and there is no line, or it is gone and there are as many lines as are due for it. -/
def KeptOrGone (due : α → Nat) (before after : Option α) (lines : Nat) : Prop :=
  (after = before ∧ lines = 0) ∨ ∃ a, before = some a ∧ after = none ∧ lines = due a

namespace KeptOrGone

variable {due : α → Nat} {o o' o'' : Option α} {n n' : Nat}

/-- What is as it was needs no line. -/
theorem kept (o : Option α) : KeptOrGone due o o 0 :=
  .inl ⟨rfl, rfl⟩

/-- What is erased is gone, and what was not there is as it was. -/
theorem erase (d : Dict α) (k k' : String) :
    KeptOrGone due (d.find? k') ((d.erase k).find? k')
      (if k = k' then (d.find? k').elim 0 due else 0) := by
  rw [Dict.find?_erase]
  by_cases hk : k = k'
  · rw [if_pos hk, if_pos hk]
    cases d.find? k' with
    | none => exact kept none
    | some a => exact .inr ⟨a, rfl, rfl, rfl⟩
  · rw [if_neg hk, if_neg hk]
    exact kept _

/-- What is gone is not there to go again, so the lines add up. -/
theorem trans (h : KeptOrGone due o o' n) (h' : KeptOrGone due o' o'' n') :
    KeptOrGone due o o'' (n + n') := by
  rcases h with ⟨rfl, rfl⟩ | ⟨a, rfl, rfl, rfl⟩
  · rwa [Nat.zero_add]
  · rcases h' with ⟨rfl, rfl⟩ | ⟨a', h, -, -⟩
    · exact .inr ⟨a, rfl, rfl, rfl⟩
    · cases h

end KeptOrGone

/-! ## Stores -/

namespace Store

/-- Whether lines account for what is gone from a store: one line for each message that is gone, one
for each field whose errors are gone, if it had any, and nothing else has changed. -/
structure AccountedBy (before after : Store) (lines : List LogEntry) : Prop where
  messages : ∀ name, KeptOrGone (fun _ => 1) (before.messages.find? name)
    (after.messages.find? name) (lines.count (.consumedMessage name))
  errors : ∀ field, KeptOrGone (fun es => if es = [] then 0 else 1) (before.errors.find? field)
    (after.errors.find? field) (lines.count (.consumedErrors field))

namespace AccountedBy

variable {before middle after : Store} {lines lines' : List LogEntry}

/-- What lines account for from one store to the next one, they account for together. -/
theorem trans (h : AccountedBy before middle lines) (h' : AccountedBy middle after lines') :
    AccountedBy before after (lines ++ lines') where
  messages name := by
    rw [List.count_append]
    exact (h.messages name).trans (h'.messages name)
  errors field := by
    rw [List.count_append]
    exact (h.errors field).trans (h'.errors field)

/-- Lines that report no delivery account for a store that stays as it is. -/
theorem of_quiet (store : Store) (h : ∀ entry ∈ lines, entry.isDelivery = false) :
    AccountedBy store store lines where
  messages name := by
    have hcount : lines.count (.consumedMessage name) = 0 :=
      List.count_eq_zero.mpr fun hmem => nomatch h _ hmem
    rw [hcount]
    exact .kept _
  errors field := by
    have hcount : lines.count (.consumedErrors field) = 0 :=
      List.count_eq_zero.mpr fun hmem => nomatch h _ hmem
    rw [hcount]
    exact .kept _

/-- A store that is as it was needs no lines. -/
theorem refl (store : Store) : AccountedBy store store [] :=
  of_quiet store nofun

end AccountedBy

/-- The message that is taken is the only one that goes, and no errors go with it. -/
theorem accountedBy_takeMessage (store : Store) (name : String) :
    AccountedBy store (store.takeMessage name).2
      ((store.peekMessage name).elim [] fun _ => [.consumedMessage name]) where
  messages other := by
    have hcount : List.count (.consumedMessage other)
        ((store.peekMessage name).elim [] fun _ => [LogEntry.consumedMessage name]) =
        if name = other then (store.messages.find? other).elim 0 fun _ => 1 else 0 := by
      by_cases hname : name = other
      · subst hname
        rw [if_pos rfl, peekMessage]
        cases store.messages.find? name <;> simp
      · rw [if_neg hname]
        cases store.peekMessage name <;> simp [hname]
    rw [hcount]
    exact .erase _ _ _
  errors field := by
    have hcount : List.count (.consumedErrors field)
        ((store.peekMessage name).elim [] fun _ => [LogEntry.consumedMessage name]) = 0 := by
      cases store.peekMessage name <;> simp
    rw [hcount]
    exact .kept _

/-- The field whose errors are taken is the only one that loses them, and no message goes. -/
theorem accountedBy_takeError (store : Store) (field : String) :
    AccountedBy store (store.takeError field).2
      ((store.peekError field).elim [] fun _ => [.consumedErrors field]) where
  messages name := by
    have hcount : List.count (.consumedMessage name)
        ((store.peekError field).elim [] fun _ => [LogEntry.consumedErrors field]) = 0 := by
      cases store.peekError field <;> simp
    rw [hcount]
    exact .kept _
  errors other := by
    have hcount : List.count (.consumedErrors other)
        ((store.peekError field).elim [] fun _ => [LogEntry.consumedErrors field]) =
        if field = other then
          (store.errors.find? other).elim 0 fun es => if es = [] then 0 else 1
        else 0 := by
      by_cases hfield : field = other
      · subst hfield
        rw [if_pos rfl, peekError]
        rcases store.errors.find? field with _ | es
        · rfl
        · cases es <;> simp
      · rw [if_neg hfield]
        cases store.peekError field <;> simp [hfield]
    rw [hcount]
    exact .erase _ _ _

/-- Whether the lines of a computation account for what it takes out of any store. -/
def Accounts (x : StateT Store Logged α) : Prop :=
  ∀ store, AccountedBy store (x.run store).value.2 (x.run store).log

/-- Computations that account for what they take may be put together. -/
theorem Accounts.compositional : Compositional (StateT Store Logged) fun x _ => Accounts x where
  pure _ store := .refl store
  bind hx hf store := (hx store).trans (hf _ _)

end Store

/-- The stage of messages accounts for the messages that it takes. -/
theorem Message.accounts_expand (s : Text) : Store.Accounts (expand s) := by
  refine Store.Accounts.compositional.expandM (g := Block.show) reader ?_ s
  intro block store
  have htake := store.accountedBy_takeMessage (String.ofList block.name)
  show Store.AccountedBy store (block.show store).value.2 (block.show store).log
  cases h : store.peekMessage (String.ofList block.name) with
  | none =>
    rw [h] at htake
    rw [Block.show_of_none h]
    exact htake
  | some message =>
    rw [h] at htake
    rw [Block.show_of_some h]
    exact htake

/-- The stage of errors accounts for the errors that it takes. -/
theorem Validation.accounts_expand (s : Text) : Store.Accounts (expand s) := by
  refine Store.Accounts.compositional.expandM (g := showField) reader ?_ s
  intro field store
  have htake := store.accountedBy_takeError (String.ofList field)
  show Store.AccountedBy store (showField field store).value.2 (showField field store).log
  cases h : store.peekError (String.ofList field) with
  | none =>
    rw [h] at htake
    rw [showField_of_none h]
    exact htake
  | some error =>
    rw [h] at htake
    rw [showField_of_some h]
    exact htake

/-! ## Visits -/

namespace Visit

/-- Whether the lines that a visit got account for what is gone from its messages and errors, and
nothing else has happened to its session than that tokens were asked for. -/
def Accounted (before after : Visit) : Prop :=
  ∃ lines asked, after.log = before.log ++ lines ∧
    before.session.store.AccountedBy after.session.store lines ∧
    after.session.csrf =
      { before.session.csrf with asked := before.session.csrf.asked + asked }

/-- A visit that is as it was needs no lines. -/
theorem Accounted.refl (visit : Visit) : Accounted visit visit :=
  ⟨[], 0, (List.append_nil _).symm, .refl _, rfl⟩

/-- What is accounted for step by step is accounted for together. -/
theorem Accounted.trans {visit visit' visit'' : Visit} (h : Accounted visit visit')
    (h' : Accounted visit' visit'') : Accounted visit visit'' := by
  obtain ⟨lines, asked, hlog, hstore, hcsrf⟩ := h
  obtain ⟨lines', asked', hlog', hstore', hcsrf'⟩ := h'
  refine ⟨lines ++ lines', asked + asked', ?_, hstore.trans hstore', ?_⟩
  · rw [hlog', hlog, List.append_assoc]
  · rw [hcsrf', hcsrf, Nat.add_assoc]

/-- Lines that report no delivery change nothing that has to be accounted for. -/
theorem accounted_of_quiet (visit : Visit) {lines : List LogEntry}
    (h : ∀ entry ∈ lines, entry.isDelivery = false) :
    Accounted visit { visit with log := visit.log ++ lines } :=
  ⟨lines, 0, rfl, .of_quiet _ h, rfl⟩

/-- A line that reports no delivery may be written. -/
theorem accounted_write (visit : Visit) {entry : LogEntry} (h : entry.isDelivery = false) :
    Accounted visit { visit with log := visit.log ++ [entry] } :=
  visit.accounted_of_quiet (Logged.Quiet.write h)

/-- Token fields ask for one token at most. -/
theorem accounted_tokens (visit : Visit) (s : Text) :
    Accounted visit ((withCsrf (Csrf.expand s)).run visit).2 := by
  have hcsrf : ∃ asked, (Csrf.expand s visit.session.csrf).2 =
      { visit.session.csrf with asked := visit.session.csrf.asked + asked } := by
    unfold Csrf.expand
    by_cases hcut : (Text.cut? Csrf.directive s).isSome = true
    · rw [if_pos hcut]
      exact ⟨1, rfl⟩
    · rw [if_neg hcut]
      exact ⟨0, rfl⟩
  obtain ⟨asked, hcsrf⟩ := hcsrf
  exact ⟨[], asked, (List.append_nil _).symm, .refl _, hcsrf⟩

/-- Every step of a pass accounts for what it consumes. -/
theorem Step.accounted {x : StateM Visit α} (h : Step x) (visit : Visit) :
    Accounted visit (x.run visit).2 := by
  cases h with
  | messages s => exact ⟨_, 0, rfl, Message.accounts_expand s _, rfl⟩
  | warning f => exact visit.accounted_write rfl
  | conditionals context s => exact visit.accounted_of_quiet (Conditional.quiet_expand context s)
  | switches context s => exact visit.accounted_of_quiet (Switch.quiet_expand context s)
  | errors s => exact ⟨_, 0, rfl, Validation.accounts_expand s _, rfl⟩
  | tokens s => exact visit.accounted_tokens s

end Visit

/-! ## Renders -/

namespace Render

variable {engine : Engine} {inner : Context → Text → Render Text}

/-- Whether a render accounts for what it consumes, in whatever state it starts and in whatever way
it ends. -/
def Accounts (x : Render α) : Prop :=
  ∀ st, Visit.Accounted st.visit (x.exec st).2.visit

namespace Accounts

/-- A value alone consumes nothing. -/
theorem pure (a : α) : Accounts (pure a) := by
  intro st
  exact .refl _

/-- A failure consumes nothing. -/
theorem throw (f : Failure) : Accounts (throw f : Render α) := by
  intro st
  exact .refl _

/-- To look at the call stack consumes nothing. -/
theorem stack : Accounts stack := by
  intro st
  exact .refl _

/-- Two renders in a row account for what both consume. -/
theorem bind {x : Render α} {f : α → Render β} (hx : Accounts x) (hf : ∀ a, Accounts (f a)) :
    Accounts (x >>= f) := by
  intro st
  have hst := hx st
  rcases h : x.exec st with ⟨r, st'⟩
  rw [h] at hst
  cases r with
  | error e =>
    rw [exec_bind_of_error h]
    exact hst
  | ok a =>
    rw [exec_bind_of_ok h]
    exact hst.trans (hf a st')

/-- Renders that account for what they consume may be put together. -/
theorem compositional : Compositional Render fun x _ => Accounts x :=
  ⟨pure, bind⟩

/-- To show a failure in place consumes nothing. -/
theorem contain (f : Failure) : Accounts (contain engine f) := by
  intro st
  exact st.visit.accounted_write rfl

/-- To settle a result consumes nothing. -/
theorem settle (r : Except Failure Text) : Accounts (settle engine r) := by
  cases r with
  | ok s => exact pure s
  | error f =>
    by_cases hf : f.isFatal = true
    · rw [settle_of_fatal hf]
      exact throw f
    · rw [settle_of_not_fatal hf]
      exact contain f

/-- A component accounts for what its template consumes, also when that ends in a failure. -/
theorem component (h : ∀ context s, Accounts (inner context s)) (c : Component.Call) :
    Accounts (component engine inner c) := by
  intro st
  cases hc : engine.component? c.name with
  | none =>
    rw [exec_component_of_none hc]
    exact contain _ st
  | some template =>
    cases hpush : st.stack.push (String.ofList (componentTemplate c.name)) with
    | error f =>
      rw [exec_component_of_refused hc hpush]
      exact .refl _
    | ok pushed =>
      have hentered : st.visit.Accounted { st.visit with
          log := st.visit.log ++ [.component (String.ofList c.name) pushed.trace] } :=
        st.visit.accounted_write rfl
      have hinner := h c.params template.source.toList
        { visit := { st.visit with
            log := st.visit.log ++ [.component (String.ofList c.name) pushed.trace] },
          stack := pushed }
      rcases hr : (inner c.params template.source.toList).exec _ with ⟨r, visit, stack⟩
      rw [hr] at hinner
      rw [exec_component_of_entered hc hpush hr]
      exact (hentered.trans hinner).trans (settle r _)

/-- A pass accounts for what its stages consume, if what is rendered inside does. -/
theorem pass (h : ∀ context s, Accounts (inner context s)) (context : Context) (s : Text) :
    Accounts (pass engine inner context s) :=
  @Compositional.pass (fun x _ => Accounts x) compositional
    (fun hstep st => hstep.accounted st.visit) engine inner inner (component h) context s

/-- Templates inside each other account for what they consume, however deeply they are nested. -/
theorem inside (room : Nat) (context : Context) (s : Text) :
    Accounts (inside engine room context s) := by
  induction room generalizing context s with
  | zero =>
    intro st
    exact .refl _
  | succ room ih => exact pass ih context s

/-- A text accounts for what it consumes when it is rendered. -/
theorem text (context : Context) (s : Text) : Accounts (text engine context s) :=
  bind stack fun _ => pass (inside _) context s

/-- A call of a component accounts for what it consumes. -/
theorem call (c : Component.Call) : Accounts (call engine c) :=
  bind stack fun _ => component (inside _) c

end Accounts

end Render

/-! ## Requests -/

namespace Request

/-- Whether a request accounts for what it consumes, in whatever way it ends. -/
def Accounts (x : Request α) : Prop :=
  ∀ visit, Visit.Accounted visit (x.exec visit).2

namespace Accounts

/-- A value alone consumes nothing. -/
theorem pure (a : α) : Accounts (pure a) := by
  intro visit
  exact .refl visit

/-- Two requests in a row account for what both consume. -/
theorem bind {x : Request α} {f : α → Request β} (hx : Accounts x) (hf : ∀ a, Accounts (f a)) :
    Accounts (x >>= f) := by
  intro visit
  have hvisit := hx visit
  rcases h : x.exec visit with ⟨r, visit'⟩
  rw [h] at hvisit
  cases r with
  | error e =>
    rw [exec_bind_of_error h]
    exact hvisit
  | ok a =>
    rw [exec_bind_of_ok h]
    exact hvisit.trans (hf a visit')

/-- Requests that account for what they consume may be put together. -/
theorem compositional : Compositional Request fun x _ => Accounts x :=
  ⟨pure, bind⟩

/-- A line that reports no delivery may be written. -/
theorem write {entry : LogEntry} (h : entry.isDelivery = false) :
    Accounts (liftM (Visit.write entry)) := by
  intro visit
  exact visit.accounted_write h

/-- A render accounts for what it consumes as a request, too. -/
theorem run {x : Render α} (h : Render.Accounts x) (stack : CallStack) :
    Accounts (Render.run stack x) := by
  intro visit
  exact h ⟨visit, stack⟩

/-- To show a failure as a page consumes nothing. -/
theorem showFailure (e : Engine) (f : Failure) : Accounts (e.showFailure f) :=
  bind (write rfl) fun _ => pure _

/-- A view accounts for what it consumes. -/
theorem view (e : Engine) (name : String) (context : Context) :
    Accounts (e.view name context) := by
  unfold Engine.view
  refine bind (write rfl) fun _ => ?_
  cases e.template? name with
  | none => exact bind (showFailure e _) fun _ => pure _
  | some t => exact bind (run (.text _ _) _) fun _ => pure _

/-- A layout around a view accounts for what it consumes. -/
theorem inLayout (e : Engine) (name : String) (context : Context) (v : View) :
    Accounts (e.inLayout name context v) := by
  unfold Engine.inLayout
  cases e.template? name with
  | none => exact bind (showFailure e _) fun _ => pure _
  | some t =>
    by_cases hslot : hasSlot t.source.toList = true
    · simp only [if_pos hslot]
      refine bind (write rfl) fun _ => ?_
      exact bind (run (.text _ _) _) fun _ => pure _
    · simp only [if_neg hslot]
      exact bind (showFailure e _) fun _ => pure _

/-- A page accounts for what it consumes. -/
theorem page (e : Engine) (name : String) (context : Context) (layouts : List String) :
    Accounts (e.page name context layouts) := by
  unfold Engine.page
  refine bind (view e name context) fun v => ?_
  refine compositional.foldlM (g := fun v layout => e.inLayout layout context v) ?_ v layouts
  intro v layout
  exact inLayout e layout context v

end Accounts

end Request

/-- **What a request consumes is what it reports**, whether it gives a page or fails: each message
is as it was and there is no line about it, or it is gone and there is one line; each field has its
errors as they were and no line, or they are gone with one line if there were any; and nothing is
put in. -/
theorem Engine.consumption_accounted (e : Engine) (visit : Visit) :
    (∀ name context, visit.Accounted ((e.view name context).exec visit).2) ∧
    (∀ name context v, visit.Accounted ((e.inLayout name context v).exec visit).2) ∧
    (∀ name context layouts, visit.Accounted ((e.page name context layouts).exec visit).2) ∧
    (∀ name context, visit.Accounted ((e.component name context).exec visit).2) ∧
    ∀ source context, visit.Accounted ((e.oneOff source context).exec visit).2 := by
  refine ⟨?_, ?_, ?_, ?_, ?_⟩
  · intro name context
    exact Request.Accounts.view e name context visit
  · intro name context v
    exact Request.Accounts.inLayout e name context v visit
  · intro name context layouts
    exact Request.Accounts.page e name context layouts visit
  · intro name context
    exact Request.Accounts.run (.call _) _ visit
  · intro source context
    exact Request.Accounts.run (.text _ _) _ visit

end HtmlViews
