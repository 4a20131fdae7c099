import HtmlViews.Proofs.Component.Writing
import HtmlViews.Proofs.Render.Calls

/-!
# Components in a text and alone

A component can be rendered alone, with a context as its parameters, or by a text that calls it and
spells the parameters out. The call is read back as it was written, so both render the same
component; and the stages behind keep what it leaves if no directive begins in that.

Both renders are brought to one form: a call of the component with the same parameters, from call
stacks that nest as many components (**CallStack.SameNesting**). For the component alone this is
what it is. For the text, the call is read back with the parameters that were written
(**Component.isCall_writing**), the stages before it find nothing in the text, and the stages behind
it are passed by what the component leaves, if there is no `@` in that. The names on the two call
stacks differ, and with them the logs, so the results and the sessions are compared and the logs are
not.

* **Render.text_of_call** — a text that is nothing but a call.
* **Engine.oneOff_writing_eq_component** — such a text is rendered like the component alone.
-/

namespace HtmlViews

/-- A text that is a call shows its component, taken through the stages behind. -/
theorem Render.text_of_call {w : Text} {c : Component.Call} (hcall : Component.IsCall w c)
    (engine : Engine) (context : Context) :
    text engine context w = (do
      let shown ← component engine (text engine) c
      through (stagesBehind engine context) shown) := by
  have hvalues : Variable.substitute context w = w := Text.expand_of_passes (hcall.placeholders []) _
  have hread := hcall.read []
  rw [List.append_nil] at hread
  exact text_of_substitute (hcall.messages []) hvalues hread engine

namespace Engine

/-- **A text that calls a component with its parameters spelled out is rendered like the component
alone**, under any context and in the same session: it fails with the same failure, or gives the
same content if no directive begins in that, and leaves the same session. All parameters that are
strings and lists of strings can be spelled out, unless quotes, commas or signs of directives in
them forbid it. -/
theorem oneOff_writing_eq_component (e : Engine) {name : String} (hne : name ≠ "")
    (hname : ∀ c ∈ name.toList, Component.isNamePart c = true) :
    (∀ params : Context, Component.Writable params →
      ∃ ps, Component.paramsOf ps = params) ∧
    ∀ ps context visit visit', visit.session = visit'.session →
      let direct := (e.component name (Component.paramsOf ps)).exec visit
      let inline := (e.oneOff (Component.writing name.toList ps) context).exec visit'
      (∀ f, direct.1 = .error f →
        inline.1 = .error f ∧ inline.2.session = direct.2.session) ∧
      ∀ s, direct.1 = .ok s → '@' ∉ s →
        inline.1 = .ok s ∧ inline.2.session = direct.2.session := by
  refine ⟨fun params h => h.exists_paramsOf, ?_⟩
  intro ps context visit visit' hsession direct inline
  have hcall : Component.IsCall (Component.writing name.toList ps)
      ⟨name.toList, Component.paramsOf ps⟩ :=
    Component.isCall_writing (mt String.toList_eq_nil_iff.mp hne) hname ps
  have hnesting : (e.stack .origin name).SameNesting (e.stack .origin oneOffName) := by
    apply CallStack.SameNesting.start <;> decide
  -- The component itself is rendered in both, under frames that differ in their names only.
  obtain ⟨r, after, after', hx, hy, hafter⟩ :=
    Render.UpToLog.component_text hnesting ⟨name.toList, Component.paramsOf ps⟩ visit visit'
      hsession
  have hdirect : direct = (r, after) := by
    show (Render.run _ (Render.call e _)).exec visit = _
    rw [Request.exec_run, Render.call_eq, hx]
  have hinline : inline = ((Render.text e context (Component.writing name.toList ps)).exec
      ⟨visit', e.stack .origin oneOffName⟩).map id RenderState.visit := rfl
  rw [Render.text_of_call hcall] at hinline
  rw [hdirect]
  refine ⟨?_, ?_⟩
  · rintro f rfl
    rw [Render.exec_bind_of_error hy] at hinline
    rw [hinline]
    exact ⟨rfl, hafter.symm⟩
  · rintro s rfl hat
    rw [Render.exec_bind_of_ok hy, Render.through_of_not_mem hat] at hinline
    rw [hinline]
    exact ⟨rfl, hafter.symm⟩

/-- A title with a parenthesis and a list, for a component that shows the title and consumes an
error. -/
theorem oneOff_writing_eq_component_card :
    let title : Component.Param := ⟨'\'', "title".toList,
      .string ⟨'"', "It's 1)".toList, rfl, by decide, by decide, by decide⟩, rfl, by decide,
      List.all_eq_true.mp (by decide)⟩
    let tags : Component.Param := ⟨'"', "tags".toList,
      .list [⟨⟨'\'', "a b".toList, rfl, by decide, by decide, by decide⟩, by decide, by decide,
        by decide, by rintro _ ⟨⟩; rfl, by rintro _ ⟨⟩; rfl⟩], rfl, by decide,
      List.all_eq_true.mp (by decide)⟩
    let e := empty.add (String.ofList (componentTemplate "card".toList))
      "\x7b\x7btitle\x7d\x7d @errors('f')"
    let visit : Visit :=
      { session := { store := Store.empty.addError "f" "no", csrf := .constant "t" } }
    let inline := (e.oneOff (Component.writing "card".toList [title, tags]) .empty).exec visit
    (∀ c ∈ "card".toList, Component.isNamePart c = true) ∧
      inline.1.toOption = some "It's 1) no".toList ∧
      inline.2.session.store.peekError "f" = none := by
  intro title tags e visit inline
  have hname : ∀ c ∈ "card".toList, Component.isNamePart c = true :=
    List.all_eq_true.mp (by decide)
  have hvalue : ((e.component "card" (Component.paramsOf [title, tags])).exec visit).1.toOption =
      some "It's 1) no".toList := by
    decide +kernel
  have hconsumed : ((e.component "card" (Component.paramsOf [title, tags])).exec
      visit).2.session.store.peekError "f" = none := by
    decide +kernel
  have hdirect : ((e.component "card" (Component.paramsOf [title, tags])).exec visit).1 =
      .ok "It's 1) no".toList := by
    rcases hr : ((e.component "card" (Component.paramsOf [title, tags])).exec visit).1 with f | s
    · rw [hr] at hvalue
      cases hvalue
    · rw [hr] at hvalue
      exact congrArg Except.ok (Option.some.inj hvalue)
  obtain ⟨hinline, hkept⟩ := ((oneOff_writing_eq_component e (by decide) hname).2
    [title, tags] .empty visit visit rfl).2 _ hdirect (by decide)
  refine ⟨hname, ?_, ?_⟩
  · rw [hinline]
    rfl
  · rw [hkept]
    exact hconsumed

end Engine

end HtmlViews
