import HtmlViews.Proofs.Component.Calls
import HtmlViews.Proofs.Render.Observation

/-!
# Calls in a page

A call that stands behind literal text is passed over by the stages of messages and variables, which
work on what follows it. Then its component takes its place, and the stages behind read the page
with the component in it. So a call of a component that is not there looks the same whatever it
names, unless the failure is shown in detail.

The proof takes the text through the stages one by one. Literal text in front of the call is passed
by the stages of messages and variables, which then go on behind the call; the stage of components
puts the component in; and what the stages behind do with it is the same for two texts that differ
in the name of the component only if they find the same in its place. They do: without details, the
fragment of a failure is the same for every missing component, and the line in the log, which names
it, is not seen by the visitor.

So the two renders are compared up to their logs (**Render.UpToLog**), through all stages and the
components inside.

* **Render.text_call** — a text with a call in it, taken apart into what the stages do.
* **Render.text_of_substitute**, **Render.text_of_values** — a text that is a call once its values
  are put in, and one that has no directives.
* **Render.UpToLog.text_call** — what is told of the components holds of the texts they stand in.
* **Engine.missing_concealed** — a page does not tell which component is missing.
-/

namespace HtmlViews

/-! ## A call behind literal text -/

namespace Render

variable {engine : Engine} {p w : Text} {c : Component.Call}

/-- The stages of a text with a call behind literal text. -/
theorem text_call (hat : '@' ∉ p) (hbrace : '{' ∉ p) (hcall : Component.IsCall w c)
    (engine : Engine) (context : Context) (s : Text) :
    text engine context (p ++ (w ++ s)) = (do
      let t ← onVisit (Visit.withStore (Message.expand s))
      let shown ← component engine (text engine) c
      let t ← Component.expand (fun entry => onVisit (Visit.write entry))
        (component engine (text engine)) (Variable.substitute context t)
      through (stagesBehind engine context) (p ++ (shown ++ t))) := by
  -- Messages, variables and components are the stages that see the call as it is written; each of
  -- them passes the literal text and, except the last, the call.
  have hmessages :
      Message.expand (p ++ (w ++ s)) = (fun t => p ++ (w ++ t)) <$> Message.expand s := by
    unfold Message.expand
    rw [Text.expandM_append (beginsWith_message.passes hat _),
      Text.expandM_append (hcall.messages s), Functor.map_map]
  have hvalues : ∀ t, Variable.substitute context (p ++ (w ++ t)) =
      p ++ (w ++ Variable.substitute context t) := by
    intro t
    unfold Variable.substitute
    rw [Text.expand_append (beginsWith_placeholder.passes hbrace _),
      Text.expand_append (hcall.placeholders t)]
  have hcomponents : ∀ t, Component.expand (fun entry => onVisit (Visit.write entry))
      (component engine (text engine)) (p ++ (w ++ t)) = (do
        let shown ← component engine (text engine) c
        (fun t => p ++ (shown ++ t)) <$> Component.expand (fun entry => onVisit (Visit.write entry))
          (component engine (text engine)) t) := by
    intro t
    unfold Component.expand
    rw [Text.expandM_append (beginsWith_component.passes hat _),
      Text.expandM_of_some (hcall.read t), map_bind]
    refine bind_congr fun shown => ?_
    rw [Functor.map_map]
  rw [text_eq, pass_eq_stagesBehind, hmessages, Visit.withStore_map, onVisit_map, bind_map_left]
  refine bind_congr fun t => ?_
  rw [hvalues, hcomponents, bind_assoc]
  refine bind_congr fun shown => ?_
  rw [bind_map_left]

/-- A text that is a call once its values are put in shows the component, taken through the stages
behind. -/
theorem text_of_substitute {context : Context} {w' : Text}
    (hmessages : Passes Message.reader.read w []) (hvalues : Variable.substitute context w = w')
    (hread : Component.reader.read w' = some (.call c, [])) (engine : Engine) :
    text engine context w = (do
      let shown ← component engine (text engine) c
      through (stagesBehind engine context) shown) := by
  have hmessage : Message.expand w = pure w := Text.expandM_of_passes hmessages _
  have hcomponent : Component.expand (fun entry => onVisit (Visit.write entry))
      (component engine (text engine)) w' = component engine (text engine) c := by
    rw [Component.expand, Text.expandM_of_some hread]
    simp
  rw [text_eq, pass_eq_stagesBehind, hmessage, Visit.withStore_pure, onVisit_pure, pure_bind,
    hvalues, hcomponent]

/-- A text without directives, also in its values, is rendered by putting its values in. -/
theorem text_of_values {context : Context} {s : Text} (hat : '@' ∉ s)
    (hvalues : '@' ∉ Variable.substitute context s) (engine : Engine) :
    text engine context s = pure (Variable.substitute context s) := by
  have hmessage : Message.expand s = pure s :=
    Text.expandM_of_passes (beginsWith_message.passes hat []) _
  have hcomponent : Component.expand (fun entry => onVisit (Visit.write entry))
      (component engine (text engine)) (Variable.substitute context s) =
        pure (Variable.substitute context s) :=
    Text.expandM_of_passes (beginsWith_component.passes hvalues []) _
  rw [text_eq, pass_eq_stagesBehind, hmessage, Visit.withStore_pure, onVisit_pure, pure_bind,
    hcomponent, pure_bind, through_of_not_mem hvalues]

/-- Two texts that differ in a call look the same if the components do. -/
theorem UpToLog.text_call {stack stack' : CallStack} (hnesting : stack.SameNesting stack')
    (hat : '@' ∉ p) (hbrace : '{' ∉ p) {w' : Text} {c' : Component.Call}
    (hcall : Component.IsCall w c) (hcall' : Component.IsCall w' c')
    (hcomponent : UpToLog stack stack' (Render.component engine (Render.text engine) c)
      (Render.component engine (Render.text engine) c')) (context : Context) (s : Text) :
    UpToLog stack stack' (Render.text engine context (p ++ (w ++ s)))
      (Render.text engine context (p ++ (w' ++ s))) := by
  rw [Render.text_call hat hbrace hcall, Render.text_call hat hbrace hcall']
  refine bind (step (.messages s)) fun t => ?_
  refine bind hcomponent fun shown => ?_
  refine bind (compositional.components step (component_text hnesting) _) fun t => ?_
  exact through_stagesBehind context _

/-- Without details, the places of two components that are not there look the same. -/
theorem UpToLog.component_missing {stack stack' : CallStack}
    (hdebug : engine.config.isDebug = false) {inner inner' : Context → Text → Render Text}
    {c c' : Component.Call} (hc : engine.component? c.name = none)
    (hc' : engine.component? c'.name = none) :
    UpToLog stack stack' (Render.component engine inner c)
      (Render.component engine inner' c') := by
  intro visit visit' hsession
  rw [exec_component_of_none hc, exec_component_of_none hc']
  refine contain ?_ visit visit' hsession
  rw [hdebug]
  rfl

end Render

namespace Engine

/-- **A page does not tell which component is missing** unless failures are shown in detail: two
texts that differ in the name of a component that is not there, behind literal text and in front of
any other text, give the same result and leave the same session, wherever they are rendered with as
many components around them; so do they as requests, and as templates. -/
theorem missing_concealed {e : Engine} (hdebug : e.config.isDebug = false) {n m : Text}
    (hn : n ≠ []) (hm : m ≠ []) (hname : ∀ c ∈ n, Component.isNamePart c = true)
    (hname' : ∀ c ∈ m, Component.isNamePart c = true) (hmissing : e.component? n = none)
    (hmissing' : e.component? m = none) {pre : Text} (hat : '@' ∉ pre) (hbrace : '{' ∉ pre)
    (post : Text) (context : Context) :
    (∀ stack stack', stack.SameNesting stack' →
      Render.UpToLog stack stack'
        (Render.text e context (pre ++ (Component.naming n ++ post)))
        (Render.text e context (pre ++ (Component.naming m ++ post)))) ∧
    Request.UpToLog (e.oneOff (pre ++ (Component.naming n ++ post)) context)
      (e.oneOff (pre ++ (Component.naming m ++ post)) context) ∧
    ∀ view view' t t', e.template? view = some t → e.template? view' = some t' →
      t.source.toList = pre ++ (Component.naming n ++ post) →
      t'.source.toList = pre ++ (Component.naming m ++ post) →
      Request.UpToLog (e.view view context) (e.view view' context) := by
  have htexts : ∀ stack stack', stack.SameNesting stack' →
      Render.UpToLog stack stack'
        (Render.text e context (pre ++ (Component.naming n ++ post)))
        (Render.text e context (pre ++ (Component.naming m ++ post))) := by
    intro stack stack' hnesting
    apply Render.UpToLog.text_call hnesting hat hbrace (Component.isCall_naming hn hname)
      (Component.isCall_naming hm hname')
    exact .component_missing hdebug hmissing hmissing'
  refine ⟨htexts, ?_, ?_⟩
  · exact .run (htexts _ _ (.refl _))
  · intro view view' t t' ht ht' hsource hsource'
    apply Request.UpToLog.view ht ht'
    rw [hsource, hsource']
    exact htexts

/-- What stands behind the call consumes an error of the session and calls a third component that is
not there. -/
theorem missing_concealed_errors :
    let e := empty.setConfig ⟨Dict.empty.insert "APP_DEBUG" "Off"⟩
    let page name := "<p>".toList ++
      (Component.naming name ++ "@errors('f')@component('foot')</p>".toList)
    let visit : Visit :=
      { session := { store := Store.empty.addError "f" "no", csrf := .constant "t" } }
    (e.config.isDebug = false ∧ e.component? "nav/top".toList = none ∧
        e.component? "side-bar".toList = none) ∧
      ((e.oneOff (page "nav/top".toList) .empty).exec visit).1 =
        ((e.oneOff (page "side-bar".toList) .empty).exec visit).1 ∧
      ((e.oneOff (page "nav/top".toList) .empty).exec visit).2.session =
        ((e.oneOff (page "side-bar".toList) .empty).exec visit).2.session := by
  intro e page visit
  have hdebug : e.config.isDebug = false := by decide
  have hname : ∀ c ∈ "nav/top".toList, Component.isNamePart c = true :=
    List.all_eq_true.mp (by decide +kernel)
  have hname' : ∀ c ∈ "side-bar".toList, Component.isNamePart c = true :=
    List.all_eq_true.mp (by decide +kernel)
  have hat : '@' ∉ "<p>".toList := by decide
  have hbrace : '{' ∉ "<p>".toList := by decide
  have hconcealed := missing_concealed hdebug (by decide) (by decide) hname hname' rfl rfl hat
    hbrace "@errors('f')@component('foot')</p>".toList .empty
  exact ⟨⟨hdebug, rfl, rfl⟩, hconcealed.2.1 visit visit rfl⟩

end Engine

end HtmlViews
