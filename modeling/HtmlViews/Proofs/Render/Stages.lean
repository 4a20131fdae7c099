import HtmlViews.Proofs.Conditional.Scan
import HtmlViews.Proofs.Render.Composition
import HtmlViews.Render.Pass

/-!
# The stages of a pass

A pass takes a text through one stage after the other. A part of the text in which a stage finds
nothing is kept by that stage, and takes no effect.

What a stage keeps is said by an equation (**Render.Keeps**): with a part in front, the stage does
what it does without it and puts the part in front of the result. For stages without effects this is
a property of a function on texts, and it is carried over to stages that write lines, work on the
store or ask for tokens by mapping their results. A part that every stage keeps is kept by all of
them in a row.

Two lists of stages are used: those behind messages, and those behind components, which do not
render anything and so do not depend on how components are rendered.

* **Render.laterStages** — the stages behind that of messages.
* **Render.stagesBehind** — the stages behind that of components.
* **Render.pass_eq** — a pass puts messages in and takes the text through these stages.
* **Render.Unread** — that none of these stages finds anything in a part of a text.
* **Render.Unread.keeps** — each of them keeps such a part.
-/

namespace HtmlViews

/-! ## What the directives begin with -/

/-- Blocks of messages begin with an at sign. -/
theorem beginsWith_message : BeginsWith Message.reader.read '@' :=
  beginsWith_bind rfl _

/-- Placeholders begin with a brace. -/
theorem beginsWith_placeholder : BeginsWith placeholderReader.read '{' :=
  beginsWith_bind rfl _

/-- Calls of components begin with an at sign. -/
theorem beginsWith_component : BeginsWith Component.reader.read '@' :=
  beginsWith_map rfl _

/-- Loops begin with an at sign. -/
theorem beginsWith_loop : BeginsWith Loop.reader.read '@' :=
  beginsWith_bind rfl _

/-- Conditionals begin with an at sign. -/
theorem beginsWith_conditional : BeginsWith Conditional.Found.read? '@' :=
  beginsWith_map rfl _

/-- Switches begin with an at sign. -/
theorem beginsWith_switch : BeginsWith Switch.reader.read '@' :=
  beginsWith_map rfl _

/-- Directives with an argument begin as their name does. -/
theorem beginsWith_argument {start : Text} {d : Char} (h : start.head? = some d) :
    BeginsWith (argumentReader start).read d :=
  beginsWith_bind h _

/-! ## Stages with a search of their own -/

/-- A text without the directive of tokens is kept in front of another one. -/
theorem Csrf.expand_of_passes {p s : Text} (h : Passes (Reader.literal directive).read p s) :
    expand (p ++ s) = (p ++ ·) <$> expand s := by
  funext provider
  show expand (p ++ s) provider = ((p ++ (expand s provider).1), (expand s provider).2)
  unfold expand
  rw [Text.cut?_append (by decide) h, Option.isSome_map]
  by_cases hcut : (Text.cut? directive s).isSome = true
  · simp only [if_pos hcut, Text.replaceAll, Text.expand_append h]
  · rw [if_neg hcut, if_neg hcut]

/-! ## Steps that are mapped -/

section Maps

variable {α β : Type}

namespace Visit

/-- A result may be mapped before or after its lines are written. -/
theorem logged_map (f : α → β) (x : Logged α) : logged (f <$> x) = f <$> logged x := by
  funext v
  show (f x.value, { v with log := v.log ++ (f <$> x).log }) = _
  rw [Logged.log_map]
  rfl

/-- A result may be mapped before or after the store is put back. -/
theorem withStore_map (f : α → β) (x : StateT Store Logged α) :
    withStore (f <$> x) = f <$> withStore x := by
  funext v
  simp only [withStore, StateT.run_map, Logged.value_map, Logged.log_map]
  rfl

/-- A result may be mapped before or after the provider is put back. -/
theorem withCsrf_map (f : α → β) (x : StateM CsrfProvider α) :
    withCsrf (f <$> x) = f <$> withCsrf x :=
  rfl

/-- What writes nothing changes nothing. -/
theorem logged_pure (a : α) : logged (pure a) = pure a := by
  funext v
  simp [logged]
  rfl

/-- A value alone leaves the store as it is. -/
theorem withStore_pure (a : α) : withStore (pure a) = pure a := by
  funext v
  simp [withStore]
  rfl

end Visit

/-- A result may be mapped within a step or behind it. -/
theorem Render.onVisit_map (f : α → β) (x : StateM Visit α) :
    onVisit (f <$> x) = f <$> onVisit x :=
  rfl

/-- A value alone is no step. -/
theorem Render.onVisit_pure (a : α) : onVisit (pure a) = pure a :=
  rfl

end Maps

/-! ## Stages -/

namespace Render

/-- The stages behind that of messages, in their order. -/
def laterStages (engine : Engine) (inner : Context → Text → Render Text) (context : Context) :
    List (Text → Render Text) :=
  [fun s => pure (Variable.substitute context s),
    Component.expand (fun entry => onVisit (Visit.write entry)) (component engine inner),
    fun s => pure (Loop.expand context s),
    fun s => onVisit (Visit.logged (Conditional.expand context s)),
    fun s => onVisit (Visit.logged (Switch.expand context s)),
    fun s => pure (Url.expandAssets engine.config s),
    fun s => pure (Url.expandImages engine.config s),
    fun s => onVisit (Visit.withStore (Validation.expand s)),
    fun s => onVisit (Visit.withCsrf (Csrf.expand s))]

/-- The stages behind that of components, in their order. They do not render other templates. -/
def stagesBehind (engine : Engine) (context : Context) : List (Text → Render Text) :=
  [fun s => pure (Loop.expand context s),
    fun s => onVisit (Visit.logged (Conditional.expand context s)),
    fun s => onVisit (Visit.logged (Switch.expand context s)),
    fun s => pure (Url.expandAssets engine.config s),
    fun s => pure (Url.expandImages engine.config s),
    fun s => onVisit (Visit.withStore (Validation.expand s)),
    fun s => onVisit (Visit.withCsrf (Csrf.expand s))]

/-- A text taken through one stage after the other. -/
def through (stages : List (Text → Render Text)) (s : Text) : Render Text :=
  stages.foldlM (fun s stage => stage s) s

variable {engine : Engine} {inner : Context → Text → Render Text} {context : Context}

/-- A pass puts messages in and takes the text through the other stages. -/
theorem pass_eq (engine : Engine) (inner : Context → Text → Render Text) (context : Context)
    (s : Text) :
    pass engine inner context s = (do
      let s ← onVisit (Visit.withStore (Message.expand s))
      through (laterStages engine inner context) s) := by
  simp [pass, through, laterStages]

/-- Behind messages come variables, components, and the stages behind these. -/
theorem laterStages_eq (engine : Engine) (inner : Context → Text → Render Text)
    (context : Context) :
    laterStages engine inner context =
      (fun s => pure (Variable.substitute context s)) ::
        Component.expand (fun entry => onVisit (Visit.write entry)) (component engine inner) ::
          stagesBehind engine context :=
  rfl

/-- A pass renders the components of a text with messages and values in it, and takes it through the
stages behind. -/
theorem pass_eq_stagesBehind (engine : Engine) (inner : Context → Text → Render Text)
    (context : Context) (s : Text) :
    pass engine inner context s = (do
      let s ← onVisit (Visit.withStore (Message.expand s))
      let s ← Component.expand (fun entry => onVisit (Visit.write entry)) (component engine inner)
        (Variable.substitute context s)
      through (stagesBehind engine context) s) := by
  simp [pass, through, stagesBehind]

/-- Whether no stage behind that of messages finds anything in `p` when `s` stands behind it. -/
structure Unread (p s : Text) : Prop where
  placeholders : Passes placeholderReader.read p s
  components : Passes Component.reader.read p s
  loops : Passes Loop.reader.read p s
  conditionals : Passes Conditional.Found.read? p s
  switches : Passes Switch.reader.read p s
  assets : Passes (argumentReader "@assets(".toList).read p s
  images : Passes (argumentReader "@images(".toList).read p s
  errors : Passes Validation.reader.read p s
  tokens : Passes (Reader.literal Csrf.directive).read p s

/-- Whether a stage keeps `p` in front of `s`. -/
def Keeps (p s : Text) (stage : Text → Render Text) : Prop :=
  stage (p ++ s) = (p ++ ·) <$> stage s

/-- A stage without effect keeps what its function keeps. -/
theorem keeps_pure {p s : Text} {f : Text → Text} (h : f (p ++ s) = p ++ f s) :
    Keeps p s fun s => pure (f s) := by
  simp [Keeps, h]

/-- A stage that writes lines keeps what its function keeps. -/
theorem keeps_logged {p s : Text} {k : Text → Logged Text} (h : k (p ++ s) = (p ++ ·) <$> k s) :
    Keeps p s fun s => onVisit (Visit.logged (k s)) := by
  show onVisit (Visit.logged (k (p ++ s))) = _
  rw [h, Visit.logged_map, onVisit_map]

/-- A stage that works on the store keeps what its function keeps. -/
theorem keeps_withStore {p s : Text} {k : Text → StateT Store Logged Text}
    (h : k (p ++ s) = (p ++ ·) <$> k s) :
    Keeps p s fun s => onVisit (Visit.withStore (k s)) := by
  show onVisit (Visit.withStore (k (p ++ s))) = _
  rw [h, Visit.withStore_map, onVisit_map]

/-- A stage that asks for tokens keeps what its function keeps. -/
theorem keeps_withCsrf {p s : Text} {k : Text → StateM CsrfProvider Text}
    (h : k (p ++ s) = (p ++ ·) <$> k s) :
    Keeps p s fun s => onVisit (Visit.withCsrf (k s)) := by
  show onVisit (Visit.withCsrf (k (p ++ s))) = _
  rw [h, Visit.withCsrf_map, onVisit_map]

/-- Whether no stage behind that of components finds anything in `p` when `s` stands behind it. -/
structure UnreadBehind (p s : Text) : Prop where
  loops : Passes Loop.reader.read p s
  conditionals : Passes Conditional.Found.read? p s
  switches : Passes Switch.reader.read p s
  assets : Passes (argumentReader "@assets(".toList).read p s
  images : Passes (argumentReader "@images(".toList).read p s
  errors : Passes Validation.reader.read p s
  tokens : Passes (Reader.literal Csrf.directive).read p s

/-- What no stage behind messages reads, no stage behind components reads. -/
theorem Unread.behind {p s : Text} (h : Unread p s) : UnreadBehind p s :=
  { h with }

/-- Every directive of these stages begins with an `@`. -/
theorem unreadBehind_of_not_mem {p : Text} (hat : '@' ∉ p) (s : Text) : UnreadBehind p s where
  loops := beginsWith_loop.passes hat s
  conditionals := beginsWith_conditional.passes hat s
  switches := beginsWith_switch.passes hat s
  assets := (beginsWith_argument rfl).passes hat s
  images := (beginsWith_argument rfl).passes hat s
  errors := (beginsWith_argument rfl).passes hat s
  tokens := (beginsWith_literal rfl).passes hat s

/-- What no stage behind components reads, all of them keep. -/
theorem UnreadBehind.keeps {p s : Text} (h : UnreadBehind p s) :
    ∀ stage ∈ stagesBehind engine context, Keeps p s stage := by
  intro stage hstage
  simp only [stagesBehind, List.mem_cons, List.not_mem_nil, or_false] at hstage
  rcases hstage with rfl | rfl | rfl | rfl | rfl | rfl | rfl
  · exact keeps_pure (Text.expand_append h.loops _)
  · exact keeps_logged (Conditional.expand_of_passes h.conditionals _)
  · exact keeps_logged (Text.expandM_append h.switches _)
  · exact keeps_pure (Text.expand_append h.assets _)
  · exact keeps_pure (Text.expand_append h.images _)
  · exact keeps_withStore (Text.expandM_append h.errors _)
  · exact keeps_withCsrf (Csrf.expand_of_passes h.tokens)

/-- A part that no stage reads is kept by each of them. -/
theorem Unread.keeps {p s : Text} (h : Unread p s) :
    ∀ stage ∈ laterStages engine inner context, Keeps p s stage := by
  rw [laterStages_eq, List.forall_mem_cons, List.forall_mem_cons]
  refine ⟨?_, ?_, h.behind.keeps⟩
  · exact keeps_pure (Text.expand_append h.placeholders _)
  · exact Text.expandM_append h.components _

/-- The empty text stays empty. -/
theorem stagesBehind_nil : ∀ stage ∈ stagesBehind engine context, stage [] = pure [] := by
  intro stage hstage
  simp only [stagesBehind, List.mem_cons, List.not_mem_nil, or_false] at hstage
  rcases hstage with rfl | rfl | rfl | rfl | rfl | rfl | rfl
  · exact congrArg pure (Text.expand_nil _)
  · show onVisit (Visit.logged (Conditional.expand context [])) = _
    rw [Conditional.expand_nil, Visit.logged_pure, onVisit_pure]
  · show onVisit (Visit.logged (Switch.expand context [])) = _
    rw [Switch.expand, Text.expandM_nil, Visit.logged_pure, onVisit_pure]
  · exact congrArg pure (Text.expand_nil _)
  · exact congrArg pure (Text.expand_nil _)
  · show onVisit (Visit.withStore (Validation.expand [])) = _
    rw [Validation.expand, Text.expandM_nil, Visit.withStore_pure, onVisit_pure]
  · rfl

/-- No stage makes anything of the empty text. -/
theorem laterStages_nil : ∀ stage ∈ laterStages engine inner context, stage [] = pure [] := by
  rw [laterStages_eq, List.forall_mem_cons, List.forall_mem_cons]
  refine ⟨?_, ?_, stagesBehind_nil⟩
  · exact congrArg pure (Text.expand_nil _)
  · exact Text.expandM_nil _

/-- What every stage keeps is taken through the stages as it is. -/
theorem through_of_keeps {stages : List (Text → Render Text)} {p : Text}
    (hnil : ∀ stage ∈ stages, stage [] = pure []) (h : ∀ stage ∈ stages, Keeps p [] stage) :
    through stages p = pure p := by
  induction stages with
  | nil => rfl
  | cons stage stages ih =>
    obtain ⟨hempty, hnil⟩ := List.forall_mem_cons.mp hnil
    obtain ⟨hkeeps, h⟩ := List.forall_mem_cons.mp h
    unfold Keeps at hkeeps
    rw [List.append_nil, hempty, map_pure, List.append_nil] at hkeeps
    rw [through, List.foldlM_cons, hkeeps, pure_bind]
    exact ih hnil h

/-- A text that no stage reads is taken through the stages as it is. -/
theorem through_of_unread {p : Text} (h : Unread p []) :
    through (laterStages engine inner context) p = pure p :=
  through_of_keeps laterStages_nil h.keeps

/-- A text without an `@` is taken through the stages behind that of components as it is. -/
theorem through_of_not_mem {p : Text} (hat : '@' ∉ p) :
    through (stagesBehind engine context) p = pure p :=
  through_of_keeps stagesBehind_nil (unreadBehind_of_not_mem hat []).keeps

/-- What every stage keeps in front of every text is kept by all of them. -/
theorem through_append {stages : List (Text → Render Text)} {p : Text}
    (h : ∀ stage ∈ stages, ∀ s, Keeps p s stage) (s : Text) :
    through stages (p ++ s) = (p ++ ·) <$> through stages s := by
  induction stages generalizing s with
  | nil => rw [through, through, List.foldlM_nil, List.foldlM_nil, map_pure]
  | cons stage stages ih =>
    rw [through, through, List.foldlM_cons, List.foldlM_cons, h stage List.mem_cons_self s,
      bind_map_left, map_bind]
    congr 1
    funext t
    apply ih
    intro stage hstage
    exact h stage (List.mem_cons_of_mem _ hstage)

end Render

/-! ## What holds of every stage -/

namespace Compositional

variable {R : ∀ {α : Type}, Render α → Render α → Prop}

/-- A relation that every stage has to itself is kept by a text that is taken through all of
them. -/
theorem through (h : Compositional Render R) {stages : List (Text → Render Text)}
    (hstages : ∀ stage ∈ stages, ∀ s, R (stage s) (stage s)) (s : Text) :
    R (Render.through stages s) (Render.through stages s) := by
  induction stages generalizing s with
  | nil => exact h.pure s
  | cons stage stages ih =>
    obtain ⟨hstage, hstages⟩ := List.forall_mem_cons.mp hstages
    rw [Render.through, List.foldlM_cons]
    exact h.bind (hstage s) (ih hstages)

/-- What is kept by composition holds of the stages behind that of components if it holds of the
steps of a pass. -/
theorem through_stagesBehind (h : Compositional Render R)
    (hstep : ∀ {α : Type} {x : StateM Visit α}, Visit.Step x →
      R (Render.onVisit x) (Render.onVisit x))
    {engine : Engine} (context : Context) (s : Text) :
    R (Render.through (Render.stagesBehind engine context) s)
      (Render.through (Render.stagesBehind engine context) s) := by
  apply h.through
  intro stage hstage s
  simp only [Render.stagesBehind, List.mem_cons, List.not_mem_nil, or_false] at hstage
  rcases hstage with rfl | rfl | rfl | rfl | rfl | rfl | rfl
  · exact h.pure _
  · exact hstep (.conditionals _ _)
  · exact hstep (.switches _ _)
  · exact h.pure _
  · exact h.pure _
  · exact hstep (.errors _)
  · exact hstep (.tokens _)

end Compositional

end HtmlViews
