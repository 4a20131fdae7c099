import HtmlViews.Proofs.Engine.Request
import HtmlViews.Proofs.Render.Stages

/-!
# Literal text

Every directive begins with an `@` and every placeholder with a brace. So a text without these
characters is literal: it stays as it is, also in front of a template, and what it stands in front
of is rendered as if it were alone.

That a literal text is passed by a stage follows from the character that everything begins with
which the stage can find. This holds for each stage alone, and a pass is its stages in a row
(**Render.through_of_keeps**). What the stages do with the text behind is not looked at: they do the
same as if nothing stood before it, with the same effects, so the statement is an equation between
computations.

* **Render.pass_append** — a pass keeps literal text in front of a template.
* **Render.literal_transparent** — so does a render, from whatever state it starts.
* **Render.text_append**, **Render.text_nil** — a render with literal text in front, and of nothing.
-/

namespace HtmlViews.Render

variable {p : Text}

/-- No stage reads a text without `@` and brace, whatever stands behind it. -/
theorem unread_of_not_mem (hat : '@' ∉ p) (hbrace : '{' ∉ p) (s : Text) : Unread p s :=
  { unreadBehind_of_not_mem hat s with
    placeholders := beginsWith_placeholder.passes hbrace s
    components := beginsWith_component.passes hat s }

/-- A pass keeps literal text in front of a template, however components are rendered. -/
theorem pass_append (hat : '@' ∉ p) (hbrace : '{' ∉ p) (engine : Engine)
    (inner : Context → Text → Render Text) (context : Context) (s : Text) :
    pass engine inner context (p ++ s) = (p ++ ·) <$> pass engine inner context s := by
  have hmessages : Message.expand (p ++ s) = (p ++ ·) <$> Message.expand s :=
    Text.expandM_append (beginsWith_message.passes hat s) _
  have hlater : ∀ s, through (laterStages engine inner context) (p ++ s) =
      (p ++ ·) <$> through (laterStages engine inner context) s := by
    apply through_append
    intro stage hstage s
    exact (unread_of_not_mem hat hbrace s).keeps stage hstage
  rw [pass_eq, pass_eq, hmessages, Visit.withStore_map, onVisit_map, bind_map_left, map_bind]
  congr 1
  funext s
  exact hlater s

/-- Nothing is made of the empty text in a pass. -/
theorem pass_nil (engine : Engine) (inner : Context → Text → Render Text) (context : Context) :
    pass engine inner context [] = pure [] := by
  have hmessages : Message.expand [] = pure [] := Text.expandM_nil _
  rw [pass_eq, hmessages, Visit.withStore_pure, onVisit_pure, pure_bind]
  exact through_of_unread (unread_of_not_mem List.not_mem_nil List.not_mem_nil [])

/-- A literal text in front of a text is kept when that is rendered. -/
theorem text_append (hat : '@' ∉ p) (hbrace : '{' ∉ p) (engine : Engine) (context : Context)
    (s : Text) : text engine context (p ++ s) = (p ++ ·) <$> text engine context s := by
  unfold text
  rw [map_bind]
  congr 1
  funext stack
  exact pass_append hat hbrace engine _ context s

/-- The empty text is rendered to itself. -/
theorem text_nil (engine : Engine) (context : Context) : text engine context [] = pure [] := by
  apply ext
  intro st
  unfold text
  rw [exec_bind_of_ok (exec_stack st), pass_nil]

/-- **Literal text in front of a template is transparent**: a render puts it in front of what the
template renders to, or fails in the same way, and leaves the same state; so does the render of a
text on its own. Without a template behind it, literal text is rendered as it is, and the state
stays as it was; and so is a template that is literal text. -/
theorem literal_transparent (hat : '@' ∉ p) (hbrace : '{' ∉ p) (engine : Engine)
    (context : Context) (s : Text) :
    (∀ st, (text engine context (p ++ s)).exec st =
      (((text engine context s).exec st).1.map (p ++ ·), ((text engine context s).exec st).2)) ∧
    (∀ visit, (engine.oneOff (p ++ s) context).exec visit =
      (((engine.oneOff s context).exec visit).1.map (p ++ ·),
        ((engine.oneOff s context).exec visit).2)) ∧
    (∀ st, (text engine context p).exec st = (.ok p, st)) ∧
    (∀ visit, (engine.oneOff p context).exec visit = (.ok p, visit)) ∧
    ∀ name t visit, engine.template? name = some t → t.source.toList = p →
      (engine.view name context).exec visit =
        (.ok ⟨p, .rendered⟩, { visit with log := visit.log ++ [.view name] }) := by
  have happend : ∀ s st, (text engine context (p ++ s)).exec st =
      (((text engine context s).exec st).1.map (p ++ ·),
        ((text engine context s).exec st).2) := by
    intro s st
    rw [text_append hat hbrace, exec_map]
  have hliteral : ∀ st, (text engine context p).exec st = (.ok p, st) := by
    intro st
    have h := happend [] st
    rw [text_nil, exec_pure, List.append_nil] at h
    exact h.trans (by simp [Except.map])
  refine ⟨happend s, ?_, hliteral, ?_, ?_⟩
  · intro visit
    unfold Engine.oneOff
    rw [Request.exec_run, Request.exec_run, happend]
  · intro visit
    unfold Engine.oneOff
    rw [Request.exec_run, hliteral]
  · intro name t visit htemplate hsource
    rw [Engine.exec_view htemplate, hsource]
    refine Request.exec_bind_of_ok ?_ _
    rw [Request.exec_run, hliteral]

/-- Text with signs of other kinds, in front of a directive that consumes an error. -/
theorem literal_transparent_signs :
    let p := "a\x7d $x ('f')! ".toList
    let s := "@errors('f')".toList
    let visit : Visit :=
      { session := { store := Store.empty.addError "f" "no", csrf := .constant "t" } }
    ('@' ∉ p ∧ '{' ∉ p) ∧ ((Engine.empty.oneOff (p ++ s) .empty).exec visit).1.toOption =
      some (p ++ "no".toList) := by
  intro p s visit
  have hat : '@' ∉ p := by decide
  have hbrace : '{' ∉ p := by decide
  refine ⟨⟨hat, hbrace⟩, ?_⟩
  rw [(literal_transparent hat hbrace .empty .empty s).2.1 visit]
  decide +kernel

end HtmlViews.Render
