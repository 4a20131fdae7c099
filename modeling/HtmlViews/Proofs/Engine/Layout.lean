import HtmlViews.Proofs.Engine.Request
import HtmlViews.Proofs.Variable.Placeholder

/-!
# Pages in layouts

A layout is a row of texts with places for the page between them. The page is put into each of these
places as it is, and is not searched for more of them; the whole is rendered like a text that was
written so. Without a place, or without the layout, a fragment is shown, and the page is gone.

Whether a layout has places for the page is asked of its text, and the text has no form of its own.
So the first step is that each text is a row of texts without a place and places between them
(**LayoutPage.exists_source_eq**); then a search finds just these places and puts the page into
them, whatever the page contains, since what was put in is not searched. The rest is the request:
the filled layout is rendered with a call stack of its own, and both failures leave a line in the
log and the session as it is.

* **LayoutPage** — a layout by its texts and its places.
* **LayoutPage.exists_source_eq** — each text is one.
* **LayoutPage.fillSlots_source**, **LayoutPage.hasSlot_source** — the places that a page finds.
* **Engine.exec_inLayout_of_places**, **Engine.exec_inLayout_of_no_place**,
  **Engine.exec_inLayout_of_missing** — what a layout makes of a page.
* **Engine.inLayout_spliced** — all of this for each engine, page, context and session.
-/

namespace HtmlViews

/-! ## Layouts by their places -/

/-- A layout: texts in which no place for the page is written, with such places between them. -/
abbrev LayoutPage : Type :=
  Interleaved (Without fun slot : Marker "slot".toList => slot.text) (Marker "slot".toList)

namespace LayoutPage

/-- The text of a layout. -/
def source (p : LayoutPage) : Text :=
  p.text fun slot => slot.text

/-- The texts of a layout with a page in each of its places. -/
def filled (p : LayoutPage) (content : Text) : Text :=
  p.text fun _ => content

/-- Each text is that of a layout. -/
theorem exists_source_eq (s : Text) : ∃ p : LayoutPage, p.source = s :=
  (recognises_marker "slot".toList).exists_text_eq s

/-- A page is put into each of the places, and nothing else is changed. -/
theorem fillSlots_source (p : LayoutPage) (content : Text) :
    fillSlots content p.source = p.filled content :=
  (recognises_marker "slot".toList).expand_text p fun _ => content

/-- A layout has a place for a page when one is written in it. -/
theorem hasSlot_source (p : LayoutPage) : hasSlot p.source = !p.parts.isEmpty := by
  have hmarker := recognises_marker "slot".toList
  obtain ⟨parts, last, hparts, hlast⟩ := p
  cases parts with
  | nil =>
    have hpasses : Passes slotReader.read last [] := hmarker.passes_nil hlast
    have hpieces := Text.pieces_append hpasses
    rw [List.append_nil, Text.pieces_nil, List.append_nil] at hpieces
    show (Text.pieces slotReader last).any _ = false
    rw [hpieces]
    simp
  | cons part parts =>
    obtain ⟨ht, -⟩ := List.forall_mem_cons.mp hparts
    have hpasses : ∀ s, Passes slotReader.read part.1 (part.2.text ++ s) :=
      hmarker.passes_spell ht part.2
    have hread : ∀ s, slotReader.read (part.2.text ++ s) = some ((), s) :=
      hmarker.read_spell part.2
    show (Text.pieces slotReader (part.1 ++ (part.2.text ++ _))).any _ = true
    rw [Text.pieces_append (hpasses _), Text.pieces_of_some (hread _)]
    simp

end LayoutPage

namespace Engine

variable {e : Engine} {name : String} {t : Template}

/-- A failure that is shown leaves a line behind, and the session as it is. -/
theorem exec_showFailure (e : Engine) (f : Failure) (visit : Visit) :
    (e.showFailure f).exec visit =
      (.ok (fragment f e.config.isDebug), { visit with log := visit.log ++ [.failed f] }) :=
  rfl

/-- A page in a layout with places for it is what the filled layout renders to, with a call stack of
its own. -/
theorem exec_inLayout_of_places (h : e.template? name = some t) {p : LayoutPage}
    (hsource : t.source.toList = p.source) (hplaces : p.parts ≠ []) (context : Context) (v : View)
    (visit : Visit) :
    (e.inLayout name context v).exec visit =
      (do
        let content ← Render.run (e.stack .layout name)
          (Render.text e context (p.filled v.content))
        pure ⟨content, .layoutWrapped⟩ : Request View).exec
          { visit with log := visit.log ++ [.layout name] } := by
  have hslot : hasSlot t.source.toList = true := by
    rw [hsource, p.hasSlot_source, List.isEmpty_eq_false_iff.mpr hplaces]
    rfl
  have hline := Request.exec_lift (Visit.write (.layout name)) visit
  unfold inLayout
  simp only [h, hslot, if_true]
  rw [hsource, p.fillSlots_source, Request.exec_bind_of_ok hline]
  rfl

/-- A page in a layout without a place for it is gone, and a fragment is shown. -/
theorem exec_inLayout_of_no_place (h : e.template? name = some t) {p : LayoutPage}
    (hsource : t.source.toList = p.source) (hplaces : p.parts = []) (context : Context) (v : View)
    (visit : Visit) :
    (e.inLayout name context v).exec visit =
      (.ok ⟨fragment (noSlot name) e.config.isDebug, .layoutWrapped⟩,
        { visit with log := visit.log ++ [.failed (noSlot name)] }) := by
  have hslot : hasSlot t.source.toList = false := by
    rw [hsource, p.hasSlot_source, hplaces]
    rfl
  unfold inLayout
  simp only [h, hslot]
  exact Request.exec_bind_of_ok (exec_showFailure e (noSlot name) visit) _

/-- A page in a layout that is missing is gone, and a fragment is shown. -/
theorem exec_inLayout_of_missing (h : e.template? name = none) (context : Context) (v : View)
    (visit : Visit) :
    (e.inLayout name context v).exec visit =
      (.ok ⟨fragment (.layoutNotFound name) e.config.isDebug, .layoutWrapped⟩,
        { visit with log := visit.log ++ [.failed (.layoutNotFound name)] }) := by
  unfold inLayout
  simp only [h]
  exact Request.exec_bind_of_ok (exec_showFailure e (.layoutNotFound name) visit) _

/-- Each page that comes out of a layout is marked as such. -/
theorem state_of_inLayout {context : Context} {v w : View} {visit visit' : Visit}
    (h : (e.inLayout name context v).exec visit = (.ok w, visit')) : w.state = .layoutWrapped := by
  cases ht : e.template? name with
  | none =>
    rw [exec_inLayout_of_missing ht] at h
    cases h
    rfl
  | some t =>
    obtain ⟨p, hsource⟩ := LayoutPage.exists_source_eq t.source.toList
    by_cases hplaces : p.parts = []
    · rw [exec_inLayout_of_no_place ht hsource.symm hplaces] at h
      cases h
      rfl
    · rw [exec_inLayout_of_places ht hsource.symm hplaces] at h
      obtain ⟨content, visit'', -, hpure⟩ := Request.exec_bind_eq_ok h
      cases hpure
      rfl

/-- **A page is put into a layout as it is.** Each layout is a row of texts with places between
them. If there is at least one place, then the page in the layout is what the texts render to with
the content of the page in all the places, with a call stack of its own and in the same context and
session, whatever the content is. If there is none, or no such layout, a fragment is shown and the
session is left as it is. Each page that comes out is marked. -/
theorem inLayout_spliced (e : Engine) (name : String) (context : Context) (v : View)
    (visit : Visit) :
    (∀ s, ∃ p : LayoutPage, p.source = s) ∧
      (∀ (t : Template) (p : LayoutPage), e.template? name = some t →
        t.source.toList = p.source →
          (p.parts ≠ [] →
            (e.inLayout name context v).exec visit =
              (do
                let content ← Render.run (e.stack .layout name)
                  (Render.text e context (p.filled v.content))
                pure ⟨content, .layoutWrapped⟩ : Request View).exec
                  { visit with log := visit.log ++ [.layout name] }) ∧
          (p.parts = [] →
            (e.inLayout name context v).exec visit =
              (.ok ⟨fragment (noSlot name) e.config.isDebug, .layoutWrapped⟩,
                { visit with log := visit.log ++ [.failed (noSlot name)] }))) ∧
      (e.template? name = none →
        (e.inLayout name context v).exec visit =
          (.ok ⟨fragment (.layoutNotFound name) e.config.isDebug, .layoutWrapped⟩,
            { visit with log := visit.log ++ [.failed (.layoutNotFound name)] })) ∧
      ∀ w visit', (e.inLayout name context v).exec visit = (.ok w, visit') →
        w.state = .layoutWrapped := by
  refine ⟨LayoutPage.exists_source_eq, ?_, ?_, ?_⟩
  · intro t p ht hsource
    constructor
    · intro hplaces
      exact exec_inLayout_of_places ht hsource hplaces context v visit
    · intro hplaces
      exact exec_inLayout_of_no_place ht hsource hplaces context v visit
  · intro hmissing
    exact exec_inLayout_of_missing hmissing context v visit
  · intro w visit' h
    exact state_of_inLayout h

/-- The content spells a group of a regular expression and a place for a page, and a brace stands in
front of a place and behind it. -/
theorem inLayout_spliced_signs :
    let layout := "<\x7b\x7b slot \x7d\x7d\x7b\x7b\x7bslot\x7d\x7d\x7d>"
    let e := empty.add "app" layout
    let context := Dict.empty.insert "slot" (.str "v")
    let v : View := ⟨"$1\x7b\x7bslot\x7d\x7d".toList, .rendered⟩
    let visit : Visit := { session := { store := .empty, csrf := .constant "t" } }
    (∃ p : LayoutPage, layout.toList = p.source ∧ p.parts ≠ []) ∧
      ((e.inLayout "app" context v).exec visit).1.toOption =
        some ⟨"<$1v\x7b$1v\x7d>".toList, .layoutWrapped⟩ ∧
      ((e.inLayout "gone" context v).exec visit).1.toOption =
        some ⟨fragment (.layoutNotFound "gone") e.config.isDebug, .layoutWrapped⟩ := by
  intro layout e context v visit
  obtain ⟨hpages, hfound, -, -⟩ := inLayout_spliced e "app" context v visit
  obtain ⟨-, -, hmissing, -⟩ := inLayout_spliced e "gone" context v visit
  obtain ⟨p, hp⟩ := hpages layout.toList
  have hplaces : p.parts ≠ [] := by
    have hslot : hasSlot layout.toList = true := by
      decide +kernel
    rw [← hp, p.hasSlot_source, Bool.not_eq_true'] at hslot
    exact List.isEmpty_eq_false_iff.mp hslot
  have hfilled : p.filled v.content =
      "<$1\x7b\x7bslot\x7d\x7d\x7b$1\x7b\x7bslot\x7d\x7d\x7d>".toList := by
    rw [← p.fillSlots_source, hp]
    decide +kernel
  have hview := (hfound { name := "app", path := none, source := layout } p rfl hp.symm).1 hplaces
  rw [hfilled] at hview
  refine ⟨⟨p, hp.symm, hplaces⟩, ?_, ?_⟩
  · rw [hview]
    decide +kernel
  · rw [hmissing rfl]
    rfl

end Engine

end HtmlViews
