import HtmlViews.Proofs.Directive.Written

/-!
# Stages that only delete

Blocks and switches select among parts of themselves. So whatever a text is, well-formed or not, its
expansion has no character that does not stand in the text, and has them in the same order.

Of one find it is shown that what takes its place is a part of what was read there: of a block its
branch, of a switch the content of a case, of an unfinished directive itself. What was read is known
from **Conditional.Found.Written** and **Switch.Found.Written**. A search that replaces each find by
a part of it then leaves a part of the whole text, by induction on the text
(**Text.expand_sublist**). Blocks are expanded again inside of their branches, so for them the
induction is on the length, and parts of parts are parts.

* **Text.expand_sublist** — finds that are replaced by parts of themselves.
* **Conditional.expand_sublist**, **Switch.expand_sublist** — what the two stages leave of a text.
* **Switch.select_isInfix** — a switch shows a part of its body as it stands.
* **blocks_only_delete** — both stages.
-/

namespace HtmlViews

/-! ## Replacing finds by parts of them -/

section Replacing

variable {α : Type} {reader : Reader α}

/-- The lines that are written while finds are replaced make no difference to the text. -/
theorem Logged.value_expandM (reader : Reader α) (f : α → Logged Text) (s : Text) :
    (Text.expandM reader f s).value = Text.expand reader (fun a => (f a).value) s := by
  fun_induction Text.pieces reader s with
  | case1 => simp
  | case2 c s a r hread ih =>
    rw [Text.expandM_of_some hread]
    simp [ih, Text.expand, Text.pieces_of_some hread, Piece.text]
  | case3 c s hread ih =>
    rw [Text.expandM_cons_of_none hread]
    simp [ih, Text.expand, Text.pieces_cons_of_none hread, Piece.text]

/-- A search that replaces every find by a part of it only deletes. -/
theorem Text.expand_sublist {shown : α → Text}
    (h : ∀ s a r, reader.read s = some (a, r) → ∃ taken, s = taken ++ r ∧ (shown a).Sublist taken)
    (s : Text) : (expand reader shown s).Sublist s := by
  fun_induction pieces reader s with
  | case1 => simp
  | case2 c s a r hread ih =>
    obtain ⟨taken, hs, hshown⟩ := h _ _ _ hread
    rw [expand, pieces_of_some hread, List.flatMap_cons, hs]
    exact hshown.append ih
  | case3 c s hread ih =>
    rw [expand, pieces_cons_of_none hread, List.flatMap_cons]
    exact ih.cons_cons c

end Replacing

/-! ## Conditional blocks -/

namespace Conditional

/-- Each branch of a block stands in it, perhaps with other parts of the block in between. -/
theorem Found.Written.branch_sublist {b : Block} {written : Text}
    (h : (Found.block b).Written written) (holds : Bool) : (b.branch holds).Sublist written := by
  cases h with
  | @block condition whenTrue whenFalse body htrue hfalse =>
    have hbody : body <:+: Mark.opening.text ++ (condition ++ ')' :: (body ++ Mark.ending.text)) :=
      ⟨Mark.opening.text ++ condition ++ [')'], Mark.ending.text, by simp⟩
    cases holds with
    | true => exact htrue.trans hbody.sublist
    | false => exact hfalse.trans hbody.sublist

/-- What is left of a text with blocks are characters of it, in their order. -/
theorem expand_sublist (context : Context) (s : Text) : (expand context s).value.Sublist s := by
  fun_induction expand context s with
  | case1 => exact .slnil
  | case2 c s _ ih => exact ih.cons_cons c
  | case3 c s r hread ih =>
    obtain ⟨_, ⟨⟩, hs⟩ := Found.exists_written hread
    rw [hs]
    exact ih.append_left Mark.opening.text
  | case4 c s condition r hread ih =>
    obtain ⟨_, ⟨⟩, hs⟩ := Found.exists_written hread
    show (Mark.opening.text ++ condition ++ ')' :: (expand context r).value).Sublist _
    rw [hs, List.append_cons]
    exact ih.append_left _
  | case5 c s b r hread ihBranch ihRest =>
    obtain ⟨written, hwritten, hs⟩ := Found.exists_written hread
    rw [hs]
    have hkept := (ihBranch (isTrue context b.condition).value).trans (hwritten.branch_sublist _)
    exact hkept.append ihRest

end Conditional

/-! ## Switches -/

namespace Switch

/-- The content of a case and what follows the case stand in the text that it is found in. -/
theorem Case.isInfix_of_next? {s r : Text} {c : Case} (h : Case.next? s = .ok (some (c, r))) :
    c.content <:+: s ∧ r <:+ s := by
  obtain ⟨front, rfl⟩ := Case.exists_front_of_next? h
  refine ⟨⟨front ++ "@case(".toList ++ c.value ++ [')'], "@break".toList ++ r, ?_⟩,
    front ++ "@case(".toList ++ c.value ++ ')' :: (c.content ++ "@break".toList), ?_⟩
  · simp
  · simp

/-- The content of the case that is found stands in the text. -/
theorem findCase_isInfix (context : Context) (subject s : Text) :
    ∀ content ∈ (findCase context subject s).value, content <:+: s := by
  fun_induction findCase context subject s with
  | case1 => simp
  | case2 s reason _ => simp
  | case3 s c r hnext _ =>
    rintro content ⟨⟩
    exact (Case.isInfix_of_next? hnext).1
  | case4 s c r hnext _ ih =>
    intro content hcontent
    exact (ih content hcontent).trans (Case.isInfix_of_next? hnext).2.isInfix

/-- The content of the default stands in the body. -/
theorem defaultContent_isInfix (body : Text) : defaultContent body <:+: body := by
  unfold defaultContent
  split
  case h_1 => exact List.nil_infix
  case h_2 front content hcut =>
    have hcontent : content <:+ body :=
      ⟨front ++ "@default".toList, (Text.eq_of_cut? hcut).symm⟩
    cases hend : Text.before? "@break".toList (Text.trimEnd content) with
    | none => exact hcontent.isInfix
    | some shown =>
      have hshown : shown <+: Text.trimEnd content :=
        ⟨"@break".toList, (Text.before?_eq_some_iff.mp hend).symm⟩
      exact (hshown.trans (Text.dropEnd_isPrefix isBlank content)).isInfix.trans hcontent.isInfix

/-- A switch shows a part of its body as it stands. -/
theorem select_isInfix (context : Context) (subject body : Text) :
    (select context subject body).value <:+: body := by
  have hcase := findCase_isInfix context subject body
  rw [select, Logged.value_bind]
  cases hfind : (findCase context subject body).value with
  | none => exact defaultContent_isInfix body
  | some content => exact hcase content hfind

/-- What a directive leaves in the page is a part of it. -/
theorem Found.Written.show_sublist {a : Found} {written : Text} (h : a.Written written)
    (context : Context) : (a.show context).value.Sublist written := by
  cases h with
  | block subject body =>
    have hbody : body <:+: opening ++ (subject ++ ')' :: (body ++ "@endswitch".toList)) :=
      ⟨opening ++ subject ++ [')'], "@endswitch".toList, by simp⟩
    exact ((select_isInfix context _ body).trans hbody).sublist
  | endless subject => exact List.Sublist.refl _
  | unclosed => exact List.Sublist.refl _

/-- What is left of a text with switches are characters of it, in their order. -/
theorem expand_sublist (context : Context) (s : Text) : (expand context s).value.Sublist s := by
  rw [expand, Logged.value_expandM]
  apply Text.expand_sublist
  intro s a r hread
  obtain ⟨written, hwritten, hs⟩ := Found.exists_written hread
  exact ⟨written, hs, hwritten.show_sublist context⟩

end Switch

/-- **Blocks and switches only delete**: whatever a text is, well-formed or not, and however deep
directives are nested in it, what its expansion leaves are characters of the text in their order;
none is put in, repeated or moved. -/
theorem blocks_only_delete (context : Context) (s : Text) :
    (Conditional.expand context s).value.Sublist s ∧ (Switch.expand context s).value.Sublist s :=
  ⟨Conditional.expand_sublist context s, Switch.expand_sublist context s⟩

end HtmlViews
