import HtmlViews.Directive.Loop
import HtmlViews.Proofs.Dict
import HtmlViews.Proofs.Text.Interleaved

/-!
# Fields put into the body of a loop

The fields of an element are put into the body one after the other, and each looks for its
placeholder in what the ones before have left. So it comes to putting all of them in at once when no
value spells the placeholder of a field that is put in later; then their order does not matter
either. In general it does not come to that: a value that spells the placeholder of a later field is
filled in itself.

The proof replaces one placeholder after the other in a body of which some placeholders have given
way already (**Interleaved.foldl_replaceAll_text**). What it needs to know of the placeholders is
that none of them occurs in another one, or reaches into it. That is so if there are no braces in
the names: a placeholder begins with two braces and ends with two, so another one could only begin
at its first brace, and then both have the same name.

* **Loop.key_eq_of_fieldMark_isPrefix** — placeholders of different fields do not begin with each
  other.
* **Loop.freeOf_fieldMark** — the placeholder of one field does not occur in that of another one.
* **Loop.Body** — a body: placeholders of fields with texts between them.
* **Loop.Apart** — fields of which none meets the placeholder of a later one.
* **Loop.fillFields_written** — such fields, put in in their order.
* **Loop.renderItem_written** — the body with the values in the places of the placeholders.
-/

namespace HtmlViews

/-- Whether a text has no braces. -/
def Braceless (t : Text) : Prop :=
  '{' ∉ t ∧ '}' ∉ t

instance (t : Text) : Decidable (Braceless t) :=
  inferInstanceAs (Decidable (_ ∧ _))

namespace Loop

/-! ## Placeholders of fields -/

variable {item key key' : Text}

/-- A name ends at the brace behind it, so no placeholder is the beginning of another one. -/
theorem key_eq_of_fieldMark_isPrefix (hkey : '}' ∉ key) (hkey' : '}' ∉ key')
    (h : fieldMark item key <+: fieldMark item key') : key = key' := by
  obtain ⟨s, hs⟩ := h
  have hbehind : key ++ [' '] ++ (closeBraces ++ s) = key' ++ [' '] ++ closeBraces := by
    simpa [fieldMark] using hs
  have hname : ∀ {k r : Text}, '}' ∉ k →
      (k ++ [' '] ++ '}' :: r).takeWhile (· ≠ '}') = k ++ [' '] := by
    intro k r hk
    have hrun : ∀ c ∈ k ++ [' '], decide (c ≠ '}') = true := by
      intro c hc
      refine decide_eq_true ?_
      rintro rfl
      simp [hk] at hc
    exact Text.takeWhile_run hrun (by rintro c ⟨⟩; rfl)
  have hkeys := congrArg (List.takeWhile (· ≠ '}')) hbehind
  have hnames : key ++ [' '] = key' ++ [' '] :=
    (hname hkey).symm.trans (hkeys.trans (hname hkey'))
  exact List.append_cancel_right hnames

/-- The placeholder of a field does not occur in that of another one. -/
theorem freeOf_fieldMark (hitem : Braceless item) (hkey : Braceless key) (hkey' : Braceless key')
    (hne : key ≠ key') : FreeOf (fieldMark item key) (fieldMark item key') := by
  have hbrace : '{' ∉ ' ' :: item ++ '.' :: key' ++ ' ' :: closeBraces := by
    have hclosing : '{' ∉ closeBraces := by decide
    simp [hitem.1, hkey'.1, hclosing]
  have hsecond : ∀ {s t : Text}, ¬ '{' :: '{' :: s <+: '{' :: ' ' :: t := by
    intro s t h
    simp [List.cons_prefix_cons] at h
  have hsecond' : ∀ {s t : Text}, ¬ '{' :: ' ' :: t <+: '{' :: '{' :: s := by
    intro s t h
    simp [List.cons_prefix_cons] at h
  refine ⟨?_, ?_, hsecond, hsecond', freeOf_of_not_mem rfl hbrace⟩
  · exact fun h => hne (key_eq_of_fieldMark_isPrefix hkey.2 hkey'.2 h)
  · exact fun h => hne (key_eq_of_fieldMark_isPrefix hkey'.2 hkey.2 h).symm

/-! ## Bodies -/

/-- The placeholder of an entry. -/
def entryMark (item : Text) (e : String × Value) : Text :=
  fieldMark item e.1.toList

/-- A body: placeholders of entries, between texts in which none of them occurs or begins at the
end. -/
def Body (item : Text) (es : List (String × Value)) : Type :=
  Interleaved (fun t => ∀ e ∈ es, FreeOf (entryMark item e) t) { e // e ∈ es }

namespace Body

variable {es : List (String × Value)}

/-- The body as it is written. -/
def written (b : Body item es) : Text :=
  Interleaved.text (fun e => entryMark item e.1) b

/-- The body with the value of each entry in the places of its placeholder. -/
def shown (b : Body item es) : Text :=
  Interleaved.text (fun e => e.1.2.render) b

end Body

/-- Whether fields that are put in one after the other do not meet: no value spells the placeholder
of a field that is put in later, or ends in the beginning of it. -/
def Apart (item : Text) (fields : List (String × Value)) : Prop :=
  fields.Pairwise fun e e' => FreeOf (entryMark item e') e.2.render

instance (item : Text) (fields : List (String × Value)) : Decidable (Apart item fields) :=
  inferInstanceAs (Decidable (List.Pairwise _ _))

/-- Fields that are put in in some order, each of them once, come to all of them put in at once. -/
theorem fillFields_written (hitem : Braceless item) {fields ordered : List (String × Value)}
    (hkeys : ∀ e ∈ fields, Braceless e.1.toList) (hnodup : (fields.map Prod.fst).Nodup)
    (b : Body item fields) (hperm : ordered.Perm fields) (hapart : Apart item ordered) :
    fillFields item ordered b.written = b.shown := by
  have hmem : ∀ e ∈ ordered, e ∈ fields := fun _ => hperm.mem_iff.mp
  have hdistinct : ordered.Pairwise fun e e' => e.1 ≠ e'.1 :=
    List.pairwise_map.mp ((hperm.map Prod.fst).nodup_iff.mpr hnodup)
  have hmarks : ordered.Pairwise fun e e' => FreeOf (entryMark item e) (entryMark item e') := by
    refine hdistinct.imp_of_mem fun he he' hne => ?_
    exact freeOf_fieldMark hitem (hkeys _ (hmem _ he)) (hkeys _ (hmem _ he'))
      fun h => hne (String.toList_inj.mp h)
  have hnonempty : ∀ e ∈ ordered, entryMark item e ≠ [] :=
    fun _ _ => List.cons_ne_nil _ _
  have hpending : Interleaved.Replacing (entryMark item) (fun e => e.2.render)
      (Subtype.val : { e // e ∈ fields } → _) ordered (fun e => entryMark item e.1) :=
    fun e => .inl ⟨hperm.mem_iff.mpr e.2, rfl⟩
  exact Interleaved.foldl_replaceAll_text hnonempty (fun e he t ht => ht e (hmem e he)) hmarks
    hapart hpending b

/-- **The fields of an element are put in all at once**: each placeholder that is written in the
body gives way to the value of its field, whatever else the values spell. This holds

* if neither the name of the element nor the name of a field has braces in it,
* if no text of the body between the placeholders of fields ends in the beginning of a placeholder
  (such a beginning could go on in the value behind it), and
* if no value spells the placeholder of a field that is put in later, or ends in the beginning of
  it.

An object puts its fields in in the order of their names. If they are put in in any other order in
which the last condition holds, the outcome is the same. -/
theorem renderItem_written (hitem : Braceless item) {fields : Dict Value}
    (hkeys : ∀ e ∈ fields.entries, Braceless e.1.toList) (b : Body item fields.entries) :
    (Apart item fields.entries → renderItem b.written item (.object fields) = b.shown) ∧
      ∀ ordered : List (String × Value), ordered.Perm fields.entries → Apart item ordered →
        fillFields item ordered b.written = b.shown := by
  have hordered : ∀ ordered : List (String × Value), ordered.Perm fields.entries →
      Apart item ordered → fillFields item ordered b.written = b.shown := by
    intro ordered hperm hapart
    exact fillFields_written hitem hkeys fields.nodup_keys b hperm hapart
  -- An object puts its fields in as they stand in its dictionary.
  exact ⟨hordered fields.entries (.refl _), hordered⟩

/-- Values that spell their own placeholder and one that is none of the fields, in both orders, in a
body that also has another spelling. -/
theorem renderItem_written_reversed :
    let a : String × Value := ("a", .str "\x7b\x7b u.a \x7d\x7d")
    let b : String × Value := ("b", .str "\x7b\x7b u.d \x7d\x7d")
    let c : String × Value := ("c", .bool true)
    let body := "\x7b\x7bu.c\x7d\x7d \x7b\x7b u.b \x7d\x7d-\x7b\x7b u.a \x7d\x7d".toList ++
      "\x7b\x7b u.c \x7d\x7d".toList
    let shown := "\x7b\x7bu.c\x7d\x7d \x7b\x7b u.d \x7d\x7d-\x7b\x7b u.a \x7d\x7dtrue".toList
    renderItem body ['u'] (.object (.ofList [a, b, c])) = shown ∧
      fillFields ['u'] [c, b, a] body = shown := by
  intro a b c body shown
  let fields : Dict Value := .ofList [a, b, c]
  let page : Body ['u'] fields.entries :=
    { parts := [("\x7b\x7bu.c\x7d\x7d ".toList, ⟨b, Dict.find?_eq_some_iff.mp (by cbv)⟩),
        (['-'], ⟨a, Dict.find?_eq_some_iff.mp (by cbv)⟩),
        ([], ⟨c, Dict.find?_eq_some_iff.mp (by cbv)⟩)]
      last := []
      kind := by decide
      kind_last := fun _ _ => trivial }
  have hkeys : ∀ e ∈ fields.entries, Braceless e.1.toList := by decide
  have hwritten : page.written = body := by decide
  have hshown : page.shown = shown := by decide
  obtain ⟨hascending, hordered⟩ := renderItem_written (by decide) hkeys page
  rw [hwritten, hshown] at hascending
  simp only [hwritten, hshown] at hordered
  have hentries : fields.entries = [a, b, c] := by cbv
  have hperm : [c, b, a].Perm fields.entries := by
    rw [hentries]
    exact List.reverse_perm [a, b, c]
  exact ⟨hascending (by decide), hordered [c, b, a] hperm (by decide)⟩

/-- A field that is put in later is also put into the value of an earlier one that spells its
placeholder. -/
theorem not_forall_renderItem_written :
    ¬ ∀ (item : Text) (fields : Dict Value) (b : Body item fields.entries), Braceless item →
      (∀ e ∈ fields.entries, Braceless e.1.toList) →
      renderItem b.written item (.object fields) = b.shown := by
  intro h
  let a : String × Value := ("a", .str "\x7b\x7b u.b \x7d\x7d")
  let b : String × Value := ("b", .str "x")
  let page : Body ['u'] (Dict.ofList [a, b]).entries :=
    { parts := [([], ⟨a, Dict.find?_eq_some_iff.mp (by cbv)⟩)]
      last := []
      kind := by decide
      kind_last := fun _ _ => trivial }
  have hshown := h ['u'] (.ofList [a, b]) page (by decide) (by decide)
  exact absurd hshown (by decide +kernel)

end Loop

end HtmlViews
