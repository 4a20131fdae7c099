import HtmlViews.Proofs.Text.Search

/-!
# Directives between texts

A page is a sequence of texts with directives between them. A search keeps the texts, one behind the
other, and puts what it makes of each directive into the place of that directive.

Nearly every result about a stage is one about such a page: a text behind which nothing is read that
belongs to a directive, a directive that is read up to its end, and so on to the last text. What a
search makes of it is proved here once, by induction on the directives, for searches with effects;
searches without effects are those whose effects are none. Texts may be empty, so directives may
stand side by side.

Marks that are replaced one after the other are another matter, since the later ones are looked for
in what the earlier ones have left. The invariant (**Interleaved.Replacing**) says of each directive
that it is still spelled as its mark or has got its value, and that no mark which is still to come
occurs in what is there.

* **Interleaved** — directives, each with the text before it, and the text behind the last one.
* **Interleaved.text** — what is written, or what is shown, given that of each directive.
* **Interleaved.textM** — the same with effects.
* **Interleaved.expandM_text**, **Interleaved.expandM_text_of_mark** — what a search makes of what
  is written; **Interleaved.expand_text_of_mark** is the same without effects.
* **Interleaved.expand_text** — what a search without effects makes of it, which may pass over some
  of the directives.
* **Interleaved.foldl_replaceAll_text** — directives of several kinds, replaced one kind after the
  other.
-/

namespace HtmlViews

/-- Directives with texts of the kind `P` before, between and behind them. A text may be empty, and
two of them in a row are one text. -/
structure Interleaved (P : Text → Prop) (δ : Type) where
  /-- The directives in their order, each with the text before it. -/
  parts : List (Text × δ)
  /-- The text behind the last directive. -/
  last : Text
  kind : ∀ e ∈ parts, P e.1
  kind_last : P last

namespace Interleaved

variable {P : Text → Prop} {δ : Type}

/-- Texts and what stands for the directives between them. -/
def textFrom (spell : δ → Text) (last : Text) : List (Text × δ) → Text
  | [] => last
  | (t, d) :: parts => t ++ (spell d ++ textFrom spell last parts)

/-- The texts with what stands for the directives between them. -/
def text (spell : δ → Text) (p : Interleaved P δ) : Text :=
  textFrom spell p.last p.parts

section Effects

variable {m : Type → Type} [Monad m]

/-- Texts and what stands for the directives between them, computed from left to right. -/
def textFromM (make : δ → m Text) (last : Text) : List (Text × δ) → m Text
  | [] => pure last
  | (t, d) :: parts => do
    let shown ← make d
    let out ← textFromM make last parts
    pure (t ++ (shown ++ out))

/-- The texts with what stands for the directives between them, computed from left to right. -/
def textM (make : δ → m Text) (p : Interleaved P δ) : m Text :=
  textFromM make p.last p.parts

variable [LawfulMonad m]

/-- What is computed without effects is what stands there. -/
theorem textM_pure (spell : δ → Text) (p : Interleaved P δ) :
    p.textM (fun d => (pure (spell d) : m Text)) = pure (p.text spell) := by
  unfold textM text
  induction p.parts with
  | nil => rfl
  | cons e parts ih => simp only [textFromM, textFrom, pure_bind, ih]

/-- A search that passes over the texts and reads each directive up to its end keeps the texts, and
puts in what it makes of the directives, from left to right; nothing of that is searched. -/
theorem expandM_text {α : Type} {reader : Reader α} {spell : δ → Text} {found : δ → α}
    (hread : ∀ d s, reader.read (spell d ++ s) = some (found d, s))
    (hpasses : ∀ t, P t → ∀ d s, Passes reader.read t (spell d ++ s))
    (hlast : ∀ t, P t → Passes reader.read t []) (p : Interleaved P δ) (f : α → m Text) :
    Text.expandM reader f (p.text spell) = p.textM fun d => f (found d) := by
  obtain ⟨parts, last, hparts, hkind⟩ := p
  unfold text textM
  induction parts with
  | nil => exact Text.expandM_of_passes (hlast last hkind) f
  | cons e parts ih =>
    obtain ⟨ht, hrest⟩ := List.forall_mem_cons.mp hparts
    rw [textFrom, textFromM, Text.expandM_append (hpasses e.1 ht e.2 _),
      Text.expandM_of_some (hread e.2 _), ih hrest, map_bind]
    refine bind_congr fun shown => ?_
    rw [Functor.map_map, map_eq_pure_bind]

/-- The same for directives that all begin with a mark, between texts in which it does not occur. -/
theorem expandM_text_of_mark {α : Type} {reader : Reader α} {spell : δ → Text} {found : δ → α}
    {mark : Text} {c : Char} (hhead : mark.head? = some c) (htail : c ∉ mark.tail)
    (hnone : ∀ s, Text.after? mark s = none → reader.read s = none)
    (hmark : ∀ d, mark <+: spell d)
    (hread : ∀ d s, reader.read (spell d ++ s) = some (found d, s))
    (p : Interleaved (fun t => ¬ mark <:+: t) δ) (f : α → m Text) :
    Text.expandM reader f (p.text spell) = p.textM fun d => f (found d) := by
  refine expandM_text hread (fun t ht d s => ?_) (fun t ht => ?_) p f
  · apply passes_of_not_infix hnone _ ht
    intro e he
    obtain ⟨r, hr⟩ := hmark d
    rw [← hr, List.append_assoc, List.head?_append, hhead] at he
    rwa [← Option.some.inj he]
  · apply passes_of_not_infix hnone _ ht
    rintro e ⟨⟩

end Effects

/-- A search that passes over the texts and makes of each directive what is shown, whatever follows
it, keeps the texts and puts that in. -/
theorem expand_text {α : Type} {reader : Reader α} {f : α → Text} {spell shown : δ → Text}
    (hpasses : ∀ t, P t → ∀ s, Passes reader.read t s)
    (hspell : ∀ d s, Text.expand reader f (spell d ++ s) = shown d ++ Text.expand reader f s)
    (p : Interleaved P δ) : Text.expand reader f (p.text spell) = p.text shown := by
  obtain ⟨parts, last, hparts, hkind⟩ := p
  unfold text
  induction parts with
  | nil => exact Text.expand_of_passes (hpasses last hkind []) f
  | cons e parts ih =>
    obtain ⟨ht, hrest⟩ := List.forall_mem_cons.mp hparts
    rw [textFrom, textFrom, Text.expand_append (hpasses e.1 ht _), hspell, ih hrest]

/-! ## Replacing one kind of directives after the other -/

section Replacing

variable {ι : Type} {mark value : ι → Text} {spell : δ → Text}

/-- What stands for the directives when `v` is put in the place of those that are spelled `m`. -/
def putIn (m v : Text) (spell : δ → Text) (d : δ) : Text :=
  if spell d = m then v else spell d

/-- Replacing a mark puts a value in the place of the directives that are spelled like it, and keeps
those that are free of it. -/
theorem replaceAll_text {m v : Text} (hne : m ≠ []) (htexts : ∀ t, P t → FreeOf m t)
    (hspell : ∀ d, spell d = m ∨ FreeOf m (spell d)) (p : Interleaved P δ) :
    Text.replaceAll m v (p.text spell) = p.text (putIn m v spell) := by
  refine expand_text (fun t ht s => (htexts t ht).passes s) (fun d s => ?_) p
  unfold putIn
  split
  · rename_i hmark
    rw [hmark]
    exact Text.replaceAll_mark hne v s
  · rename_i hmark
    exact Text.expand_append (((hspell d).resolve_left hmark).passes s) _

/-- Whether each directive is still spelled like the mark of its kind, if that is still to be
replaced, or has been given its value, in which no mark occurs that is. -/
def Replacing (mark value : ι → Text) (kind : δ → ι) (rest : List ι) (spell : δ → Text) : Prop :=
  ∀ d, (kind d ∈ rest ∧ spell d = mark (kind d)) ∨
    (spell d = value (kind d) ∧ ∀ i ∈ rest, FreeOf (mark i) (spell d))

/-- One kind of directives is replaced: the next ones are still to be. -/
theorem Replacing.step {kind : δ → ι} {i : ι} {rest : List ι} (hne : mark i ≠ [])
    (hmarks : ∀ j ∈ rest, FreeOf (mark i) (mark j))
    (hvalue : ∀ j ∈ rest, FreeOf (mark j) (value i))
    (h : Replacing mark value kind (i :: rest) spell) :
    Replacing mark value kind rest (putIn (mark i) (value i) spell) := by
  intro d
  unfold putIn
  obtain ⟨hmem, hspell⟩ | ⟨hspell, hfree⟩ := h d
  · rcases List.mem_cons.mp hmem with hkind | hmem
    · rw [if_pos (hspell.trans (congrArg mark hkind)), hkind]
      exact .inr ⟨rfl, hvalue⟩
    · rw [if_neg (hspell ▸ (hmarks _ hmem).ne hne)]
      exact .inl ⟨hmem, hspell⟩
  · obtain ⟨hfree, hrest⟩ := List.forall_mem_cons.mp hfree
    rw [if_neg (hfree.ne hne)]
    exact .inr ⟨hspell, hrest⟩

/-- Marks replaced one after the other are replaced all at once, when none of them occurs in another
one, in the texts, or in a value that was put in before. -/
theorem foldl_replaceAll_text {kind : δ → ι} {order : List ι} (hne : ∀ i ∈ order, mark i ≠ [])
    (htexts : ∀ i ∈ order, ∀ t, P t → FreeOf (mark i) t)
    (hmarks : order.Pairwise fun i j => FreeOf (mark i) (mark j))
    (hvalues : order.Pairwise fun i j => FreeOf (mark j) (value i))
    (h : Replacing mark value kind order spell) (p : Interleaved P δ) :
    order.foldl (fun out i => Text.replaceAll (mark i) (value i) out) (p.text spell) =
      p.text fun d => value (kind d) := by
  -- By induction on the marks that are still to be replaced. Each directive is spelled as its mark,
  -- or has its value already, in which none of the marks to come occurs.
  induction order generalizing spell with
  | nil =>
    have hspell : spell = fun d => value (kind d) := by
      funext d
      obtain ⟨hmem, -⟩ | ⟨hspell, -⟩ := h d
      · cases hmem
      · exact hspell
    rw [hspell, List.foldl_nil]
  | cons i rest ih =>
    obtain ⟨hnei, hne⟩ := List.forall_mem_cons.mp hne
    obtain ⟨htextsi, htexts⟩ := List.forall_mem_cons.mp htexts
    obtain ⟨hmarksi, hmarks⟩ := List.pairwise_cons.mp hmarks
    obtain ⟨hvaluesi, hvalues⟩ := List.pairwise_cons.mp hvalues
    have hspell : ∀ d, spell d = mark i ∨ FreeOf (mark i) (spell d) := by
      intro d
      obtain ⟨hmem, hspell⟩ | ⟨-, hfree⟩ := h d
      · rcases List.mem_cons.mp hmem with hkind | hmem
        · exact .inl (hspell.trans (congrArg mark hkind))
        · exact .inr (hspell ▸ hmarksi _ hmem)
      · exact .inr (hfree i List.mem_cons_self)
    rw [List.foldl_cons, replaceAll_text hnei htextsi hspell]
    exact ih hne htexts hmarks hvalues (h.step hnei hmarksi hvaluesi)

end Replacing

end Interleaved

end HtmlViews
