import HtmlViews.Proofs.Text.Interleaved

/-!
# Directives that do not overlap

When no directive begins inside another one, the places of directives in a text do not depend on the
order in which they are looked for. So each text is a sequence of directives and texts without any,
and a search puts something into the places of the directives and keeps the rest.

A reader is good enough for this if it recognises its directives: it reads what is spelled, reads
nothing else, and no spelling begins inside of another one, not even with its last characters
(**FreeOf**). Then a text decides by itself where its directives are, and the search from left to
right finds all of them. To fill a text is said without a search, by any way to write the text as
directives and texts without any; that there is just one such way is what makes it a statement about
the text.

* **Without** — that no directive occurs in a text.
* **Filled** — that a text is another one with its directives replaced, all of them.
* **Reader.Recognises** — that a reader reads exactly the directives that are spelled, and that
  these do not overlap.
* **Reader.Recognises.exists_text_eq** — each text has directives and texts without any.
* **Reader.Recognises.expand_text**, **Reader.Recognises.filled_iff** — a search fills a text.
-/

namespace HtmlViews

variable {α δ : Type}

/-- Where the end of a text that is free of a mark begins, the mark does not. -/
theorem FreeOf.of_suffix {mark t u : Text} (h : FreeOf mark t) (hu : u <:+ t) (hne : u ≠ []) :
    ¬ mark <+: u ∧ ¬ u <+: mark := by
  induction t with
  | nil => exact absurd (List.suffix_nil.mp hu) hne
  | cons c t ih =>
    rcases List.suffix_cons_iff.mp hu with rfl | hu
    · exact ⟨h.1, h.2.1⟩
    · exact ih h.2.2 hu

/-- Whether no directive occurs in a text. -/
def Without (spell : δ → Text) (t : Text) : Prop :=
  ∀ d, ¬ spell d <:+: t

/-- Whether `out` is the text `s` with all its directives replaced by their values, and with nothing
else changed. -/
def Filled (spell value : δ → Text) (s out : Text) : Prop :=
  ∃ p : Interleaved (Without spell) δ, p.text spell = s ∧ p.text value = out

/-- Whether a reader reads exactly the directives that are spelled, whatever follows them, and none
of them overlaps with another one or with itself. -/
structure Reader.Recognises (reader : Reader α) (spell : δ → Text) (found : δ → α) : Prop where
  read_spell : ∀ d s, reader.read (spell d ++ s) = some (found d, s)
  spelled : ∀ {s r a}, reader.read s = some (a, r) → ∃ d, found d = a ∧ s = spell d ++ r
  apart : ∀ d e, FreeOf (spell d) (spell e).tail

namespace Reader.Recognises

variable {reader : Reader α} {spell : δ → Text} {found : δ → α}

/-- In a text without directives nothing is found, when what stands behind it does not begin with
the end of one. -/
theorem passes (h : reader.Recognises spell found) {t s : Text} (ht : Without spell t)
    (hs : ∀ d u, u ≠ [] → u <:+ (spell d).tail → ¬ u <+: s) : Passes reader.read t s := by
  induction t with
  | nil => trivial
  | cons c t ih =>
    refine ⟨Option.eq_none_iff_forall_ne_some.mpr ?_, ih fun d hd => ?_⟩
    · rintro ⟨a, r⟩ hread
      obtain ⟨d, -, hspell⟩ := h.spelled hread
      have hinside : ¬ spell d <+: c :: t := fun hd => ht d hd.isInfix
      rw [← List.cons_append] at hspell
      rcases List.append_eq_append_iff.mp hspell with ⟨u, hd, hrest⟩ | ⟨back, hct, -⟩
      · -- The directive ends behind the text, in what follows.
        have hne : u ≠ [] := by
          rintro rfl
          exact hinside ⟨[], by rw [hd, List.append_nil, List.append_nil]⟩
        have htail : u <:+ (spell d).tail := by
          rw [hd]
          exact List.suffix_append t u
        exact hs d u hne htail ⟨r, hrest.symm⟩
      · exact hinside ⟨back, hct.symm⟩
    · exact ht d (hd.trans (List.suffix_cons c t).isInfix)

/-- A directive does not begin with the end of one. -/
theorem not_prefix_spell (h : reader.Recognises spell found) (e : δ) (s : Text) (d : δ) (u : Text)
    (hne : u ≠ []) (hu : u <:+ (spell d).tail) : ¬ u <+: spell e ++ s := by
  obtain ⟨hbegins, hends⟩ := (h.apart e d).of_suffix hu hne
  intro hprefix
  rcases List.prefix_or_prefix_of_prefix hprefix (List.prefix_append (spell e) s) with h | h
  · exact hends h
  · exact hbegins h

/-- Between directives nothing is found in such a text. -/
theorem passes_spell (h : reader.Recognises spell found) {t : Text} (ht : Without spell t) (d : δ)
    (s : Text) : Passes reader.read t (spell d ++ s) :=
  h.passes ht (h.not_prefix_spell d s)

/-- Behind the last directive nothing is found. -/
theorem passes_nil (h : reader.Recognises spell found) {t : Text} (ht : Without spell t) :
    Passes reader.read t [] :=
  h.passes ht fun _ _ hne _ hnil => hne (List.prefix_nil.mp hnil)

/-- A search puts something into the place of each directive, and keeps the texts between them. -/
theorem expand_text (h : reader.Recognises spell found) (p : Interleaved (Without spell) δ)
    (f : α → Text) : Text.expand reader f (p.text spell) = p.text fun d => f (found d) := by
  have hexpand := Interleaved.expandM_text (m := Id) h.read_spell (fun _ => h.passes_spell)
    (fun _ => h.passes_nil) p fun a => pure (f a)
  rw [Text.expandM_pure, Interleaved.textM_pure] at hexpand
  exact hexpand

/-- The empty text has no directives. -/
theorem without_nil (h : reader.Recognises spell found) : Without spell [] := by
  intro d hd
  have hread := h.read_spell d []
  rw [List.infix_nil.mp hd] at hread
  exact absurd (reader.shorter hread) (Nat.lt_irrefl _)

/-- A character at which no directive begins goes to the text behind it. -/
theorem without_cons (h : reader.Recognises spell found) {c : Char} {t s : Text}
    (hread : reader.read (c :: (t ++ s)) = none) (ht : Without spell t) :
    Without spell (c :: t) := by
  intro d hd
  rcases List.infix_cons_iff.mp hd with ⟨r, hr⟩ | hd
  · rw [← List.cons_append, ← hr, List.append_assoc, h.read_spell] at hread
    cases hread
  · exact ht d hd

/-- Each text has directives and texts without any. -/
theorem exists_text_eq (h : reader.Recognises spell found) (s : Text) :
    ∃ p : Interleaved (Without spell) δ, p.text spell = s := by
  fun_induction Text.pieces reader s with
  | case1 =>
    exact ⟨⟨[], [], fun _ he => absurd he List.not_mem_nil, h.without_nil⟩, rfl⟩
  | case2 c s a r hread ih =>
    obtain ⟨d, -, hs⟩ := h.spelled hread
    obtain ⟨p, hp⟩ := ih
    have hparts := List.forall_mem_cons (a := ([], d)).mpr ⟨h.without_nil, p.kind⟩
    exact ⟨⟨([], d) :: p.parts, p.last, hparts, p.kind_last⟩, by rw [hs, ← hp]; rfl⟩
  | case3 c s hread ih =>
    obtain ⟨⟨parts, last, hparts, hlast⟩, hp⟩ := ih
    rw [← hp] at hread
    cases parts with
    | nil =>
      have hwithout : Without spell (c :: last) :=
        h.without_cons (s := []) (by rwa [List.append_nil]) hlast
      exact ⟨⟨[], c :: last, hparts, hwithout⟩, congrArg (c :: ·) hp⟩
    | cons e parts =>
      obtain ⟨he, hparts⟩ := List.forall_mem_cons.mp hparts
      have hparts := List.forall_mem_cons (a := (c :: e.1, e.2)).mpr
        ⟨h.without_cons hread he, hparts⟩
      exact ⟨⟨(c :: e.1, e.2) :: parts, last, hparts, hlast⟩, congrArg (c :: ·) hp⟩

/-- To fill a text is to search it. -/
theorem filled_iff (h : reader.Recognises spell found) (f : α → Text) {s out : Text} :
    Filled spell (fun d => f (found d)) s out ↔ Text.expand reader f s = out := by
  constructor
  · rintro ⟨p, rfl, rfl⟩
    exact h.expand_text p f
  · rintro rfl
    obtain ⟨p, hp⟩ := h.exists_text_eq s
    exact ⟨p, hp, by rw [← hp, h.expand_text]⟩

end Reader.Recognises

end HtmlViews
