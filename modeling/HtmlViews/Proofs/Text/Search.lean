import HtmlViews.Proofs.Text.Basic
import HtmlViews.Text.Piece

/-!
# Searching texts put together

A search from left to right keeps a part of a text in which it finds nothing, and does with what
follows what it would do with that alone.

Whether something is found at a place may depend on what stands behind the part, so **Passes** is a
relation between a part and what follows it. It is shown in two ways: nothing can be found where its
first character does not occur, and a mark is not found where it neither occurs nor could be
completed by what follows. Once a part is passed, the search keeps it and goes on behind it as if
nothing had been there, with the same effects in the same order.

* **Passes** — that nothing is found at any place of a part.
* **BeginsWith** — that everything that can be found begins with a certain character.
* **passes_of_cut?** — that nothing is found before the first occurrence of what finds begin with.
* **passes_of_not_infix** — that nothing is found in a text in which this does not occur.
* **Text.cut?_mark**, **Text.cut?_of_not_infix** — a text is cut at a mark behind a part in which
  the mark does not occur.
* **FreeOf** — that a mark neither occurs in a text nor begins in it.
* **Text.expand_append**, **Text.expandM_append** — a part in which nothing is found is kept.
* **Text.replaceAll_mark** — the first occurrence of a mark is replaced.
-/

namespace HtmlViews

variable {α : Type} {read : Text → Option (α × Text)}

/-- Whether `read` finds nothing at any place of `p` when `s` stands behind it. -/
def Passes (read : Text → Option (α × Text)) : (p s : Text) → Prop
  | [], _ => True
  | c :: p, s => read (c :: (p ++ s)) = none ∧ Passes read p s

/-- Whether everything that `read` finds begins with the character `d`. -/
def BeginsWith (read : Text → Option (α × Text)) (d : Char) : Prop :=
  ∀ c s, c ≠ d → read (c :: s) = none

instance Passes.decidable (read : Text → Option (α × Text)) :
    (p s : Text) → Decidable (Passes read p s)
  | [], _ => .isTrue trivial
  | _ :: p, s =>
    have := Passes.decidable read p s
    inferInstanceAs (Decidable (_ ∧ _))

/-- A mark does not begin with a character that is not its first one. -/
theorem Text.after?_cons_of_ne {p : Text} {d : Char} (hp : p.head? = some d) {c : Char}
    (hc : c ≠ d) (s : Text) : Text.after? p (c :: s) = none := by
  cases p with
  | nil => cases hp
  | cons e p =>
    obtain rfl := Option.some.inj hp
    exact if_neg (Ne.symm hc)

section Beginnings

variable {p : Text} {d : Char}

/-- What is read behind a fixed beginning begins with the first character of that. -/
theorem beginsWith_bind (hp : p.head? = some d) (k : Text → Option (α × Text)) :
    BeginsWith (fun s => (Text.after? p s).bind k) d := by
  intro c s hc
  show (Text.after? p (c :: s)).bind k = none
  rw [Text.after?_cons_of_ne hp hc]
  rfl

/-- What is read behind a mark begins as the mark does. -/
theorem beginsWith_map (hp : p.head? = some d) (k : Text → α × Text) :
    BeginsWith (fun s => (Text.after? p s).map k) d := by
  intro c s hc
  show (Text.after? p (c :: s)).map k = none
  rw [Text.after?_cons_of_ne hp hc]
  rfl

end Beginnings

/-- A part without the character that finds begin with is passed, whatever stands behind it. -/
theorem BeginsWith.passes {d : Char} (h : BeginsWith read d) {p : Text} (hp : d ∉ p) (s : Text) :
    Passes read p s := by
  induction p with
  | nil => trivial
  | cons c p ih =>
    obtain ⟨hc, hp⟩ := not_or.mp (mt List.mem_cons.mpr hp)
    exact ⟨h c _ (Ne.symm hc), ih hp⟩

/-- A part is passed when what it begins with is, and then what is left of it. -/
theorem Passes.append {p q s : Text} (hp : Passes read p (q ++ s)) (hq : Passes read q s) :
    Passes read (p ++ q) s := by
  induction p with
  | nil => exact hq
  | cons c p ih =>
    obtain ⟨hc, hp⟩ := hp
    rw [← List.append_assoc] at hc
    exact ⟨hc, ih hp⟩

/-- Before the first occurrence of `d`, nothing is found that begins with it. -/
theorem passes_of_cut? {d s front r : Text} (h : Text.cut? d s = some (front, r))
    (hread : ∀ t, Text.after? d t = none → read t = none) : Passes read front (d ++ r) := by
  induction s generalizing front with
  | nil =>
    simp only [Text.cut?, Option.map_eq_some_iff, Prod.mk.injEq] at h
    obtain ⟨-, -, rfl, -⟩ := h
    trivial
  | cons c s ih =>
    cases hafter : Text.after? d (c :: s) with
    | some t =>
      simp only [Text.cut?, hafter, Option.some.injEq, Prod.mk.injEq] at h
      obtain ⟨rfl, -⟩ := h
      trivial
    | none =>
      simp only [Text.cut?, hafter, Option.map_eq_some_iff, Prod.exists, Prod.mk.injEq] at h
      obtain ⟨front, r, hcut, rfl, rfl⟩ := h
      have hs : s = front ++ (d ++ r) := by
        rw [Text.eq_of_cut? hcut, List.append_assoc]
      exact ⟨hread _ (hs ▸ hafter), ih hcut⟩

/-- Where `d` does not occur, nothing is found that begins with it. -/
theorem passes_of_cut?_eq_none {d s : Text} (h : Text.cut? d s = none)
    (hread : ∀ t, Text.after? d t = none → read t = none) : Passes read s [] := by
  induction s with
  | nil => trivial
  | cons c s ih =>
    cases hafter : Text.after? d (c :: s) with
    | some t => simp [Text.cut?, hafter] at h
    | none =>
      simp only [Text.cut?, hafter, Option.map_eq_none_iff] at h
      refine ⟨?_, ih h⟩
      rw [List.append_nil]
      exact hread _ hafter

/-! ## Occurrences of a text -/

section Occurrences

variable {mark p s : Text}

/-- Where a mark does not begin it is not read. -/
theorem literal_eq_none (h : Text.after? mark s = none) : (Reader.literal mark).read s = none := by
  show (if mark = [] then none else (Text.after? mark s).map _) = none
  rw [h, Option.map_none, ite_self]

/-- Where a mark is not read it does not begin. -/
theorem after?_of_literal_eq_none (hne : mark ≠ []) (h : (Reader.literal mark).read s = none) :
    Text.after? mark s = none := by
  have hread : (if mark = [] then none else (Text.after? mark s).map fun r => ((), r)) = none := h
  rwa [if_neg hne, Option.map_eq_none_iff] at hread

/-- A mark begins with its first character. -/
theorem beginsWith_literal {d : Char} (h : mark.head? = some d) :
    BeginsWith (Reader.literal mark).read d :=
  fun _ s hc => literal_eq_none (Text.after?_cons_of_ne h hc s)

/-- Nothing that begins with a mark is found in a text in which the mark does not occur, when what
stands behind cannot go on with it. -/
theorem passes_of_not_infix (hread : ∀ t, Text.after? mark t = none → read t = none)
    (hrest : ∀ d ∈ s.head?, d ∉ mark.tail) (h : ¬ mark <:+: p) : Passes read p s := by
  induction p with
  | nil => trivial
  | cons c p ih =>
    refine ⟨hread _ (Text.after?_append_of_not_prefix hrest ?_), ih ?_⟩
    · exact fun hbegins => h hbegins.isInfix
    · exact fun hoccurs => h (hoccurs.trans (List.suffix_cons c p).isInfix)

/-- Nothing is read behind a mark that a text does not begin with. -/
theorem bind_after?_eq_none (h : Text.after? mark s = none) (k : Text → Option (α × Text)) :
    (Text.after? mark s).bind k = none := by
  rw [h, Option.bind_none]

/-- A mark does not occur in another one that it differs from, whatever stands behind. -/
theorem passes_mark {other : Text} {d : Char} (hmark : mark.head? = some d)
    (hother : d ∉ other.tail) (hne : ¬ mark <+: other) (hne' : ¬ other <+: mark) (s : Text) :
    Passes (Reader.literal mark).read other s := by
  cases other with
  | nil => trivial
  | cons c other =>
    refine ⟨literal_eq_none (Text.after?_eq_none_iff.mpr ?_), ?_⟩
    · intro h
      rcases List.prefix_or_prefix_of_prefix h (List.prefix_append (c :: other) s) with h | h
      · exact hne h
      · exact hne' h
    · exact (beginsWith_literal hmark).passes hother s

namespace Text

/-- A part in which a mark does not occur stands in front of its first occurrence. -/
theorem cut?_append (hne : mark ≠ []) (h : Passes (Reader.literal mark).read p s) :
    cut? mark (p ++ s) = (cut? mark s).map fun (front, r) => (p ++ front, r) := by
  induction p with
  | nil => exact Option.map_id'.symm
  | cons c p ih =>
    obtain ⟨hc, hp⟩ := h
    rw [List.cons_append, cut?, after?_of_literal_eq_none hne hc, ih hp, Option.map_map]
    rfl

/-- The first occurrence of a mark is the one behind a part in which it does not occur. -/
theorem cut?_mark (hne : mark ≠ []) (h : Passes (Reader.literal mark).read p (mark ++ s)) :
    cut? mark (p ++ (mark ++ s)) = some (p, s) := by
  have hcut : cut? mark (mark ++ s) = some ([], s) := by
    cases mark with
    | nil => exact absurd rfl hne
    | cons c mark => rw [List.cons_append, cut?, ← List.cons_append, after?_append]
  rw [cut?_append hne h, hcut]
  simp

/-- A text in which a mark does not occur ends at the mark behind it. -/
theorem cut?_of_not_infix {d : Char} (hhead : mark.head? = some d) (htail : d ∉ mark.tail)
    (h : ¬ mark <:+: p) (s : Text) : cut? mark (p ++ (mark ++ s)) = some (p, s) := by
  obtain ⟨tail, rfl⟩ := List.head?_eq_some_iff.mp hhead
  apply cut?_mark (List.cons_ne_nil d tail)
  refine passes_of_not_infix (fun _ => literal_eq_none) ?_ h
  rintro c ⟨⟩
  exact htail

/-- A text that a mark is not found in is not cut by it. -/
theorem cut?_eq_none (hne : mark ≠ []) (h : Passes (Reader.literal mark).read p []) :
    cut? mark p = none := by
  have hcut : cut? mark [] = none := by
    cases mark with
    | nil => exact absurd rfl hne
    | cons c mark => rfl
  rw [← List.append_nil p, cut?_append hne h, hcut]
  rfl

/-- The first occurrence of a mark is replaced before the search goes on behind it. -/
theorem replaceAll_mark (hne : mark ≠ []) (v s : Text) :
    replaceAll mark v (mark ++ s) = v ++ replaceAll mark v s := by
  have hread : (Reader.literal mark).read (mark ++ s) = some ((), s) := by
    show (if mark = [] then none else (after? mark (mark ++ s)).map _) = _
    rw [if_neg hne, after?_append]
    rfl
  rw [replaceAll, expand, pieces_of_some hread, List.flatMap_cons]
  rfl

end Text

/-- Whether a mark neither occurs in a text nor begins in it so that what follows the text could
complete it. -/
def FreeOf (mark : Text) : Text → Prop
  | [] => True
  | c :: t => ¬ mark <+: c :: t ∧ ¬ c :: t <+: mark ∧ FreeOf mark t

instance FreeOf.decidable (mark : Text) : (t : Text) → Decidable (FreeOf mark t)
  | [] => .isTrue trivial
  | c :: t =>
    have := FreeOf.decidable mark t
    inferInstanceAs (Decidable (¬ mark <+: c :: t ∧ ¬ c :: t <+: mark ∧ FreeOf mark t))

/-- In a text that is free of a mark, the mark is not found, whatever stands behind. -/
theorem FreeOf.passes (h : FreeOf mark p) (s : Text) : Passes (Reader.literal mark).read p s := by
  induction p with
  | nil => trivial
  | cons c p ih =>
    obtain ⟨hmark, hp, hrest⟩ := h
    refine ⟨literal_eq_none (Text.after?_eq_none_iff.mpr fun hprefix => ?_), ih hrest⟩
    rcases List.prefix_or_prefix_of_prefix hprefix (List.prefix_append (c :: p) s) with h | h
    · exact hmark h
    · exact hp h

/-- No mark is free of itself. -/
theorem FreeOf.ne (h : FreeOf mark p) (hne : mark ≠ []) : p ≠ mark := by
  rintro rfl
  cases p with
  | nil => exact hne rfl
  | cons c p => exact h.1 (List.prefix_refl _)

/-- A text without the character that a mark begins with is free of it. -/
theorem freeOf_of_not_mem {d : Char} (hmark : mark.head? = some d) (hp : d ∉ p) :
    FreeOf mark p := by
  obtain ⟨mark, rfl⟩ := List.head?_eq_some_iff.mp hmark
  induction p with
  | nil => trivial
  | cons c p ih =>
    obtain ⟨hc, hp⟩ := not_or.mp (mt List.mem_cons.mpr hp)
    refine ⟨?_, ?_, ih hp⟩
    · exact fun h => hc (List.cons_prefix_cons.mp h).1
    · exact fun h => hc (List.cons_prefix_cons.mp h).1.symm

end Occurrences

namespace Text

variable {reader : Reader α} {p s : Text}

/-- The characters that a reader passes are pieces of their own. -/
theorem pieces_append (h : Passes reader.read p s) :
    pieces reader (p ++ s) = p.map .plain ++ pieces reader s := by
  induction p with
  | nil => rfl
  | cons c p ih =>
    obtain ⟨hc, hp⟩ := h
    rw [List.cons_append, pieces_cons_of_none hc, ih hp]
    rfl

/-- Nothing is made of the empty text. -/
@[simp] theorem expand_nil (f : α → Text) : expand reader f [] = [] := by
  simp [expand]

/-- Nothing is made of the empty text, and nothing is done. -/
@[simp] theorem expandM_nil {m : Type → Type} [Monad m] [LawfulMonad m] (f : α → m Text) :
    expandM reader f [] = pure [] := by
  simp [expandM]

/-- A part in which nothing is found is kept. -/
theorem expand_append (h : Passes reader.read p s) (f : α → Text) :
    expand reader f (p ++ s) = p ++ expand reader f s := by
  have hplain : (p.map Piece.plain).flatMap (Piece.text f) = p := by
    induction p with
    | nil => rfl
    | cons c p ih => exact congrArg (c :: ·) (ih h.2)
  rw [expand, pieces_append h, List.flatMap_append, hplain]
  rfl

/-- A text in which nothing is found is kept. -/
theorem expand_of_passes (h : Passes reader.read p []) (f : α → Text) :
    expand reader f p = p := by
  have happend := expand_append h f
  rwa [List.append_nil, expand_nil, List.append_nil] at happend

/-- Where nothing is found, one character is kept, and takes no effect. -/
theorem expandM_cons_of_none {m : Type → Type} [Monad m] [LawfulMonad m] {c : Char}
    (h : reader.read (c :: s) = none) (f : α → m Text) :
    expandM reader f (c :: s) = (c :: ·) <$> expandM reader f s := by
  simp [expandM, pieces_cons_of_none h]

/-- A part in which nothing is found is kept, and takes no effect. -/
theorem expandM_append {m : Type → Type} [Monad m] [LawfulMonad m] (h : Passes reader.read p s)
    (f : α → m Text) : expandM reader f (p ++ s) = (p ++ ·) <$> expandM reader f s := by
  induction p with
  | nil => simp
  | cons c p ih =>
    obtain ⟨hc, hp⟩ := h
    rw [List.cons_append, expandM_cons_of_none hc, ih hp, Functor.map_map]
    rfl

/-- A text in which nothing is found is kept, and takes no effect. -/
theorem expandM_of_passes {m : Type → Type} [Monad m] [LawfulMonad m] (h : Passes reader.read p [])
    (f : α → m Text) : expandM reader f p = pure p := by
  have happend := expandM_append h f
  rwa [List.append_nil, expandM_nil, map_pure, List.append_nil] at happend

/-- What is found is replaced before the search goes on behind it. -/
theorem expandM_of_some {m : Type → Type} [Monad m] [LawfulMonad m] {a : α} {r : Text}
    (h : reader.read s = some (a, r)) (f : α → m Text) :
    expandM reader f s = (do
      let shown ← f a
      (shown ++ ·) <$> expandM reader f r) := by
  simp [expandM, pieces_of_some h]

/-- Replacements that take no effects make an expansion that takes none. -/
theorem expandM_pure {m : Type → Type} [Monad m] [LawfulMonad m] (f : α → Text) (s : Text) :
    expandM reader (fun a => (pure (f a) : m Text)) s = pure (expand reader f s) := by
  fun_induction pieces reader s with
  | case1 => simp
  | case2 c s a r hread ih =>
    rw [expandM_of_some hread, ih]
    simp [expand, pieces_of_some hread, Piece.text]
  | case3 c s hread ih =>
    rw [expandM_cons_of_none hread, ih]
    simp [expand, pieces_cons_of_none hread, Piece.text]

end Text

end HtmlViews
