import HtmlViews.Proofs.Conditional.Marks
import HtmlViews.Proofs.Crash.Conditional
import Mathlib.Order.Bounds.Basic

/-!
# Where a block ends

The search for the end of a block goes over the marks of a text with a count of the blocks that are
open, and remembers the place of an `@else`. What it finds can be said without it, by the numbers of
marks alone: the block ends at the first end mark with which more blocks are ended than begun, and
its second branch begins behind the first `@else` up to which as many are ended as begun.

The proof follows the search mark by mark. Of the marks that are behind it the search knows their
difference in number, that none of them closes the block, and the first one that parts it
(**Reads**); a mark that stands farther on changes nothing of that (**standsWhere_append_of_lt**).

* **Conditional.placedMarks** — the marks of a text with their places; **mem_placedMarks_iff**,
  **pairwise_marksFrom** — they are all that stand there, from left to right and apart.
* **Conditional.numberUpTo** — how often a mark stands up to a place.
* **Conditional.Closes**, **Conditional.Parts** — the marks that such numbers single out.
* **Conditional.Reads** — what the search knows behind marks that do not end the block;
  **Reads.step**, **Reads.ends** — one more mark, and the one that ends it.
* **Conditional.Reads.exists_found** — the rest of a search.
* **Conditional.findEnds_isFirst** — what the search of a text finds.
-/

namespace HtmlViews.Conditional

/-! ## Marks with their places -/

/-- The marks of a text with their places, from left to right. -/
def placedMarks (s : Text) : List (Nat × Mark) :=
  marksFrom 0 (Text.pieces Mark.reader s)

/-- Whether a mark stands at a place of a text. An `@else` is one where no word goes on. -/
def StandsAt (s : Text) (n : Nat) (m : Mark) : Prop :=
  ∃ front r, s = front ++ (m.text ++ r) ∧ front.utf8Length = n ∧
    (m = .otherwise → ∀ c ∈ r.head?, isWord c = false)

/-- A mark is read where it is spelled, an else only where no word goes on behind it. -/
theorem Mark.read?_eq_some_iff {s r : Text} {m : Mark} :
    read? s = some (m, r) ↔
      s = m.text ++ r ∧ (m = .otherwise → ∀ c ∈ r.head?, isWord c = false) := by
  constructor
  · intro hread
    refine ⟨eq_of_read? hread, ?_⟩
    rintro rfl c hc
    have hword : Text.word r = [] := word_of_read?_otherwise hread
    obtain ⟨t, rfl⟩ := List.head?_eq_some_iff.mp hc
    have hnil : (c :: t).takeWhile isWord = [] := hword
    simpa [List.takeWhile_cons] using hnil
  · rintro ⟨rfl, hword⟩
    cases m with
    | opening => exact read?_opening r
    | ending => exact read?_ending r
    | otherwise => exact read?_otherwise (hword rfl)

/-- A mark among the pieces of a text was read behind the text of the pieces before it. -/
theorem exists_read_of_pieces {s : Text} {before after : Marked} {m : Mark}
    (h : Text.pieces Mark.reader s = before ++ .found m :: after) :
    ∃ r, s = spell before ++ (m.text ++ r) ∧ Mark.read? (m.text ++ r) = some (m, r) := by
  fun_induction Text.pieces Mark.reader s generalizing before with
  | case1 => simp at h
  | case2 c s m' r hread ih =>
    have htext : c :: s = m'.text ++ r := Mark.eq_of_read? hread
    cases before with
    | nil =>
      obtain ⟨hfound, -⟩ := List.cons.inj h
      obtain rfl := Piece.found.inj hfound
      rw [htext] at hread ⊢
      exact ⟨r, rfl, hread⟩
    | cons p before =>
      rw [List.cons_append] at h
      obtain ⟨rfl, hrest⟩ := List.cons.inj h
      obtain ⟨r', rfl, hr'⟩ := ih hrest
      refine ⟨r', ?_, hr'⟩
      rw [htext, spell_cons, List.append_assoc]
      rfl
  | case3 c s hread ih =>
    cases before with
    | nil => cases h
    | cons p before =>
      rw [List.cons_append] at h
      obtain ⟨rfl, hrest⟩ := List.cons.inj h
      obtain ⟨r', rfl, hr'⟩ := ih hrest
      refine ⟨r', ?_, hr'⟩
      rw [spell_cons, List.append_assoc]
      rfl

/-- The place of a mark among pieces is behind the text of the pieces before it. -/
theorem mem_marksFrom_iff {n k : Nat} {m : Mark} {ps : Marked} :
    (k, m) ∈ marksFrom n ps ↔
      ∃ before after, ps = before ++ .found m :: after ∧ n + (spell before).utf8Length = k := by
  have hspell : ∀ (n : Nat) (p : Piece Mark) (before : Marked),
      n + (spell (p :: before)).utf8Length =
        n + (p.text Mark.text).utf8Length + (spell before).utf8Length := by
    intro n p before
    rw [spell_cons, Text.utf8Length_append, Nat.add_assoc]
  induction ps generalizing n with
  | nil => simp [marksFrom]
  | cons p ps ih =>
    have hcons : (∃ before after, p :: ps = before ++ .found m :: after ∧
        n + (spell before).utf8Length = k) ↔
        (p = .found m ∧ n = k) ∨ (k, m) ∈ marksFrom (n + (p.text Mark.text).utf8Length) ps := by
      constructor
      · rintro ⟨_ | ⟨q, before⟩, after, hps, rfl⟩
        · exact .inl ⟨(List.cons.inj hps).1, rfl⟩
        · obtain ⟨rfl, rfl⟩ := List.cons.inj hps
          exact .inr (ih.mpr ⟨before, after, rfl, (hspell n p before).symm⟩)
      · rintro (⟨rfl, rfl⟩ | hmem)
        · exact ⟨[], ps, rfl, rfl⟩
        · obtain ⟨before, after, rfl, rfl⟩ := ih.mp hmem
          exact ⟨p :: before, after, rfl, hspell n p before⟩
    rw [hcons]
    cases p with
    | plain c => simp [marksFrom, Piece.text]
    | found m' => simp [marksFrom, Piece.text, eq_comm, and_comm]

/-- The marks of a text are those that stand in it. -/
theorem mem_placedMarks_iff {s : Text} {n : Nat} {m : Mark} :
    (n, m) ∈ placedMarks s ↔ StandsAt s n m := by
  rw [placedMarks, mem_marksFrom_iff]
  constructor
  · rintro ⟨before, after, hpieces, rfl⟩
    obtain ⟨r, hs, hread⟩ := exists_read_of_pieces hpieces
    exact ⟨spell before, r, hs, (Nat.zero_add _).symm, (Mark.read?_eq_some_iff.mp hread).2⟩
  · rintro ⟨front, r, rfl, rfl, hword⟩
    have hread : Mark.reader.read (m.text ++ r) = some (m, r) :=
      Mark.read?_eq_some_iff.mpr ⟨rfl, hword⟩
    refine ⟨Text.pieces Mark.reader front, Text.pieces Mark.reader r, ?_, ?_⟩
    · rw [pieces_append_border front (border_mark m r), Text.pieces_of_some hread]
    · rw [spell_pieces, Nat.zero_add]

/-- The marks among pieces stand from left to right, and each one behind the text of the one
before. -/
theorem pairwise_marksFrom (n : Nat) (ps : Marked) :
    (marksFrom n ps).Pairwise fun a b => a.1 + a.2.text.utf8Length ≤ b.1 := by
  induction ps generalizing n with
  | nil => exact List.Pairwise.nil
  | cons p ps ih =>
    cases p with
    | plain c => exact ih _
    | found m =>
      refine List.Pairwise.cons ?_ (ih _)
      rintro ⟨k, m'⟩ hk
      obtain ⟨before, -, -, rfl⟩ := mem_marksFrom_iff.mp hk
      exact Nat.le_add_right _ _

/-- The places of the marks of a text ascend. -/
theorem ascending_placedMarks (s : Text) : (placedMarks s).Pairwise fun a b => a.1 < b.1 := by
  apply (pairwise_marksFrom 0 (Text.pieces Mark.reader s)).imp
  intro a b hab
  have hpos : 0 < a.2.text.utf8Length := by
    cases a.2 <;> decide
  omega

/-! ## Numbers of marks -/

/-- How often a mark stands up to a place. -/
def numberUpTo (ms : List (Nat × Mark)) (m : Mark) (n : Nat) : Nat :=
  ms.countP fun t => t.2 = m ∧ t.1 ≤ n

/-- Whether a mark stands at a place up to which the numbers of the blocks that are begun and of
those that are ended are related. -/
def StandsWhere (m : Mark) (r : Nat → Nat → Prop) (ms : List (Nat × Mark)) (n : Nat) : Prop :=
  (n, m) ∈ ms ∧ r (numberUpTo ms .opening n) (numberUpTo ms .ending n)

/-- Whether an end mark stands at a place up to which more blocks are ended than begun. -/
def Closes : List (Nat × Mark) → Nat → Prop :=
  StandsWhere .ending fun begun ended => begun < ended

/-- Whether an `@else` stands at a place up to which as many blocks are ended as begun. -/
def Parts : List (Nat × Mark) → Nat → Prop :=
  StandsWhere .otherwise fun begun ended => begun = ended

section Numbers

variable {before after : List (Nat × Mark)} {m m' : Mark} {n k : Nat} {r : Nat → Nat → Prop}

/-- There are none of no marks. -/
theorem numberUpTo_nil (m : Mark) (n : Nat) : numberUpTo [] m n = 0 := rfl

/-- Marks in a row are counted one part after the other. -/
theorem numberUpTo_append : numberUpTo (before ++ after) m n =
    numberUpTo before m n + numberUpTo after m n :=
  List.countP_append

/-- One mark is counted if it is of the kind and not beyond the place. -/
theorem numberUpTo_singleton :
    numberUpTo [(n, m')] m k = if m' = m ∧ n ≤ k then 1 else 0 := by
  simp [numberUpTo, List.countP_singleton]

/-- Marks that stand farther on do not count. -/
theorem numberUpTo_append_of_lt (h : ∀ t ∈ after, k < t.1) :
    numberUpTo (before ++ after) m k = numberUpTo before m k := by
  have hafter : numberUpTo after m k = 0 := by
    apply List.countP_eq_zero.mpr
    intro t ht
    have := h t ht
    simp only [decide_eq_true_eq]
    omega
  rw [numberUpTo_append, hafter, Nat.add_zero]

/-- Behind all marks the numbers stay as they are. -/
theorem numberUpTo_of_le {ms : List (Nat × Mark)} (hms : ∀ t ∈ ms, t.1 ≤ n) (h : n ≤ k)
    (m : Mark) : numberUpTo ms m k = numberUpTo ms m n := by
  apply List.countP_congr
  intro t ht
  have := hms t ht
  simp only [decide_eq_true_eq, and_congr_right_iff]
  omega

/-- Marks beyond a place do not matter to what stands there. -/
theorem standsWhere_append_of_lt (h : ∀ t ∈ after, k < t.1) :
    StandsWhere m r (before ++ after) k ↔ StandsWhere m r before k := by
  have hafter : (k, m) ∉ after := fun hmem => Nat.lt_irrefl k (h _ hmem)
  have hmem : (k, m) ∈ before ++ after ↔ (k, m) ∈ before := by
    simp [hafter]
  rw [StandsWhere, StandsWhere, hmem, numberUpTo_append_of_lt h, numberUpTo_append_of_lt h]

/-- A mark behind all others changes nothing for them. -/
theorem standsWhere_concat_iff (hn : ∀ t ∈ before, t.1 < n) :
    StandsWhere m' r (before ++ [(n, m)]) k ↔ StandsWhere m' r before k ∨
      (k = n ∧ m = m' ∧ r (numberUpTo (before ++ [(n, m)]) .opening n)
        (numberUpTo (before ++ [(n, m)]) .ending n)) := by
  rcases Nat.lt_or_ge k n with hlt | hle
  · have hlast : ∀ t ∈ [(n, m)], k < t.1 := by
      simpa using hlt
    rw [standsWhere_append_of_lt hlast]
    simp [Nat.ne_of_lt hlt]
  · have hbefore : (k, m') ∉ before := fun hmem => Nat.not_lt.mpr hle (hn _ hmem)
    simp only [StandsWhere, List.mem_append, hbefore, List.mem_singleton, Prod.mk.injEq]
    constructor
    · rintro ⟨hmem | ⟨rfl, rfl⟩, hr⟩
      · cases hmem
      · exact .inr ⟨rfl, rfl, hr⟩
    · rintro (⟨hmem, -⟩ | ⟨rfl, rfl, hr⟩)
      · cases hmem
      · exact ⟨.inr ⟨rfl, rfl⟩, hr⟩

/-- Where more blocks are ended than begun, an end mark has made it so. -/
theorem exists_closes {ms : List (Nat × Mark)} (hms : ms.Pairwise fun a b => a.1 < b.1)
    (h : numberUpTo ms .opening k < numberUpTo ms .ending k) : ∃ n ≤ k, Closes ms n := by
  induction ms using List.reverseRecOn with
  | nil => simp [numberUpTo_nil] at h
  | append_singleton before t ih =>
    obtain ⟨n, m⟩ := t
    obtain ⟨hbefore, -, hlast⟩ := List.pairwise_append.mp hms
    have hn : ∀ t ∈ before, t.1 < n := fun t ht => hlast t ht _ (List.mem_singleton_self _)
    by_cases hown : m = .ending ∧ n ≤ k
    · -- The last mark ends a block, and no more marks stand up to `k` than up to it.
      obtain ⟨rfl, hle⟩ := hown
      have hall : ∀ t ∈ before ++ [(n, Mark.ending)], t.1 ≤ n := by
        intro t ht
        rcases List.mem_append.mp ht with ht | ht
        · exact Nat.le_of_lt (hn t ht)
        · rw [List.mem_singleton.mp ht]
      rw [numberUpTo_of_le hall hle, numberUpTo_of_le hall hle] at h
      exact ⟨n, hle, (standsWhere_concat_iff hn).mpr (.inr ⟨rfl, rfl, h⟩)⟩
    · have hless : numberUpTo before .opening k < numberUpTo before .ending k := by
        rw [numberUpTo_append, numberUpTo_append, numberUpTo_singleton, numberUpTo_singleton,
          if_neg hown] at h
        omega
      obtain ⟨i, hi, hcloses⟩ := ih hbefore hless
      exact ⟨i, hi, (standsWhere_concat_iff hn).mpr (.inl hcloses)⟩

end Numbers

/-! ## First places -/

/-- Whether an optional place is the first one with a property, where there is any. -/
def IsFirst (p : Nat → Prop) : Option Nat → Prop
  | none => ∀ n, ¬ p n
  | some n => IsLeast {n | p n} n

section IsFirst

variable {p q : Nat → Prop} {o : Option Nat} {n : Nat}

/-- The first place with a property is the first one with an equivalent property. -/
theorem IsFirst.congr (hpq : ∀ n, p n ↔ q n) (h : IsFirst p o) : IsFirst q o := by
  obtain rfl : p = q := funext fun n => propext (hpq n)
  exact h

/-- There is a first place exactly if there is one at all. -/
theorem IsFirst.isSome_iff (h : IsFirst p o) : o.isSome ↔ ∃ n, p n := by
  cases o with
  | none =>
    have hnone : ∀ n, ¬ p n := h
    simp [hnone]
  | some n => simpa using ⟨n, h.1⟩

/-- A place behind all others is the first one only where there are no others. -/
theorem IsFirst.or_last (h : IsFirst p o) (hn : ∀ k, p k → k < n) :
    IsFirst (fun k => p k ∨ k = n) (o <|> some n) := by
  cases o with
  | none =>
    refine ⟨.inr rfl, ?_⟩
    rintro k (hk | rfl)
    · exact absurd hk (h k)
    · exact Nat.le_refl k
  | some i =>
    refine ⟨.inl h.1, ?_⟩
    rintro k (hk | rfl)
    · exact h.2 hk
    · exact Nat.le_of_lt (hn i h.1)

end IsFirst

/-! ## The search -/

/-- An opening makes the depth one more, an ending one less, and an else leaves it. -/
theorem Mark.depth?_eq_some_iff {m : Mark} {depth depth' : Nat} :
    m.depth? depth = some depth' ↔
      depth + (if m = .opening then 1 else 0) = depth' + (if m = .ending then 1 else 0) := by
  cases m <;> cases depth <;> simp [depth?]

/-- A mark that does not end the block is passed, and an `@else` of the block is remembered. -/
theorem findEnds_cons {depth depth' : Nat} {elseAt : Option Nat} {m : Mark}
    (hm : m.depth? depth = some depth') (n : Nat) (ms : List (Nat × Mark)) :
    findEnds depth elseAt ((n, m) :: ms) =
      findEnds depth' (if m = .otherwise ∧ depth = 0 then elseAt <|> some n else elseAt) ms := by
  cases m with
  | opening =>
    obtain rfl := Option.some.inj hm
    rfl
  | otherwise =>
    obtain rfl := Option.some.inj hm
    simp [findEnds]
  | ending =>
    cases depth with
    | zero => cases hm
    | succ depth =>
      obtain rfl := Option.some.inj hm
      rfl

/-- What the search knows behind marks none of which ends the block: how many blocks are open, and
the first `@else` of the block. -/
structure Reads (before : List (Nat × Mark)) (depth : Nat) (elseAt : Option Nat) : Prop where
  count : ∀ n, (∀ t ∈ before, t.1 ≤ n) →
    numberUpTo before .opening n = depth + numberUpTo before .ending n
  unclosed : ∀ n, ¬ Closes before n
  parted : IsFirst (Parts before) elseAt

/-- Before any mark was read the depth is zero and no else was found. -/
theorem Reads.nil : Reads [] 0 none where
  count _ _ := rfl
  unclosed _ h := List.not_mem_nil h.1
  parted _ h := List.not_mem_nil h.1

section Reads

variable {before ms : List (Nat × Mark)} {depth depth' n : Nat} {elseAt : Option Nat} {m : Mark}

/-- A mark that does not end the block counts for the blocks that are open. -/
theorem Reads.count_concat (h : Reads before depth elseAt) (hn : ∀ t ∈ before, t.1 < n)
    (hm : m.depth? depth = some depth') {k : Nat} (hk : n ≤ k) :
    numberUpTo (before ++ [(n, m)]) .opening k =
      depth' + numberUpTo (before ++ [(n, m)]) .ending k := by
  have hbefore : ∀ t ∈ before, t.1 ≤ k := fun t ht => Nat.le_trans (Nat.le_of_lt (hn t ht)) hk
  have hopen := h.count k hbefore
  have hmark := Mark.depth?_eq_some_iff.mp hm
  simp only [numberUpTo_append, numberUpTo_singleton, hk, and_true]
  omega

/-- One more mark that does not end the block. -/
theorem Reads.step (h : Reads before depth elseAt) (hn : ∀ t ∈ before, t.1 < n)
    (hm : m.depth? depth = some depth') :
    Reads (before ++ [(n, m)]) depth'
      (if m = .otherwise ∧ depth = 0 then elseAt <|> some n else elseAt) := by
  refine ⟨?_, ?_, ?_⟩
  · intro k hk
    exact h.count_concat hn hm (hk _ List.mem_concat_self)
  · intro k hk
    rcases (standsWhere_concat_iff hn).mp hk with hk | ⟨rfl, rfl, hless⟩
    · exact h.unclosed k hk
    · have := h.count_concat hn hm (Nat.le_refl k)
      omega
  · have hparts : ∀ k, Parts before k ∨ (k = n ∧ m = .otherwise ∧ depth = 0) ↔
        Parts (before ++ [(n, m)]) k := by
      intro k
      rw [Parts, standsWhere_concat_iff hn, h.count_concat hn hm (Nat.le_refl n)]
      refine or_congr_right (and_congr_right fun _ => and_congr_right fun hown => ?_)
      subst hown
      obtain rfl := Option.some.inj hm
      omega
    by_cases hown : m = .otherwise ∧ depth = 0
    · rw [if_pos hown]
      exact (h.parted.or_last fun k hk => hn _ hk.1).congr (by simpa [hown] using hparts)
    · rw [if_neg hown]
      exact h.parted.congr (by simpa [hown] using hparts)

/-- The mark that ends the block. -/
theorem Reads.ends (h : Reads before 0 elseAt) (hn : ∀ t ∈ before, t.1 < n)
    (hafter : ∀ t ∈ ms, n < t.1) :
    IsFirst (Closes (before ++ [(n, .ending)] ++ ms)) (some n) ∧
      IsFirst (fun k => Parts (before ++ [(n, .ending)] ++ ms) k ∧ k < n) elseAt := by
  -- What holds at a place up to `n` does not depend on the marks behind it.
  have hupTo : ∀ {m r k}, k ≤ n → (StandsWhere m r (before ++ [(n, .ending)] ++ ms) k ↔
      StandsWhere m r (before ++ [(n, .ending)]) k) :=
    fun hk => standsWhere_append_of_lt fun t ht => Nat.lt_of_le_of_lt hk (hafter t ht)
  refine ⟨⟨?_, ?_⟩, ?_⟩
  · have hless : numberUpTo (before ++ [(n, .ending)]) .opening n <
        numberUpTo (before ++ [(n, .ending)]) .ending n := by
      have hopen := h.count n fun t ht => Nat.le_of_lt (hn t ht)
      rw [Nat.zero_add] at hopen
      simp [numberUpTo_append, numberUpTo_singleton, hopen]
    exact (hupTo (Nat.le_refl n)).mpr ((standsWhere_concat_iff hn).mpr (.inr ⟨rfl, rfl, hless⟩))
  · intro k hk
    by_contra hlt
    rw [Nat.not_le] at hlt
    rcases (standsWhere_concat_iff hn).mp ((hupTo (Nat.le_of_lt hlt)).mp hk) with hk | ⟨rfl, -, -⟩
    · exact h.unclosed k hk
    · exact Nat.lt_irrefl _ hlt
  · apply h.parted.congr
    intro k
    constructor
    · intro hk
      have hlt : k < n := hn _ hk.1
      exact ⟨(hupTo (Nat.le_of_lt hlt)).mpr ((standsWhere_concat_iff hn).mpr (.inl hk)), hlt⟩
    · rintro ⟨hk, hlt⟩
      rcases (standsWhere_concat_iff hn).mp ((hupTo (Nat.le_of_lt hlt)).mp hk) with hk | ⟨-, hm, -⟩
      · exact hk
      · cases hm

/-- The rest of a search. -/
theorem Reads.exists_found (h : Reads before depth elseAt)
    (hms : (before ++ ms).Pairwise fun a b => a.1 < b.1) :
    ∃ found, findEnds depth elseAt ms = .ok found ∧
      IsFirst (Closes (before ++ ms)) (found.map Ends.endifAt) ∧
      ∀ ends ∈ found, IsFirst (fun n => Parts (before ++ ms) n ∧ n < ends.endifAt) ends.elseAt := by
  -- By induction on the marks that are still to come, which join those before one after the other.
  induction ms generalizing before depth elseAt with
  | nil =>
    rw [List.append_nil]
    refine ⟨none, rfl, h.unclosed, ?_⟩
    intro ends hends
    cases hends
  | cons t ms ih =>
    obtain ⟨n, m⟩ := t
    obtain ⟨-, hcons, hlast⟩ := List.pairwise_append.mp hms
    have hn : ∀ t ∈ before, t.1 < n := fun t ht => hlast t ht _ List.mem_cons_self
    rw [List.append_cons] at hms ⊢
    cases hm : m.depth? depth with
    | some depth' =>
      rw [findEnds_cons hm]
      exact ih (h.step hn hm) hms
    | none =>
      obtain rfl := Mark.eq_ending_of_depth? hm
      obtain rfl : depth = 0 := by
        cases depth with
        | zero => rfl
        | succ depth => cases hm
      obtain ⟨hclose, hpart⟩ := h.ends hn fun t ht => List.rel_of_pairwise_cons hcons ht
      refine ⟨some ⟨elseAt, n⟩, rfl, hclose, ?_⟩
      intro ends hends
      obtain rfl := Option.some.inj hends
      exact hpart

end Reads

/-- Where a search ends is where the branches are cut. -/
theorem branches?_eq_some_iff {s whenTrue whenFalse behind : Text} {found : Option Ends}
    (h : findEnds 0 none (placedMarks s) = .ok found) :
    branches? s = some (whenTrue, whenFalse, behind) ↔
      ∃ ends ∈ found, checkedBranch s true ends = .ok whenTrue ∧
        checkedBranch s false ends = .ok whenFalse ∧ s.sliceFrom ends.stop = .ok behind := by
  have hends : ∀ {a b c}, branches? s = some (a, b, c) → ∃ ends ∈ found,
      checkedBranch s true ends = .ok a ∧ checkedBranch s false ends = .ok b ∧
        s.sliceFrom ends.stop = .ok c := by
    intro a b c hbranches
    obtain ⟨ends, hfind, hbranch, hbehind⟩ := exists_ends hbranches
    exact ⟨ends, Except.ok.inj (h.symm.trans hfind), hbranch true, hbranch false, hbehind⟩
  constructor
  · exact hends
  · rintro ⟨ends, hfound, htrue, hfalse, hbehind⟩
    cases hbranches : branches? s with
    | none =>
      rw [branches?, Option.map_eq_none_iff] at hbranches
      rw [placedMarks, findEnds_pieces, hbranches] at h
      rw [← Except.ok.inj h] at hfound
      cases hfound
    | some parts =>
      obtain ⟨a, b, c⟩ := parts
      obtain ⟨ends', hfound', ha, hb, hc⟩ := hends hbranches
      obtain rfl : ends = ends' := Option.some.inj (hfound.symm.trans hfound')
      rw [Except.ok.inj (htrue.symm.trans ha), Except.ok.inj (hfalse.symm.trans hb),
        Except.ok.inj (hbehind.symm.trans hc)]

/-- **The search for the end of a block.** The marks that it reads are all that stand in the text,
from left to right and without a common character. Its count of open blocks never falls below zero.
It finds an end exactly when with some end mark more blocks are ended than begun: the first such
end mark, with the first `@else` before it up to which as many are ended as begun, if there is any.
The branches are cut at these two places. -/
theorem findEnds_isFirst (s : Text) :
    (∀ n m, (n, m) ∈ placedMarks s ↔ StandsAt s n m) ∧
    ((placedMarks s).Pairwise fun a b => a.1 + a.2.text.utf8Length ≤ b.1) ∧
    ∃ found, findEnds 0 none (placedMarks s) = .ok found ∧
      (found.isSome ↔ ∃ n, Closes (placedMarks s) n) ∧
      (∀ ends ∈ found, IsLeast {n | Closes (placedMarks s) n} ends.endifAt ∧
        IsFirst (fun n => Parts (placedMarks s) n ∧ n < ends.endifAt) ends.elseAt) ∧
      (∀ n, (∀ ends ∈ found, n < ends.endifAt) →
        numberUpTo (placedMarks s) .ending n ≤ numberUpTo (placedMarks s) .opening n) ∧
      ∀ whenTrue whenFalse behind, branches? s = some (whenTrue, whenFalse, behind) ↔
        ∃ ends ∈ found, checkedBranch s true ends = .ok whenTrue ∧
          checkedBranch s false ends = .ok whenFalse ∧ s.sliceFrom ends.stop = .ok behind := by
  obtain ⟨found, hfound, hclose, hpart⟩ := Reads.nil.exists_found (ascending_placedMarks s)
  refine ⟨fun n m => mem_placedMarks_iff, pairwise_marksFrom 0 _, found, hfound, ?_, ?_, ?_, ?_⟩
  · rw [← Option.isSome_map (f := Ends.endifAt)]
    exact hclose.isSome_iff
  · rintro ends rfl
    exact ⟨hclose, hpart ends rfl⟩
  · intro n hn
    by_contra hless
    obtain ⟨k, hk, hcloses⟩ := exists_closes (ascending_placedMarks s) (Nat.not_le.mp hless)
    cases found with
    | none => exact hclose k hcloses
    | some ends =>
      have hleast : ends.endifAt ≤ k := hclose.2 hcloses
      have := hn ends rfl
      omega
  · intro whenTrue whenFalse behind
    exact branches?_eq_some_iff hfound

/-- A block inside the first branch: the first `@else` and the first end mark belong to it. -/
theorem findEnds_isFirst_nested :
    let s := "a@if(x)b@else c@endif@else d@endif".toList
    placedMarks s =
        [(1, .opening), (8, .otherwise), (15, .ending), (21, .otherwise), (28, .ending)] ∧
      findEnds 0 none (placedMarks s) = .ok (some ⟨some 21, 28⟩) ∧
      IsLeast {n | Closes (placedMarks s) n} 28 ∧
      IsFirst (fun n => Parts (placedMarks s) n ∧ n < 28) (some 21) ∧
      numberUpTo (placedMarks s) .ending 27 ≤ numberUpTo (placedMarks s) .opening 27 := by
  intro s
  have hmarks : placedMarks s =
      [(1, .opening), (8, .otherwise), (15, .ending), (21, .otherwise), (28, .ending)] := by
    decide +kernel
  have hfind : findEnds 0 none (placedMarks s) = .ok (some ⟨some 21, 28⟩) := by
    rw [hmarks]
    rfl
  obtain ⟨-, -, found, hfound, -, hends, hnumbers, -⟩ := findEnds_isFirst s
  obtain rfl : found = some ⟨some 21, 28⟩ := Except.ok.inj (hfound.symm.trans hfind)
  obtain ⟨hleast, hfirst⟩ := hends _ rfl
  have hbefore : ∀ ends ∈ some (⟨some 21, 28⟩ : Ends), 27 < ends.endifAt := by
    intro ends hmem
    obtain rfl := Option.some.inj hmem
    decide
  exact ⟨hmarks, hfind, hleast, hfirst, hnumbers 27 hbefore⟩

end HtmlViews.Conditional
