import HtmlViews.Directive.Conditional
import HtmlViews.Proofs.Log
import HtmlViews.Proofs.Text.Search
import Mathlib.Data.List.Infix

/-!
# Blocks in longer texts

What the search for blocks does with a text that is made of parts: it passes over a part in which no
mark begins, counts the marks between the parts, and cuts a block at the marks of its own depth.

Whether a mark begins at a place can depend on what follows: an `@else` is a mark only where no word
goes on. So a text is unmarked if no mark begins in it, with nothing behind it or with whatever
else, and what stands behind it has to be a border, at which no mark that was begun before can go
on. Under these two conditions the functions of this stage work on the parts of a text as they do on
the whole, and each of them has its lemma for an unmarked part, for a mark, and for a block.

* **Conditional.Unmarked** — no mark begins in the text, not even with its last characters.
* **Conditional.Border** — a text that cannot go on with a mark begun before it.
* **Conditional.splitEnd?_append**, **Conditional.expand_append** — an unmarked part is kept.
* **Conditional.expand_of_block**, **Conditional.expand_of_unclosed**,
  **Conditional.expand_of_endless** — the three ways to go on behind the beginning of a block.
-/

namespace HtmlViews.Conditional

/-! ## Marks -/

/-- Whether no mark begins in a text. An `@else` at its end counts as one, because no word character
follows it there. -/
structure Unmarked (s : Text) : Prop where
  opening : ¬ Mark.opening.text <:+: s
  ending : ¬ Mark.ending.text <:+: s
  otherwise : ∀ u v, s = u ++ Mark.otherwise.text ++ v → ∃ c r, v = c :: r ∧ isWord c

/-- A text without marks has none behind its first character. -/
theorem Unmarked.tail {c : Char} {s : Text} (h : Unmarked (c :: s)) : Unmarked s where
  opening hs := h.opening (hs.trans (List.suffix_cons c s).isInfix)
  ending hs := h.ending (hs.trans (List.suffix_cons c s).isInfix)
  otherwise u v hs := h.otherwise (c :: u) v (by rw [hs]; rfl)

/-- Whether a text cannot go on with a mark that was begun before it. -/
def Border (s : Text) : Prop :=
  ∀ c ∈ s.head?, c = '@' ∨ c = ')'

/-- No word goes on at the end of a text. -/
theorem border_nil : Border [] := by
  simp [Border]

/-- No word goes on at a mark. -/
theorem border_mark (m : Mark) (s : Text) : Border (m.text ++ s) := by
  intro c hc
  cases m <;> exact .inl (Option.some.inj hc).symm

/-- No word goes on at a closing parenthesis. -/
theorem border_paren (s : Text) : Border (')' :: s) := by
  intro c hc
  exact .inr (Option.some.inj hc).symm

namespace Mark

/-- The characters of an opening. -/
theorem text_opening : opening.text = ['@', 'i', 'f', '('] := rfl

/-- The characters of an else. -/
theorem text_otherwise : otherwise.text = ['@', 'e', 'l', 's', 'e'] := rfl

/-- The characters of an ending. -/
theorem text_ending : ending.text = ['@', 'e', 'n', 'd', 'i', 'f'] := rfl

/-- Every mark has characters. -/
theorem text_ne_nil (m : Mark) : m.text ≠ [] := by
  cases m <;> decide

/-- Behind its first character a mark has neither an `@` nor a `)`. -/
theorem not_mem_tail_of_border {s : Text} (hs : Border s) (m : Mark) :
    ∀ c ∈ s.head?, c ∉ m.text.tail := by
  intro c hc
  rcases hs c hc with rfl | rfl <;> cases m <;> decide

/-- An opening is read wherever it stands. -/
@[simp] theorem read?_opening (s : Text) : read? (opening.text ++ s) = some (.opening, s) := by
  simp [read?]

/-- An ending is read wherever it stands. -/
@[simp] theorem read?_ending (s : Text) : read? (ending.text ++ s) = some (.ending, s) := by
  have : ¬ opening.text <+: ending.text ++ s := by
    simp [text_opening, text_ending]
  simp [read?, Text.after?_eq_none_iff.mpr this]

/-- An `@else` is a mark when no word character follows it. -/
theorem read?_otherwise {s : Text} (hs : ∀ c ∈ s.head?, isWord c = false) :
    read? (otherwise.text ++ s) = some (.otherwise, s) := by
  have hword : Text.word s = [] := by
    cases s with
    | nil => rfl
    | cons c s => simp [Text.word, hs c rfl]
  have ho : ¬ opening.text <+: otherwise.text ++ s := by
    simp [text_opening, text_otherwise]
  have he : ¬ ending.text <+: otherwise.text ++ s := by
    simp [text_ending, text_otherwise]
  simp [read?, Text.after?_eq_none_iff.mpr ho, Text.after?_eq_none_iff.mpr he, hword]

/-- A text that does not begin with an `@` begins with no mark. -/
theorem read?_cons_of_ne {c : Char} (hc : c ≠ '@') (s : Text) : read? (c :: s) = none := by
  have h : ∀ m : Mark, Text.after? m.text (c :: s) = none := by
    intro m
    cases m <;> simp [Text.after?, text_opening, text_otherwise, text_ending, Ne.symm hc]
  simp [read?, h]

/-- In an unmarked part no mark is read. -/
theorem read?_append {c : Char} {s r : Text} (hs : Unmarked (c :: s)) (hr : Border r) :
    read? (c :: (s ++ r)) = none := by
  have ho := Text.after?_append_of_not_prefix (not_mem_tail_of_border hr .opening)
    fun h => hs.opening h.isInfix
  have he := Text.after?_append_of_not_prefix (not_mem_tail_of_border hr .ending)
    fun h => hs.ending h.isInfix
  by_cases hp : otherwise.text <+: c :: s
  · obtain ⟨v, hv⟩ := hp
    obtain ⟨d, w, rfl, hd⟩ := hs.otherwise [] v hv.symm
    have ha : Text.after? otherwise.text (c :: (s ++ r)) = some (d :: w ++ r) := by
      rw [← List.cons_append, ← hv, List.append_assoc, Text.after?_append]
    have hw : Text.word (d :: w ++ r) ≠ [] := by
      simp [Text.word, hd]
    simp only [read?, ho, he, ha, if_neg hw]
  · have ha := Text.after?_append_of_not_prefix (not_mem_tail_of_border hr .otherwise) hp
    simp only [read?, ho, he, ha]

end Mark

/-- Of a mark that is read, no word goes on behind `@else`. -/
theorem word_of_read?_otherwise {s r : Text} (h : Mark.read? s = some (.otherwise, r)) :
    Text.word r = [] := by
  unfold Mark.read? at h
  split at h
  · simp at h
  · split at h
    · simp at h
    · split at h
      · split at h
        · simp_all
        · simp at h
      · simp at h

/-- A text is unmarked when no mark is read at any place of it. -/
theorem unmarked_iff {s : Text} : Unmarked s ↔ ∀ t ∈ s.tails, Mark.read? t = none := by
  constructor
  · intro hs t ht
    obtain ⟨u, rfl⟩ := (List.mem_tails _ _).mp ht
    cases hread : Mark.read? t with
    | none => rfl
    | some found =>
      obtain ⟨m, r⟩ := found
      have ht := Mark.eq_of_read? hread
      subst ht
      cases m with
      | opening => exact absurd ⟨u, r, List.append_assoc _ _ _⟩ hs.opening
      | ending => exact absurd ⟨u, r, List.append_assoc _ _ _⟩ hs.ending
      | otherwise =>
        obtain ⟨c, w, rfl, hc⟩ := hs.otherwise u r (List.append_assoc _ _ _).symm
        have := word_of_read?_otherwise hread
        simp [Text.word, hc] at this
  · intro h
    refine ⟨?_, ?_, ?_⟩
    · rintro ⟨u, v, rfl⟩
      have := h (Mark.opening.text ++ v) (by simp)
      simp at this
    · rintro ⟨u, v, rfl⟩
      have := h (Mark.ending.text ++ v) (by simp)
      simp at this
    · rintro u v rfl
      have hnone := h (Mark.otherwise.text ++ v) (by simp)
      by_contra hv
      rw [Mark.read?_otherwise] at hnone
      · simp at hnone
      · intro c hc
        cases v with
        | nil => simp at hc
        | cons d w =>
          obtain rfl : d = c := Option.some.inj hc
          by_contra hd
          exact hv ⟨d, w, rfl, by simpa using hd⟩

instance : DecidablePred Unmarked := fun _ =>
  decidable_of_iff _ unmarked_iff.symm

/-- A text has no marks if none begins at its first character and none behind it. -/
theorem unmarked_cons_iff {c : Char} {s : Text} :
    Unmarked (c :: s) ↔ Mark.read? (c :: s) = none ∧ Unmarked s := by
  rw [unmarked_iff, unmarked_iff, List.tails_cons, List.forall_mem_cons]

/-- No mark begins with another character than an `@`. -/
theorem Unmarked.cons {c : Char} {s : Text} (hc : c ≠ '@') (hs : Unmarked s) : Unmarked (c :: s) :=
  unmarked_cons_iff.mpr ⟨Mark.read?_cons_of_ne hc s, hs⟩

/-- Where one unmarked text ends and another one begins, no mark is made. -/
theorem Unmarked.append {s r : Text} (hs : Unmarked s) (hborder : Border r) (hr : Unmarked r) :
    Unmarked (s ++ r) := by
  induction s with
  | nil => exact hr
  | cons c s ih => exact unmarked_cons_iff.mpr ⟨Mark.read?_append hs hborder, ih hs.tail⟩

/-! ## Pieces spelled out -/

/-- No pieces spell nothing. -/
@[simp] theorem spell_nil : spell [] = [] := rfl

/-- The first piece is spelled first. -/
@[simp] theorem spell_cons (p : Piece Mark) (ps : Marked) :
    spell (p :: ps) = p.text Mark.text ++ spell ps :=
  List.flatMap_cons

/-- Pieces in a row are spelled in a row. -/
@[simp] theorem spell_append (ps qs : Marked) : spell (ps ++ qs) = spell ps ++ spell qs :=
  List.flatMap_append

/-- Plain characters spell themselves. -/
@[simp] theorem spell_plain (s : Text) : spell (s.map .plain) = s := by
  induction s with
  | nil => rfl
  | cons c s ih =>
    rw [List.map_cons, spell_cons, ih]
    rfl

/-! ## The end of a block -/

/-- A character that no mark begins with is inside of the block. -/
theorem splitEnd?_cons_of_none {depth : Nat} {c : Char} {s : Text}
    (h : Mark.read? (c :: s) = none) :
    splitEnd? depth (c :: s) =
      (splitEnd? depth s).map fun (inside, r) => (.plain c :: inside, r) := by
  rw [splitEnd?]
  split
  · rfl
  · simp_all

/-- A mark that ends another block than the one in question, or none, is passed. -/
theorem splitEnd?_of_mark {depth depth' : Nat} {s r : Text} {m : Mark}
    (h : Mark.read? s = some (m, r)) (hm : m.depth? depth = some depth') :
    splitEnd? depth s =
      (splitEnd? depth' r).map fun (inside, r) => (.found m :: inside, r) := by
  cases s with
  | nil => exact absurd (List.append_eq_nil_iff.mp (Mark.eq_of_read? h).symm).1 m.text_ne_nil
  | cons c s =>
    rw [splitEnd?]
    split
    · simp_all
    · rename_i m' r' h'
      rw [h] at h'
      obtain ⟨rfl, rfl⟩ : m = m' ∧ r = r' := by simpa using h'
      simp [hm]

/-- An ending at depth zero ends the block. -/
theorem splitEnd?_ending (s : Text) : splitEnd? 0 (Mark.ending.text ++ s) = some ([], s) := by
  have h := Mark.read?_ending s
  cases hs : Mark.ending.text ++ s with
  | nil => simp [Mark.text_ending] at hs
  | cons c t =>
    rw [hs] at h
    rw [splitEnd?]
    split
    · simp_all
    · rename_i m r h'
      rw [h] at h'
      obtain ⟨rfl, rfl⟩ : Mark.ending = m ∧ s = r := by simpa using h'
      rfl

/-- An unmarked part of a block is kept, whatever the depth. -/
theorem splitEnd?_append {depth : Nat} {s r : Text} (hs : Unmarked s) (hr : Border r) :
    splitEnd? depth (s ++ r) =
      (splitEnd? depth r).map fun (inside, t) => (s.map .plain ++ inside, t) := by
  induction s with
  | nil => simp
  | cons c s ih =>
    rw [List.cons_append, splitEnd?_cons_of_none (Mark.read?_append hs hr), ih hs.tail,
      Option.map_map]
    rfl

/-- The beginning of a block inside of another one is passed together with its condition. -/
theorem splitEnd?_opening {depth : Nat} {condition : Text} (hc : Unmarked condition) (s : Text) :
    splitEnd? depth (Mark.opening.text ++ (condition ++ ')' :: s)) =
      (splitEnd? (depth + 1) s).map fun (inside, r) =>
        (.found .opening :: (condition.map .plain ++ .plain ')' :: inside), r) := by
  rw [splitEnd?_of_mark (Mark.read?_opening _) rfl, splitEnd?_append hc (border_paren s),
    splitEnd?_cons_of_none (Mark.read?_cons_of_ne (by decide) s), Option.map_map, Option.map_map]
  rfl

/-! ## The end of the first branch -/

/-- Plain characters in front are in the first branch. -/
theorem splitElse_plain (depth : Nat) (s : Text) (ps : Marked) :
    splitElse depth (s.map .plain ++ ps) =
      (s.map .plain ++ (splitElse depth ps).1, (splitElse depth ps).2) := by
  induction s with
  | nil => rfl
  | cons c s ih => simp [splitElse, ih]

/-- A mark that ends no branch of the block in question is passed. -/
theorem splitElse_of_mark {depth : Nat} (depth' : Nat) {m : Mark} {ps : Marked}
    (hm : m.depth? depth = some depth') (h : depth = 0 → m ≠ .otherwise) :
    splitElse depth (.found m :: ps) =
      (.found m :: (splitElse depth' ps).1, (splitElse depth' ps).2) := by
  rw [splitElse]
  · simp [hm]
  · rintro rfl hp
    exact h rfl (Piece.found.inj hp)

/-- The beginning of a block inside of another one is passed together with its condition. -/
theorem splitElse_opening (depth : Nat) (condition : Text) (ps : Marked) :
    splitElse depth (.found .opening :: (condition.map .plain ++ .plain ')' :: ps)) =
      (.found .opening :: (condition.map .plain ++ .plain ')' :: (splitElse (depth + 1) ps).1),
        (splitElse (depth + 1) ps).2) := by
  have hparen := splitElse_plain (depth + 1) [')'] ps
  simp only [List.map_cons, List.map_nil, List.singleton_append] at hparen
  rw [splitElse_of_mark (depth + 1) rfl (by simp), splitElse_plain, hparen]

/-! ## Expansion -/

/-- In the empty text there is nothing to expand. -/
theorem expand_nil (context : Context) : expand context [] = pure [] := by
  rw [expand]

/-- A character that nothing is read at is kept. -/
theorem expand_cons_of_none {context : Context} {c : Char} {s : Text}
    (h : Found.read? (c :: s) = none) :
    expand context (c :: s) = (c :: ·) <$> expand context s := by
  rw [expand]
  split
  · rfl
  all_goals simp_all

/-- Whether a branch is selected by a condition that is true, and by no other. -/
theorem value_isTrue (context : Context) (condition : Text) :
    (isTrue context condition).value =
      match Condition.holds condition context with
      | .ok b => b
      | .error _ => false := by
  unfold isTrue
  split <;> simp_all

/-- A block leaves the expansion of the branch that its condition selects. -/
theorem expand_of_block {context : Context} {s r : Text} {b : Block}
    (h : Found.read? s = some (.block b, r)) :
    expand context s = (do
      let holds ← isTrue context b.condition
      let kept ← expand context (b.branch holds)
      let out ← expand context r
      pure (kept ++ out)) := by
  cases s with
  | nil => simp [Found.read?, Text.after?, Mark.text_opening] at h
  | cons c s =>
    rw [expand]
    split
    all_goals simp_all

/-- Of a directive that is not closed only its beginning is kept. -/
theorem expand_of_unclosed {context : Context} {s r : Text}
    (h : Found.read? s = some (.unclosed, r)) :
    expand context s = (do
      Logged.write (.failed (unfinished "unbalanced parentheses"))
      let out ← expand context r
      pure (Mark.opening.text ++ out)) := by
  cases s with
  | nil => simp [Found.read?, Text.after?, Mark.text_opening] at h
  | cons c s =>
    rw [expand]
    split
    all_goals simp_all

/-- A directive without an end is kept with its condition. -/
theorem expand_of_endless {context : Context} {s r condition : Text}
    (h : Found.read? s = some (.endless condition, r)) :
    expand context s = (do
      Logged.write (.failed (unfinished "missing @endif"))
      let out ← expand context r
      pure (Mark.opening.text ++ condition ++ ')' :: out)) := by
  cases s with
  | nil => simp [Found.read?, Text.after?, Mark.text_opening] at h
  | cons c s =>
    rw [expand]
    split
    all_goals simp_all

/-- In an unmarked part no block begins. -/
theorem Found.read?_append {c : Char} {s r : Text} (hs : Unmarked (c :: s)) (hr : Border r) :
    Found.read? (c :: (s ++ r)) = none := by
  have h := Text.after?_append_of_not_prefix (Mark.not_mem_tail_of_border hr .opening)
    fun h => hs.opening h.isInfix
  simp only [Found.read?, h, Option.map_none]

/-- In a text without marks nothing is read. -/
theorem Unmarked.passes {s r : Text} (hs : Unmarked s) (hr : Border r) :
    Passes Found.read? s r := by
  induction s with
  | nil => trivial
  | cons c s ih => exact ⟨Found.read?_append hs hr, ih hs.tail⟩

/-- A part in which no block begins is kept. -/
theorem expand_of_passes {p s : Text} (h : Passes Found.read? p s) (context : Context) :
    expand context (p ++ s) = (p ++ ·) <$> expand context s := by
  induction p with
  | nil => simp
  | cons c p ih =>
    obtain ⟨hc, hp⟩ := h
    rw [List.cons_append, expand_cons_of_none hc, ih hp, Functor.map_map]
    rfl

/-- An unmarked part is kept. -/
theorem expand_append {context : Context} {s r : Text} (hs : Unmarked s) (hr : Border r) :
    expand context (s ++ r) = (s ++ ·) <$> expand context r :=
  expand_of_passes (hs.passes hr) context

end HtmlViews.Conditional
