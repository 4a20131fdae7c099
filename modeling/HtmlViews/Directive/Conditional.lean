import HtmlViews.Condition.Eval
import HtmlViews.Log
import HtmlViews.Text.Parenthesis
import HtmlViews.Text.Piece
import HtmlViews.Text.Word

/-!
# Conditional blocks

`@if(condition) … @else … @endif` shows one of its branches. Blocks nest, and the branch that is
shown is expanded again. A condition without a truth value counts as false.

The end of a block is found by counting marks in the text behind the condition: it is the first end
mark that belongs to no block inside. The marks are counted wherever they stand, also in the strings
of conditions inside. The first `@else` at the level of the block divides it. Of a block that is not
finished, as little as possible is kept as text, and the rest is searched on.

Blocks are replaced from the outside to the inside: the condition of a block is evaluated, and then
the branch that was selected is expanded, so that conditions in the other branch are neither
evaluated nor reported. Each branch is a part of the text and shorter than the block, by which the
recursion ends.

* **Mark** — the three words that structure blocks.
* **Block** — a condition with its two branches.
* **Conditional.expand** — a text with its blocks replaced.
* **Conditional.Found.read?** — the directive that a text begins with, finished or not.
* **Conditional.isTrue** — whether a condition counts as true, with the report if it has no value.
-/

namespace HtmlViews.Conditional

/-! ## The marks of blocks -/

/-- A word that structures blocks. -/
inductive Mark where
  /-- The beginning of a block. -/
  | opening
  /-- The end of the first branch. -/
  | otherwise
  /-- The end of a block. -/
  | ending
deriving DecidableEq, Repr

namespace Mark

/-- The spelling of a mark. -/
def text : Mark → Text
  | .opening => "@if(".toList
  | .otherwise => "@else".toList
  | .ending => "@endif".toList

/-- The mark that a text begins with, and what follows it. A word that only begins like `@else` is
none. -/
def read? (s : Text) : Option (Mark × Text) :=
  match Text.after? opening.text s with
  | some r => some (.opening, r)
  | none =>
    match Text.after? ending.text s with
    | some r => some (.ending, r)
    | none =>
      match Text.after? otherwise.text s with
      | some r => if Text.word r = [] then some (.otherwise, r) else none
      | none => none

/-- A mark that is read stands at the beginning as it is spelled. -/
theorem eq_of_read? {s r : Text} {m : Mark} (h : read? s = some (m, r)) : s = m.text ++ r := by
  unfold read? at h
  split at h
  · rename_i r' h'
    simp only [Option.some.injEq, Prod.mk.injEq] at h
    obtain ⟨rfl, rfl⟩ := h
    exact Text.after?_eq_some_iff.mp h'
  · split at h
    · rename_i r' h'
      simp only [Option.some.injEq, Prod.mk.injEq] at h
      obtain ⟨rfl, rfl⟩ := h
      exact Text.after?_eq_some_iff.mp h'
    · split at h
      · rename_i r' h'
        split at h
        · simp only [Option.some.injEq, Prod.mk.injEq] at h
          obtain ⟨rfl, rfl⟩ := h
          exact Text.after?_eq_some_iff.mp h'
        · simp at h
      · simp at h

/-- How many blocks are open behind a mark if `depth` are open before it; none behind the end of the
block that the count began in. -/
def depth? : Mark → (depth : Nat) → Option Nat
  | .opening, depth => some (depth + 1)
  | .otherwise, depth => some depth
  | .ending, 0 => none
  | .ending, depth + 1 => some depth

/-- Only an ending can have no block that it ends. -/
theorem eq_ending_of_depth? {m : Mark} {depth : Nat} (h : m.depth? depth = none) :
    m = .ending := by
  cases m <;> simp_all [depth?]

/-- The reader of marks. -/
def reader : Reader Mark where
  read := read?
  shorter {s r m} h := by
    have : 0 < m.text.length := by cases m <;> decide
    rw [eq_of_read? h, List.length_append]
    omega

end Mark

/-- A text cut at its marks. -/
abbrev Marked := List (Piece Mark)

/-- The text of pieces. -/
def spell (ps : Marked) : Text :=
  ps.flatMap (Piece.text Mark.text)

/-- Cutting a text at its marks loses nothing. -/
theorem spell_pieces (s : Text) : spell (Text.pieces Mark.reader s) = s :=
  Text.flatMap_pieces (fun _ _ _ h => Mark.eq_of_read? h) s

/-- The pieces up to the end of the block that a text stands in, and what follows its end mark;
`depth` counts the blocks that were opened meanwhile. -/
def splitEnd? (depth : Nat) (s : Text) : Option (Marked × Text) :=
  match s with
  | [] => none
  | c :: t =>
    match _h : Mark.read? (c :: t) with
    | none => (splitEnd? depth t).map fun (inside, r) => (.plain c :: inside, r)
    | some (m, r) =>
      match m.depth? depth with
      | none => some ([], r)
      | some depth => (splitEnd? depth r).map fun (inside, r) => (.found m :: inside, r)
termination_by s.length
decreasing_by
  · simp
  · exact Mark.reader.shorter _h

/-- The pieces of a block before its first `@else` and those behind it; `depth` counts the blocks
that were opened meanwhile. -/
def splitElse : (depth : Nat) → Marked → Marked × Option Marked
  | _, [] => ([], none)
  | 0, .found .otherwise :: ps => ([], some ps)
  | depth, p :: ps =>
    let depth := match p with
      | .plain _ => depth
      | .found m => (m.depth? depth).getD 0
    let (front, rest) := splitElse depth ps
    (p :: front, rest)

/-! ## Blocks -/

/-- A conditional block. -/
structure Block where
  /-- The text between the parentheses. -/
  condition : Text
  /-- The branch for a condition that is true. -/
  whenTrue : Text
  /-- The branch for any other condition. -/
  whenFalse : Text
deriving DecidableEq, Repr

/-- The branch that a truth value selects. -/
def Block.branch (b : Block) (holds : Bool) : Text :=
  if holds then b.whenTrue else b.whenFalse

/-- The two branches of a block whose body a text begins with, and what follows the block. -/
def branches? (s : Text) : Option (Text × Text × Text) :=
  (splitEnd? 0 s).map fun (inside, r) =>
    let (front, rest) := splitElse 0 inside
    (spell front, spell (rest.getD []), r)

/-- What an `@if(` turns out to be. -/
inductive Found where
  /-- A block. -/
  | block (b : Block)
  /-- A condition without the end of its block. -/
  | endless (condition : Text)
  /-- A parenthesis that is never closed. -/
  | unclosed
deriving DecidableEq, Repr

/-- The directive that a text begins with, and what follows it. Of an unfinished one, as little as
possible counts. -/
def Found.read? (s : Text) : Option (Found × Text) :=
  (Text.after? Mark.opening.text s).map fun s =>
    match Text.closing? s with
    | none => (.unclosed, s)
    | some (condition, body) =>
      match branches? body with
      | none => (.endless condition, body)
      | some (whenTrue, whenFalse, r) => (.block ⟨condition, whenTrue, whenFalse⟩, r)

/-! ### Every part of a block is shorter than the block -/

/-- The block and what follows it are the text cut at its marks. -/
theorem pieces_of_splitEnd? {depth : Nat} {s r : Text} {inside : Marked}
    (h : splitEnd? depth s = some (inside, r)) :
    Text.pieces Mark.reader s = inside ++ .found .ending :: Text.pieces Mark.reader r := by
  fun_induction splitEnd? depth s generalizing inside with
  | case1 => simp at h
  | case2 depth c t hread ih =>
    simp only [Option.map_eq_some_iff, Prod.exists, Prod.mk.injEq] at h
    obtain ⟨i, u, hi, rfl, rfl⟩ := h
    rw [Text.pieces_cons_of_none hread, ih hi]
    rfl
  | case3 depth c t m r' hread hdepth =>
    simp only [Option.some.injEq, Prod.mk.injEq] at h
    obtain ⟨rfl, rfl⟩ := h
    rw [Text.pieces_of_some hread, Mark.eq_ending_of_depth? hdepth]
    rfl
  | case4 depth c t m r' hread d hdepth ih =>
    simp only [Option.map_eq_some_iff, Prod.exists, Prod.mk.injEq] at h
    obtain ⟨i, u, hi, rfl, rfl⟩ := h
    rw [Text.pieces_of_some hread, ih hi]
    rfl

/-- What is inside of a block, its ending and what is behind make up the text. -/
theorem eq_of_splitEnd? {depth : Nat} {s r : Text} {inside : Marked}
    (h : splitEnd? depth s = some (inside, r)) : s = spell inside ++ (Mark.ending.text ++ r) := by
  calc
    s = spell (Text.pieces Mark.reader s) := (spell_pieces s).symm
    _ = spell (inside ++ .found .ending :: Text.pieces Mark.reader r) := by
      rw [pieces_of_splitEnd? h]
    _ = spell inside ++ (Mark.ending.text ++ spell (Text.pieces Mark.reader r)) := by
      simp [spell, Piece.text]
    _ = spell inside ++ (Mark.ending.text ++ r) := by rw [spell_pieces]

/-- Both branches consist of pieces of the body. -/
theorem splitElse_sublist (depth : Nat) (ps : Marked) :
    (splitElse depth ps).1.Sublist ps ∧ ((splitElse depth ps).2.getD []).Sublist ps := by
  fun_induction splitElse depth ps with
  | case1 => simp
  | case2 ps => simp
  | case3 depth p ps _ d' front rest hsplit ih =>
    rw [hsplit] at ih
    exact ⟨ih.1.cons_cons p, ih.2.cons p⟩

/-- Fewer pieces spell no longer text. -/
theorem length_spell_le {ps qs : Marked} (h : ps.Sublist qs) :
    (spell ps).length ≤ (spell qs).length := by
  induction h with
  | slnil => exact Nat.le_refl _
  | cons p _ ih => exact Nat.le_trans ih (by simp [spell])
  | cons_cons p _ ih => simpa [spell] using ih

/-- Neither branch, nor what is behind the block, is longer than the text. -/
theorem length_of_branches? {s t f r : Text} (h : branches? s = some (t, f, r)) :
    t.length ≤ s.length ∧ f.length ≤ s.length ∧ r.length ≤ s.length := by
  simp only [branches?, Option.map_eq_some_iff, Prod.exists, Prod.mk.injEq] at h
  obtain ⟨inside, rest, hsplit, rfl, rfl, rfl⟩ := h
  have hs := congrArg List.length (eq_of_splitEnd? hsplit)
  simp only [List.length_append] at hs
  obtain ⟨hfront, hback⟩ := splitElse_sublist 0 inside
  have := length_spell_le hfront
  have := length_spell_le hback
  omega

/-- What follows a directive is shorter than the text, and so is each branch of a block. -/
theorem length_of_read? {s r : Text} {a : Found} (h : Found.read? s = some (a, r)) :
    r.length < s.length ∧
      ∀ b, a = .block b → ∀ holds, (b.branch holds).length < s.length := by
  simp only [Found.read?, Option.map_eq_some_iff] at h
  obtain ⟨u, hu, h⟩ := h
  have hlen : s.length = 4 + u.length := Text.length_of_after? hu
  split at h
  · simp only [Prod.mk.injEq] at h
    obtain ⟨rfl, rfl⟩ := h
    exact ⟨by omega, by simp⟩
  · rename_i condition body hclose
    have hbody : u.length = condition.length + (body.length + 1) := by
      rw [Text.eq_of_closing? hclose]
      simp
    split at h
    · simp only [Prod.mk.injEq] at h
      obtain ⟨rfl, rfl⟩ := h
      exact ⟨by omega, by simp⟩
    · rename_i t f r' hb
      simp only [Prod.mk.injEq] at h
      obtain ⟨rfl, rfl⟩ := h
      obtain ⟨ht, hf, hr⟩ := length_of_branches? hb
      refine ⟨by omega, ?_⟩
      rintro b hb holds
      cases hb
      cases holds <;> simp [Block.branch] <;> omega

/-! ## Expansion -/

/-- Whether a condition is true; one without a truth value is reported and taken to be false. -/
def isTrue (context : Context) (condition : Text) : Logged Bool :=
  match Condition.holds condition context with
  | .ok b => pure b
  | .error e => do
    Logged.write
      (.takenAsFalse (String.ofList condition) (.condition (String.ofList e.message)))
    pure false

/-- The failure of a directive that is not finished. -/
def unfinished (reason : String) : Failure :=
  .malformedDirective "if" reason

/-- A text with its blocks replaced by the branches that their conditions select. -/
def expand (context : Context) (s : Text) : Logged Text :=
  match s with
  | [] => pure []
  | c :: t =>
    match _h : Found.read? (c :: t) with
    | none => do
      let out ← expand context t
      pure (c :: out)
    | some (.unclosed, r) => do
      Logged.write (.failed (unfinished "unbalanced parentheses"))
      let out ← expand context r
      pure (Mark.opening.text ++ out)
    | some (.endless condition, r) => do
      Logged.write (.failed (unfinished "missing @endif"))
      let out ← expand context r
      pure (Mark.opening.text ++ condition ++ ')' :: out)
    | some (.block b, r) => do
      let holds ← isTrue context b.condition
      let kept ← expand context (b.branch holds)
      let out ← expand context r
      pure (kept ++ out)
termination_by s.length
decreasing_by
  · simp
  · exact (length_of_read? _h).1
  · exact (length_of_read? _h).1
  · exact (length_of_read? _h).2 b rfl holds
  · exact (length_of_read? _h).1

end HtmlViews.Conditional
