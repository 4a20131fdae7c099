import HtmlViews.Proofs.Conditional.Conjunction
import HtmlViews.Proofs.Conditional.Marks

/-!
# Blocks around blocks

The end of a block is found by its mark, also where the mark is spelled in the condition of a block
inside of it, between quotes. So a block whose condition is true shows what stands in it exactly if
the marks in that condition are passed when the inner block is open: if they end as many blocks as
they open, and none of them but a beginning follows where they have ended the inner block itself.

If the marks are harmless, the outer block is read up to its own end and leaves the inner block,
which is expanded as it would be alone. If they are not, there is a first mark among them that the
outer block takes for its own (**exists_own_mark**), and its branch ends within the condition of the
inner block. What it leaves then begins with a directive that is never finished, which is kept; so
an `@` stands in what is shown, while a block without an `@` in its body shows none. That tells the
two apart.

* **Conditional.Harmless** — such rows of marks.
* **branches?_wrapped** — a block around a block with such a condition has the whole of it as its
  branch.
* **branch_of_not_harmless** — a block around any other ends its branch before the end of the inner
  one, or has no end.
* **expand_wrapped_iff** — a true condition around a block changes nothing exactly if the marks in
  the condition of that block are harmless.
-/

namespace HtmlViews

namespace Condition

/-- The word for true is read as its value. -/
theorem read_true : read "true".toList = .ok (.literal (.bool true)) := by
  have hscan : scan "true".toList = .ok [.word "true".toList] := by
    cbv
  exact read_eq_ok_iff.mpr ⟨_, hscan, rfl⟩

/-- It can stand between parentheses. -/
theorem isArgument_true : Text.IsArgument "true".toList :=
  (balanced_of_read read_true).argument

/-- It holds in every context. -/
theorem holds_true (context : Context) : holds "true".toList context = .ok true := by
  rw [holds, value, read_true]
  rfl

end Condition

namespace Conditional

open Condition (read balanced_of_read)

variable {b c s : Text}

/-! ## Harmless marks -/

/-- Whether marks inside of a block leave it open as it was: they end as many blocks as they open,
and where they have ended the block itself, the next mark is the beginning of one. -/
structure Harmless (ms : List Mark) : Prop where
  settled : ms.count .ending = ms.count .opening
  inside : ∀ front m back, ms = front ++ m :: back →
    front.count .ending = front.count .opening + 1 → m = .opening

/-- Harmless marks are passed where one block is open. -/
theorem harmless_iff {ms : List Mark} : Harmless ms ↔ within? 1 ms = some 1 := by
  rw [within?_eq_some_iff]
  constructor
  · rintro ⟨hsettled, hinside⟩
    exact ⟨by omega, fun front m back hms hcount => hinside front m back hms (by omega)⟩
  · rintro ⟨hcount, hinside⟩
    exact ⟨by omega, fun front m back hms hended => hinside front m back hms (by omega)⟩

instance : DecidablePred Harmless := fun _ =>
  decidable_of_iff _ harmless_iff.symm

/-! ## A block inside of another one -/

/-- The directive that begins with a condition, by what stands behind its parenthesis. -/
theorem Found.read?_of_argument (hc : c.IsArgument) (s : Text) :
    Found.read? (Mark.opening.text ++ (c ++ ')' :: s)) = some
      (match branches? s with
        | none => (.endless c, s)
        | some (whenTrue, whenFalse, r) => (.block ⟨c, whenTrue, whenFalse⟩, r)) := by
  have hclosing := hc.closing? s
  cases hbranches : branches? s with
  | none => simp [Found.read?, hclosing, hbranches]
  | some found => simp [Found.read?, hclosing, hbranches]

/-- The pieces of a block with one branch, up to the mark that is spelled at its end. -/
def openPieces (c b : Text) : Marked :=
  .found .opening :: (Text.pieces Mark.reader c ++ (')' :: b).map .plain)

/-- The pieces of an open block spell its text. -/
@[simp] theorem spell_openPieces (c b : Text) :
    spell (openPieces c b) = Mark.opening.text ++ (c ++ ')' :: b) := by
  simp [openPieces, Piece.text, spell_pieces]

/-- The marks of an open block are its opening and those of its condition. -/
@[simp] theorem marksOf_openPieces (c b : Text) :
    marksOf (openPieces c b) = .opening :: marks c := by
  have happend := marksOf_append (Text.pieces Mark.reader c) ((')' :: b).map .plain)
  rw [marksOf_plain, List.append_nil] at happend
  exact congrArg (Mark.opening :: ·) happend

/-- The pieces of the body of a block around a block, with the end marks of both. -/
theorem pieces_wrapped (hb : '@' ∉ b) :
    Text.pieces Mark.reader (block c b ++ Mark.ending.text) =
      openPieces c b ++ [.found .ending, .found .ending] := by
  have hplain : Unmarked (')' :: b) := .cons (by decide) (unmarked_of_not_mem hb)
  have htext : block c b ++ Mark.ending.text = Mark.opening.text
      ++ (c ++ (')' :: b ++ (Mark.ending.text ++ (Mark.ending.text ++ [])))) := by
    simp [block]
  have hborder : Border (')' :: b ++ (Mark.ending.text ++ (Mark.ending.text ++ []))) :=
    border_paren _
  rw [htext, Text.pieces_of_some (Mark.read?_opening _),
    pieces_append_border c hborder, pieces_append_border _ (border_mark .ending _),
    pieces_of_unmarked hplain, pieces_ending, pieces_ending, Text.pieces_nil]
  simp [openPieces]

/-- A block around a block with harmless marks in its condition has the whole of that as its
branch. -/
theorem branches?_wrapped (hb : '@' ∉ b) (hc : Harmless (marks c)) :
    branches? (block c b ++ Mark.ending.text) = some (block c b, [], []) := by
  have hpieces : Text.pieces Mark.reader (block c b ++ Mark.ending.text) =
      openPieces c b ++ [.found .ending] ++ .found .ending :: [] := by
    rw [pieces_wrapped hb, List.append_assoc]
    rfl
  have hwithin : within? 0 (marksOf (openPieces c b ++ [.found .ending])) = some 0 := by
    have hopen : within? 0 (.opening :: marks c) = some 1 := harmless_iff.mp hc
    rw [marksOf_append, marksOf_openPieces, within?_append, hopen]
    rfl
  rw [branches?_of_ending hpieces hwithin]
  simp [block, Piece.text]

section Cut

variable {whenTrue whenFalse r : Text}

/-- A mark in a condition that ends the branch of the outer block cuts the condition off from its
parenthesis. -/
theorem branch_of_own_mark {front back : Marked} {m : Mark} (hc : c.IsArgument) (hb : '@' ∉ b)
    (hsplit : Text.pieces Mark.reader c = front ++ .found m :: back)
    (hfront : within? 1 (marksOf front) = some 0) (hm : m ≠ .opening)
    (h : branches? (block c b ++ Mark.ending.text) = some (whenTrue, whenFalse, r)) :
    Found.read? whenTrue = some (.unclosed, spell front) := by
  have hpieces : Text.pieces Mark.reader (block c b ++ Mark.ending.text) =
      .found .opening :: front ++ .found m :: (back ++ (')' :: b).map .plain
        ++ [.found .ending, .found .ending]) := by
    rw [pieces_wrapped hb, openPieces, hsplit]
    simp
  have hbranch : whenTrue = Mark.opening.text ++ spell front := by
    cases m with
    | opening => exact absurd rfl hm
    | ending =>
      rw [branches?_of_ending hpieces hfront] at h
      exact (Prod.mk.inj (Option.some.inj h)).1.symm
    | otherwise =>
      rw [branches?_of_otherwise hpieces hfront] at h
      obtain ⟨_, -, h⟩ := Option.map_eq_some_iff.mp h
      exact (Prod.mk.inj h).1.symm
  have hrest : c = spell front ++ (m.text ++ spell back) := by
    rw [← spell_pieces c, hsplit, spell_append, spell_cons]
    rfl
  have hunclosed : Text.closing? (spell front) = none := by
    rw [hrest] at hc
    apply hc.closing?_eq_none
    exact List.append_ne_nil_of_left_ne_nil m.text_ne_nil _
  rw [hbranch, Found.read?, Text.after?_append, Option.map_some, hunclosed]

/-- A block around any other block shows an `@if(` that it cuts off from the end of its block. -/
theorem branch_of_not_harmless (hc : c.IsArgument) (hb : '@' ∉ b)
    (hmarks : ¬ Harmless (marks c))
    (h : branches? (block c b ++ Mark.ending.text) = some (whenTrue, whenFalse, r)) :
    Found.read? whenTrue = some (.endless c, b) ∨
      ∃ p, Found.read? whenTrue = some (.unclosed, p) := by
  rw [harmless_iff] at hmarks
  cases hwithin : within? 1 (marks c) with
  | none =>
    obtain ⟨front, m, back, hsplit, hfront, hm⟩ := exists_own_mark hwithin
    exact .inr ⟨_, branch_of_own_mark hc hb hsplit hfront hm h⟩
  | some depth =>
    have hopen : within? 0 (marksOf (openPieces c b)) = some depth := by
      rw [marksOf_openPieces]
      exact hwithin
    match depth with
    | 0 =>
      -- The end mark of the inner block ends the outer one.
      rw [branches?_of_ending (pieces_wrapped hb) hopen] at h
      obtain ⟨rfl, -⟩ := Prod.mk.inj (Option.some.inj h)
      left
      rw [spell_openPieces, Found.read?_of_argument hc,
        branches?_of_unmarked (unmarked_of_not_mem hb)]
    | 1 => exact absurd hwithin hmarks
    | depth + 2 =>
      -- Two end marks are too few for the blocks that the condition opens.
      have hcut : cutEnd? 0 (openPieces c b ++ [.found .ending, .found .ending]) = none := by
        rw [cutEnd?_within hopen]
        rfl
      rw [branches?, splitEnd?_eq, pieces_wrapped hb, hcut] at h
      cases h

end Cut

/-! ## What is shown -/

/-- An unfinished directive is kept. -/
theorem at_mem_of_unfinished {a : Found} {r : Text} (h : Found.read? s = some (a, r))
    (ha : ∀ b, a ≠ .block b) (context : Context) : '@' ∈ (expand context s).value := by
  have hat : '@' ∈ Mark.opening.text := by decide
  cases a with
  | block b => exact absurd rfl (ha b)
  | endless condition =>
    rw [expand_of_endless h]
    simp [hat]
  | unclosed =>
    rw [expand_of_unclosed h]
    simp [hat]

/-- A block with a true condition shows what its first branch expands to, and what stands behind it;
without an end, its beginning is kept. -/
theorem value_expand_true {condition : Text} (hc : condition.IsArgument) {context : Context}
    (hholds : Condition.holds condition context = .ok true) (s : Text) :
    (expand context (Mark.opening.text ++ (condition ++ ')' :: s))).value =
      match branches? s with
      | none => Mark.opening.text ++ condition ++ ')' :: (expand context s).value
      | some (whenTrue, _, r) => (expand context whenTrue).value ++ (expand context r).value := by
  have hread := Found.read?_of_argument hc s
  cases hbranches : branches? s with
  | none =>
    rw [hbranches] at hread
    rw [expand_of_endless hread]
    simp
  | some found =>
    obtain ⟨whenTrue, whenFalse, r⟩ := found
    rw [hbranches] at hread
    rw [expand_of_block hread]
    simp [value_isTrue, hholds, Block.branch]

/-- A block without an `@` in its body shows none. -/
theorem at_not_mem_block (hc : c.IsArgument) (hb : '@' ∉ b) (context : Context) :
    '@' ∉ (expand context (block c b)).value := by
  have hunmarked := unmarked_of_not_mem hb
  have hpieces : Text.pieces Mark.reader (b ++ Mark.ending.text) =
      b.map .plain ++ .found .ending :: [] := by
    rw [← List.append_nil Mark.ending.text, pieces_append_border b (border_mark .ending []),
      pieces_of_unmarked hunmarked, pieces_ending, Text.pieces_nil]
  have hbranches : branches? (b ++ Mark.ending.text) = some (b, [], []) := by
    have hwithin : within? 0 (marksOf (b.map .plain)) = some 0 := by
      rw [marksOf_plain]
      rfl
    rw [branches?_of_ending hpieces hwithin, spell_plain, spell_nil]
  have hread := Found.read?_of_argument hc (b ++ Mark.ending.text)
  rw [hbranches] at hread
  have hbody : expand context (b ++ []) = _ := expand_append hunmarked border_nil
  rw [List.append_nil, expand_nil, map_pure, List.append_nil] at hbody
  rw [block, expand_of_block hread]
  simp only [Logged.value_bind, Logged.value_pure, expand_nil, List.append_nil, Block.branch]
  cases (isTrue context c).value with
  | true => rwa [if_pos rfl, hbody]
  | false =>
    rw [if_neg Bool.false_ne_true, expand_nil]
    exact List.not_mem_nil

/-- A block around a block with harmless marks in its condition shows what that block shows. -/
theorem value_wrapped (hb : '@' ∉ b) (hmarks : Harmless (marks c)) (context : Context) :
    (expand context (block "true".toList (block c b))).value =
      (expand context (block c b)).value := by
  rw [block, value_expand_true Condition.isArgument_true (Condition.holds_true context),
    branches?_wrapped hb hmarks]
  simp [expand_nil]

/-- A block around any other block shows an unfinished directive. -/
theorem at_mem_wrapped (hc : c.IsArgument) (hb : '@' ∉ b) (hmarks : ¬ Harmless (marks c))
    (context : Context) :
    '@' ∈ (expand context (block "true".toList (block c b))).value := by
  rw [block, value_expand_true Condition.isArgument_true (Condition.holds_true context)]
  cases hbranches : branches? (block c b ++ Mark.ending.text) with
  | none => exact List.mem_append_left _ (List.mem_append_left _ (by decide))
  | some found =>
    obtain ⟨whenTrue, whenFalse, r⟩ := found
    apply List.mem_append_left
    rcases branch_of_not_harmless hc hb hmarks hbranches with hread | ⟨p, hread⟩
    · exact at_mem_of_unfinished hread (by simp) context
    · exact at_mem_of_unfinished hread (by simp) context

/-- **A true condition around a block changes nothing exactly if the marks in the condition of that
block are harmless**: for all accepted conditions, also those with marks between quotes, in every
context, and around every text without an `@`. -/
theorem expand_wrapped_iff {e : Condition.Expr} (hc : read c = .ok e) (hb : '@' ∉ b)
    (context : Context) :
    (expand context (block "true".toList (block c b))).value =
        (expand context (block c b)).value ↔
      Harmless (marks c) := by
  have hargument := (balanced_of_read hc).argument
  constructor
  · intro hsame
    by_contra hmarks
    apply at_not_mem_block hargument hb context
    rw [← hsame]
    exact at_mem_wrapped hargument hb hmarks context
  · intro hmarks
    exact value_wrapped hb hmarks context

/-- An end mark in front of a beginning is harmless, an end mark alone is not. -/
theorem expand_wrapped_iff_strings :
    let passed := "'@endif' !== '@if('".toList
    let ended := "$x !== '@endif'".toList
    let body := "<b>shown</b>".toList
    (expand .empty (block "true".toList (block passed body))).value =
        (expand .empty (block passed body)).value ∧
      (expand .empty (block "true".toList (block ended body))).value ≠
        (expand .empty (block ended body)).value := by
  have hscanPassed : Condition.scan "'@endif' !== '@if('".toList =
      .ok [.quoted '\'' "@endif".toList, .operator .notIdentical,
        .quoted '\'' "@if(".toList] := by
    cbv
  have hscanEnded : Condition.scan "$x !== '@endif'".toList =
      .ok [.variable ['x'], .operator .notIdentical, .quoted '\'' "@endif".toList] := by
    cbv
  have hreadPassed : read "'@endif' !== '@if('".toList =
      .ok (.binary .notIdentical (.literal (.str "@endif")) (.literal (.str "@if("))) :=
    Condition.read_eq_ok_iff.mpr ⟨_, hscanPassed, rfl⟩
  have hreadEnded : read "$x !== '@endif'".toList =
      .ok (.binary .notIdentical (.variable "x") (.literal (.str "@endif"))) :=
    Condition.read_eq_ok_iff.mpr ⟨_, hscanEnded, rfl⟩
  have hpassed : Harmless (marks "'@endif' !== '@if('".toList) := by
    decide +kernel
  have hended : ¬ Harmless (marks "$x !== '@endif'".toList) := by
    decide +kernel
  have hbody : '@' ∉ "<b>shown</b>".toList := by
    decide
  exact ⟨(expand_wrapped_iff hreadPassed hbody .empty).mpr hpassed,
    fun hsame => hended ((expand_wrapped_iff hreadEnded hbody .empty).mp hsame)⟩

/-- A condition with an end mark between quotes ends the block around its own. -/
theorem not_forall_expand_wrapped :
    ¬ ∀ (c b : Text) (e : Condition.Expr) (context : Context), read c = .ok e → '@' ∉ b →
      (expand context (block "true".toList (block c b))).value =
        (expand context (block c b)).value := by
  intro hall
  have hscan : Condition.scan "'@endif'".toList = .ok [.quoted '\'' "@endif".toList] := by
    cbv
  have hread : read "'@endif'".toList = .ok (.literal (.str "@endif")) :=
    Condition.read_eq_ok_iff.mpr ⟨_, hscan, rfl⟩
  have hargument := (balanced_of_read hread).argument
  have hended : ¬ Harmless (marks "'@endif'".toList) := by
    decide +kernel
  have hbody : '@' ∉ "b".toList := by
    decide
  apply at_not_mem_block hargument hbody .empty
  rw [← hall _ _ _ .empty hread hbody]
  exact at_mem_wrapped hargument hbody hended .empty

end Conditional

end HtmlViews
