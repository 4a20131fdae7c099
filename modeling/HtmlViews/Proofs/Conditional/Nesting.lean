import HtmlViews.Proofs.Conditional.Scan

/-!
# Nested blocks

A template of texts and nested blocks, its spelling, and what it stands for in a context. Expanding
the spelling gives what it stands for, however deep the blocks are nested.

The expansion of a block takes its branch and expands that in turn, and in between the branch is a
text like any other. So the proof goes by induction on the tree and needs to know of a printed tree
only that it passes: inside of a block its marks open and close blocks of their own and leave the
count as it was (**Tree.splitEnd?_print**, **Tree.splitElse_marked**). Then a block is read as it
was printed, its condition picks a branch, and the hypothesis of the induction says what that branch
expands to.

The conditions on a tree (**Tree.WellFormed**) are those under which its spelling shows its parts at
all: a text must not be taken for a mark, nor two texts for one, nor an `@else` for the beginning of
a longer word.

* **Conditional.Tree** — texts and blocks in a row, with the branches of each block.
* **Tree.print** — the spelling of a tree.
* **Tree.meaning** — its texts and, of each block, what the branch stands for that the condition
  selects.
* **Tree.WellFormed** — that the spelling can be taken apart again.
* **Tree.expand_print** — expanding the spelling of a tree gives its meaning.
-/

namespace HtmlViews.Conditional

/-- Texts and blocks in a row. -/
inductive Tree where
  /-- The end of the row. -/
  | done
  /-- A text, and what follows it. -/
  | text (s : Text) (next : Tree)
  /-- A block with one branch, and what follows it. -/
  | block (condition : Text) (yes : Tree) (next : Tree)
  /-- A block with a branch behind `@else`, and what follows it. -/
  | choice (condition : Text) (yes no : Tree) (next : Tree)

namespace Tree

/-- The spelling of a tree. -/
def print : Tree → Text
  | .done => []
  | .text s next => s ++ next.print
  | .block condition yes next =>
    Mark.opening.text ++ (condition ++ ')' :: (yes.print ++ (Mark.ending.text ++ next.print)))
  | .choice condition yes no next =>
    Mark.opening.text ++ (condition ++ ')' :: (yes.print ++ (Mark.otherwise.text
      ++ (no.print ++ (Mark.ending.text ++ next.print)))))

/-- What a tree stands for. A block stands for its first branch when its condition is true, and for
its second, or for nothing, when the condition is false or has no truth value. -/
def meaning (context : Context) : Tree → Text
  | .done => []
  | .text s next => s ++ next.meaning context
  | .block condition yes next =>
    (match Condition.holds condition context with
      | .ok true => yes.meaning context
      | .ok false | .error _ => []) ++ next.meaning context
  | .choice condition yes no next =>
    (match Condition.holds condition context with
      | .ok true => yes.meaning context
      | .ok false | .error _ => no.meaning context) ++ next.meaning context

/-- Whether a tree begins with a text. -/
def StartsWithText : Tree → Prop
  | .text _ _ => True
  | _ => False

/-- Whether a condition ends at its own parenthesis and no mark begins in it. -/
structure IsCondition (condition : Text) : Prop where
  argument : condition.IsArgument
  unmarked : Unmarked condition

instance : DecidablePred IsCondition := fun _ =>
  decidable_of_iff (_ ∧ _) ⟨fun h => ⟨h.1, h.2⟩, fun h => ⟨h.argument, h.unmarked⟩⟩

/-- Whether the spelling of a tree shows its parts: no mark begins in a text or in a condition, no
two texts are neighbours, conditions end at their own parentheses, and a second branch does not go
on with the word `@else`. -/
def WellFormed : Tree → Prop
  | .done => True
  | .text s next => Unmarked s ∧ ¬ next.StartsWithText ∧ next.WellFormed
  | .block condition yes next => IsCondition condition ∧ yes.WellFormed ∧ next.WellFormed
  | .choice condition yes no next =>
    IsCondition condition ∧ yes.WellFormed ∧ (∀ c ∈ no.print.head?, isWord c = false)
      ∧ no.WellFormed ∧ next.WellFormed

instance : DecidablePred StartsWithText
  | .text _ _ => .isTrue trivial
  | .done => .isFalse id
  | .block _ _ _ => .isFalse id
  | .choice _ _ _ _ => .isFalse id

instance decidableWellFormed : DecidablePred WellFormed
  | .done => .isTrue trivial
  | .text _ next =>
    have := decidableWellFormed next
    inferInstanceAs (Decidable (_ ∧ _ ∧ _))
  | .block _ yes next =>
    have := decidableWellFormed yes
    have := decidableWellFormed next
    inferInstanceAs (Decidable (_ ∧ _ ∧ _))
  | .choice _ yes no next =>
    have := decidableWellFormed yes
    have := Option.decidableForallMem (p := fun c => isWord c = false) no.print.head?
    have := decidableWellFormed no
    have := decidableWellFormed next
    inferInstanceAs (Decidable (_ ∧ _ ∧ _ ∧ _ ∧ _))

/-! ## The marks of a tree -/

/-- The spelling of a tree, cut at the marks of its blocks. -/
def marked : Tree → Marked
  | .done => []
  | .text s next => s.map .plain ++ next.marked
  | .block condition yes next =>
    .found .opening :: (condition.map .plain ++ .plain ')' :: (yes.marked
      ++ .found .ending :: next.marked))
  | .choice condition yes no next =>
    .found .opening :: (condition.map .plain ++ .plain ')' :: (yes.marked
      ++ .found .otherwise :: (no.marked ++ .found .ending :: next.marked)))

/-- A tree spells the same by its pieces as by its text. -/
theorem spell_marked (t : Tree) : spell t.marked = t.print := by
  induction t with
  | done => rfl
  | text s next ih => simp [marked, print, ih]
  | block condition yes next ihYes ihNext => simp [marked, print, Piece.text, ihYes, ihNext]
  | choice condition yes no next ihYes ihNo ihNext =>
    simp [marked, print, Piece.text, ihYes, ihNo, ihNext]

/-- What follows a text in a tree cannot go on with a mark that the text began. -/
theorem border_print {t : Tree} {r : Text} (ht : ¬ t.StartsWithText) (hr : Border r) :
    Border (t.print ++ r) := by
  cases t with
  | done => exact hr
  | text s next => exact absurd trivial ht
  | block condition yes next =>
    rw [print, List.append_assoc]
    exact border_mark _ _
  | choice condition yes no next =>
    rw [print, List.append_assoc]
    exact border_mark _ _

/-- What follows an `@else` in a tree makes it a mark. -/
theorem head_of_second {s : Text} (hs : ∀ c ∈ s.head?, isWord c = false) (r : Text) :
    ∀ c ∈ (s ++ (Mark.ending.text ++ r)).head?, isWord c = false := by
  intro c hc
  cases s with
  | nil =>
    obtain rfl : '@' = c := Option.some.inj hc
    decide +kernel
  | cons d s => exact hs c hc

/-- The spelling of a tree holds no end of the block that it stands in. -/
theorem splitEnd?_print {t : Tree} (ht : t.WellFormed) {r : Text} (hr : Border r) (depth : Nat) :
    splitEnd? depth (t.print ++ r) =
      (splitEnd? depth r).map fun (inside, u) => (t.marked ++ inside, u) := by
  induction t generalizing r depth with
  | done => simp [print, marked]
  | text s next ih =>
    obtain ⟨hs, hn, hnext⟩ := ht
    rw [print, List.append_assoc, splitEnd?_append hs (border_print hn hr), ih hnext hr,
      Option.map_map]
    simp [marked, Function.comp_def]
  | block condition yes next ihYes ihNext =>
    obtain ⟨hc, hyes, hnext⟩ := ht
    simp only [print, List.append_assoc, List.cons_append]
    rw [splitEnd?_opening hc.unmarked, ihYes hyes (border_mark .ending _),
      splitEnd?_of_mark (Mark.read?_ending _) rfl, ihNext hnext hr]
    simp [marked, Function.comp_def]
  | choice condition yes no next ihYes ihNo ihNext =>
    obtain ⟨hc, hyes, hno, hnoWF, hnext⟩ := ht
    simp only [print, List.append_assoc, List.cons_append]
    rw [splitEnd?_opening hc.unmarked, ihYes hyes (border_mark .otherwise _),
      splitEnd?_of_mark (Mark.read?_otherwise (head_of_second hno _)) rfl,
      ihNo hnoWF (border_mark .ending _), splitEnd?_of_mark (Mark.read?_ending _) rfl,
      ihNext hnext hr]
    simp [marked, Function.comp_def]

/-- The pieces of a tree hold no `@else` of the block that it stands in. -/
theorem splitElse_marked (t : Tree) (depth : Nat) (ps : Marked) :
    splitElse depth (t.marked ++ ps) =
      (t.marked ++ (splitElse depth ps).1, (splitElse depth ps).2) := by
  induction t generalizing depth ps with
  | done => rfl
  | text s next ih => rw [marked, List.append_assoc, splitElse_plain, ih, List.append_assoc]
  | block condition yes next ihYes ihNext =>
    simp only [marked, List.append_assoc, List.cons_append]
    rw [splitElse_opening, ihYes, splitElse_of_mark depth rfl (by simp), ihNext]
  | choice condition yes no next ihYes ihNo ihNext =>
    simp only [marked, List.append_assoc, List.cons_append]
    rw [splitElse_opening, ihYes, splitElse_of_mark (depth + 1) rfl (by simp), ihNo,
      splitElse_of_mark depth rfl (by simp), ihNext]

/-! ## The blocks of a tree -/

/-- A block with one branch is read as it was spelled. -/
theorem read?_block {condition : Text} {yes next : Tree} (hc : IsCondition condition)
    (hyes : yes.WellFormed) :
    Found.read? (print (.block condition yes next)) =
      some (.block ⟨condition, yes.print, []⟩, next.print) := by
  have hbranches : branches? (yes.print ++ (Mark.ending.text ++ next.print)) =
      some (yes.print, [], next.print) := by
    have hsplit := splitElse_marked yes 0 []
    rw [branches?, splitEnd?_print hyes (border_mark .ending _), splitEnd?_ending]
    simp only [Option.map_some, hsplit]
    simp [splitElse, spell_marked]
  simp [Found.read?, print, hc.argument.closing?, hbranches]

/-- A block with two branches is read as it was spelled. -/
theorem read?_choice {condition : Text} {yes no next : Tree} (hc : IsCondition condition)
    (hyes : yes.WellFormed) (hhead : ∀ c ∈ no.print.head?, isWord c = false)
    (hno : no.WellFormed) :
    Found.read? (print (.choice condition yes no next)) =
      some (.block ⟨condition, yes.print, no.print⟩, next.print) := by
  have hbranches : branches? (yes.print ++ (Mark.otherwise.text ++ (no.print
      ++ (Mark.ending.text ++ next.print)))) = some (yes.print, no.print, next.print) := by
    have hsplit := splitElse_marked yes 0 (.found .otherwise :: no.marked)
    rw [branches?, splitEnd?_print hyes (border_mark .otherwise _),
      splitEnd?_of_mark (Mark.read?_otherwise (head_of_second hhead _)) rfl,
      splitEnd?_print hno (border_mark .ending _), splitEnd?_ending]
    simp only [Option.map_some, List.append_nil, hsplit]
    simp [splitElse, spell_marked]
  simp [Found.read?, print, hc.argument.closing?, hbranches]

/-! ## Expansion -/

/-- **Expanding a tree of nested blocks gives its meaning**: the texts stay, and each block leaves
the meaning of its first branch if its condition is true, and of its second branch or nothing if
the condition is false or has no truth value. -/
theorem expand_print (context : Context) {t : Tree} (ht : t.WellFormed) :
    (expand context t.print).value = t.meaning context := by
  induction t with
  | done => rw [print, expand_nil, meaning, Logged.value_pure]
  | text s next ih =>
    obtain ⟨hs, hn, hnext⟩ := ht
    have hborder := border_print hn border_nil
    rw [List.append_nil] at hborder
    rw [print, expand_append hs hborder, Logged.value_map, ih hnext, meaning]
  | block condition yes next ihYes ihNext =>
    obtain ⟨hc, hyes, hnext⟩ := ht
    rw [expand_of_block (read?_block hc hyes), meaning]
    simp only [Logged.value_bind, Logged.value_pure, value_isTrue, ihNext hnext]
    rcases Condition.holds condition context with e | _ | _
    · simp [Block.branch, expand_nil]
    · simp [Block.branch, expand_nil]
    · simp [Block.branch, ihYes hyes]
  | choice condition yes no next ihYes ihNo ihNext =>
    obtain ⟨hc, hyes, hhead, hno, hnext⟩ := ht
    rw [expand_of_block (read?_choice hc hyes hhead hno), meaning]
    simp only [Logged.value_bind, Logged.value_pure, value_isTrue, ihNext hnext]
    rcases Condition.holds condition context with e | _ | _
    · simp [Block.branch, ihNo hno]
    · simp [Block.branch, ihNo hno]
    · simp [Block.branch, ihYes hyes]

/-- A block inside of a branch, with a parenthesis between quotes in its condition, a word that only
begins like `@else`, and a condition that is none. -/
theorem expand_print_nested :
    let t : Tree :=
      .block "!$x".toList
        (.text "A@elsewhere ".toList
          (.choice "')' === ''".toList (.text "B".toList .done) (.text "<b>C</b>".toList .done)
            (.text "D".toList .done)))
        (.choice "f(1)".toList .done (.text " E".toList .done) .done)
    t.WellFormed ∧ (expand .empty t.print).value = "A@elsewhere <b>C</b>D E".toList := by
  intro t
  have ht : t.WellFormed := by decide +kernel
  refine ⟨ht, ?_⟩
  rw [expand_print .empty ht]
  cbv

end Tree

end HtmlViews.Conditional
