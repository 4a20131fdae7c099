import HtmlViews.Proofs.Conditional.Scan
import HtmlViews.Proofs.Crash.Condition
import HtmlViews.Proofs.Crash.Directive

/-!
# Conditional blocks without crashing

Blocks are cut out of a text by places: those of the directive and of its parentheses, that of the
end of its block and that of its `@else`. The first branch ends where the second one is announced,
and both stand in the body of the block.

The search for the end of a block goes over the marks behind the parenthesis with a count of open
blocks. It subtracts one at each end mark that does not end the block itself, and since it stops at
the one that does, the count is never zero when it subtracts (**Conditional.findEnds_pieces**). The
places that it finds are lengths of pieces before them, so the cuts at these places have a result,
and what they cut out are the branches (**Conditional.checkedBranch_places**).

Expanding goes on in the branch and behind the block. Both are shorter than the text, which is what
the recursion ends by, and so the proof is an induction on the length of the text.

* **Conditional.marksFrom** — the marks of a text with their places.
* **Conditional.findEnds** — the places at which a block is cut.
* **Conditional.findEnds_pieces** — the count of open blocks never falls below zero.
* **Conditional.checkedBranch_places** — the branches are what is cut out of the body there.
* **Conditional.checkedExpand_eq** — expanding blocks never crashes.
-/

namespace HtmlViews.Conditional

/-! ## Places of marks -/

/-- The marks among pieces with their places; the first piece stands at `n`. -/
def marksFrom : (n : Nat) → Marked → List (Nat × Mark)
  | _, [] => []
  | n, .plain c :: ps => marksFrom (n + c.utf8Size) ps
  | n, .found m :: ps => (n, m) :: marksFrom (n + m.text.utf8Length) ps

/-- The places at which a block is cut. -/
structure Ends where
  /-- The place of the first `@else` of the block. -/
  elseAt : Option Nat
  /-- The place of the end mark. -/
  endifAt : Nat

/-- The place behind the end mark. -/
def Ends.stop (e : Ends) : Nat :=
  e.endifAt + Mark.ending.text.utf8Length

/-- The places at which the block is cut that some marks stand in; `depth` counts the blocks that
were opened meanwhile. -/
def findEnds : (depth : Nat) → (elseAt : Option Nat) → List (Nat × Mark) → Checked (Option Ends)
  | _, _, [] => .ok none
  | depth, elseAt, (_, .opening) :: ms => findEnds (depth + 1) elseAt ms
  | 0, elseAt, (i, .ending) :: _ => .ok (some ⟨elseAt, i⟩)
  | depth, elseAt, (_, .ending) :: ms => do
    let depth ← Checked.minus depth 1
    findEnds depth elseAt ms
  | depth, elseAt, (i, .otherwise) :: ms =>
    findEnds depth (if depth = 0 then elseAt <|> some i else elseAt) ms

/-- The place of the first `@else` of a block whose first piece stands at `n`. -/
def elsePlace? (n depth : Nat) (inside : Marked) : Option Nat :=
  (splitElse depth inside).2.map fun _ => n + (spell (splitElse depth inside).1).utf8Length

/-- A character is passed by its length in bytes. -/
theorem elsePlace?_plain (n depth : Nat) (c : Char) (inside : Marked) :
    elsePlace? n depth (.plain c :: inside) = elsePlace? (n + c.utf8Size) depth inside := by
  have hsplit := splitElse_plain depth [c] inside
  rw [List.map_singleton, List.singleton_append, List.singleton_append] at hsplit
  rw [elsePlace?, elsePlace?, hsplit, spell_cons, Text.utf8Length_append]
  simp [Piece.text, Nat.add_assoc]

/-- A mark that is no else of the block is passed, and changes the depth. -/
theorem elsePlace?_of_mark {n depth depth' : Nat} {m : Mark} (hm : m.depth? depth = some depth')
    (h : depth = 0 → m ≠ .otherwise) (inside : Marked) :
    elsePlace? n depth (.found m :: inside) =
      elsePlace? (n + m.text.utf8Length) depth' inside := by
  rw [elsePlace?, elsePlace?, splitElse_of_mark depth' hm h, spell_cons, Text.utf8Length_append]
  simp [Piece.text, Nat.add_assoc]

/-- The places at which a block is cut are those of its parts: the count of the blocks that are open
never falls below zero. -/
theorem findEnds_pieces (n depth : Nat) (elseAt : Option Nat) (s : Text) :
    findEnds depth elseAt (marksFrom n (Text.pieces Mark.reader s)) =
      .ok ((splitEnd? depth s).map fun (inside, _) =>
        ⟨elseAt <|> elsePlace? n depth inside, n + (spell inside).utf8Length⟩) := by
  fun_induction splitEnd? depth s generalizing n elseAt with
  | case1 => simp [marksFrom, findEnds]
  | case2 depth c t hread ih =>
    rw [Text.pieces_cons_of_none hread, marksFrom, ih, Option.map_map]
    simp [Function.comp_def, elsePlace?_plain, Piece.text, Nat.add_assoc]
  | case3 depth c t m r hread hdepth =>
    obtain rfl := Mark.eq_ending_of_depth? hdepth
    obtain rfl : depth = 0 := by
      cases depth with
      | zero => rfl
      | succ depth => cases hdepth
    rw [Text.pieces_of_some hread]
    simp [marksFrom, findEnds, elsePlace?, splitElse]
  | case4 depth c t m r hread depth' hdepth ih =>
    have hspell : ∀ inside : Marked, n + (spell (.found m :: inside)).utf8Length =
        n + m.text.utf8Length + (spell inside).utf8Length := by
      intro inside
      rw [spell_cons, Text.utf8Length_append, Nat.add_assoc]
      rfl
    rw [Text.pieces_of_some hread, marksFrom, Option.map_map]
    simp only [Function.comp_def, hspell]
    -- Only the first `@else` at the level of the block is a place to be kept.
    by_cases hplace : depth = 0 ∧ m = .otherwise
    · obtain ⟨rfl, rfl⟩ := hplace
      obtain rfl := Option.some.inj hdepth
      rw [findEnds, if_pos rfl, ih]
      cases elseAt <;> rfl
    · have hmark : depth = 0 → m ≠ .otherwise := by
        intro hzero hm
        exact hplace ⟨hzero, hm⟩
      simp only [elsePlace?_of_mark hdepth hmark, ← ih]
      cases m with
      | opening =>
        obtain rfl := Option.some.inj hdepth
        rfl
      | otherwise =>
        obtain rfl := Option.some.inj hdepth
        have hpos : depth ≠ 0 := fun hzero => hmark hzero rfl
        rw [findEnds, if_neg hpos]
      | ending =>
        cases depth with
        | zero => cases hdepth
        | succ depth =>
          obtain rfl := Option.some.inj hdepth
          rfl

/-! ## Parts of a block -/

/-- The pieces of a block are those before its first `@else`, and those behind it. -/
theorem splitElse_append (depth : Nat) (ps : Marked) :
    ps = (splitElse depth ps).1 ++
      ((splitElse depth ps).2.map (.found .otherwise :: ·)).getD [] := by
  fun_induction splitElse depth ps with
  | case1 => rfl
  | case2 ps => rfl
  | case3 depth p ps _ d' front rest hsplit ih =>
    rw [hsplit] at ih
    exact congrArg (p :: ·) ih

section Spelling

variable {depth : Nat} {ps rest : Marked}

/-- A block without an `@else` has its first branch only. -/
theorem spell_of_splitElse_none (h : (splitElse depth ps).2 = none) :
    spell ps = spell (splitElse depth ps).1 := by
  have hsplit := splitElse_append depth ps
  rw [h, Option.map_none, Option.getD_none, List.append_nil] at hsplit
  exact congrArg spell hsplit

/-- A block with an `@else` has two branches and the mark between them. -/
theorem spell_of_splitElse_some (h : (splitElse depth ps).2 = some rest) :
    spell ps = spell (splitElse depth ps).1 ++ (Mark.otherwise.text ++ spell rest) := by
  have hsplit := splitElse_append depth ps
  rw [h, Option.map_some, Option.getD_some] at hsplit
  exact (congrArg spell hsplit).trans (by simp [Piece.text])

end Spelling

/-- The branch of a block that a truth value selects, by the places at which the block is cut. -/
def checkedBranch (body : Text) (holds : Bool) (ends : Ends) : Checked Text :=
  match holds, ends.elseAt with
  | true, some elseAt => body.slice 0 elseAt
  | true, none => body.slice 0 ends.endifAt
  | false, some elseAt => body.slice (elseAt + Mark.otherwise.text.utf8Length) ends.endifAt
  | false, none => .ok []

/-- The branch of a block is a part of its body. -/
theorem length_of_checkedBranch {body branch : Text} {holds : Bool} {ends : Ends}
    (h : checkedBranch body holds ends = .ok branch) : branch.utf8Length ≤ body.utf8Length := by
  unfold checkedBranch at h
  split at h
  · have := Text.utf8Length_of_slice h
    omega
  · have := Text.utf8Length_of_slice h
    omega
  · have := Text.utf8Length_of_slice h
    omega
  · obtain rfl := Except.ok.inj h
    exact Nat.zero_le _

/-- The branches of a block are what is cut out of its body at the places of its marks. -/
theorem checkedBranch_places {body behind : Text} {inside : Marked}
    (hbody : body = spell inside ++ (Mark.ending.text ++ behind)) (holds : Bool) :
    checkedBranch body holds ⟨elsePlace? 0 0 inside, (spell inside).utf8Length⟩ =
      .ok (if holds then spell (splitElse 0 inside).1
        else spell ((splitElse 0 inside).2.getD [])) := by
  unfold checkedBranch elsePlace?
  cases hrest : (splitElse 0 inside).2 with
  | none =>
    cases holds with
    | false => rfl
    | true =>
      show body.slice 0 (spell inside).utf8Length = .ok (spell (splitElse 0 inside).1)
      rw [← spell_of_splitElse_none hrest, hbody, Text.slice_zero]
  | some rest =>
    have hspell := spell_of_splitElse_some hrest
    have hparts : body = spell (splitElse 0 inside).1 ++
        (Mark.otherwise.text ++ (spell rest ++ (Mark.ending.text ++ behind))) := by
      rw [hbody, hspell, List.append_assoc, List.append_assoc]
    cases holds with
    | true =>
      show body.slice 0 (0 + _) = .ok (spell (splitElse 0 inside).1)
      rw [hparts, Nat.zero_add, Text.slice_zero]
    | false =>
      show body.slice (0 + _ + _) _ = .ok (spell rest)
      apply Text.slice_eq_ok_iff.mpr
      refine ⟨spell (splitElse 0 inside).1 ++ Mark.otherwise.text, Mark.ending.text ++ behind,
        ?_, ?_, ?_⟩
      · rw [hparts, List.append_assoc]
      · rw [Nat.zero_add, Text.utf8Length_append]
      · rw [hspell]
        simp [Nat.add_assoc]

/-- The parts of the body of a block at the places that are found. -/
theorem exists_ends {body whenTrue whenFalse behind : Text}
    (h : branches? body = some (whenTrue, whenFalse, behind)) :
    ∃ ends, findEnds 0 none (marksFrom 0 (Text.pieces Mark.reader body)) = .ok (some ends) ∧
      (∀ holds, checkedBranch body holds ends = .ok (if holds then whenTrue else whenFalse)) ∧
      body.sliceFrom ends.stop = .ok behind := by
  simp only [branches?, Option.map_eq_some_iff, Prod.exists, Prod.mk.injEq] at h
  obtain ⟨inside, behind, hsplit, rfl, rfl, rfl⟩ := h
  have hbody := eq_of_splitEnd? hsplit
  refine ⟨⟨elsePlace? 0 0 inside, (spell inside).utf8Length⟩, ?_, checkedBranch_places hbody, ?_⟩
  · rw [findEnds_pieces, hsplit]
    simp
  · rw [hbody, ← List.append_assoc]
    exact Text.sliceFrom_eq_ok_iff.mpr ⟨_, rfl, (Text.utf8Length_append _ _).symm⟩

/-! ## Conditions -/

/-- Whether a condition is true; one without a truth value is reported and taken to be false. -/
def checkedIsTrue (context : Context) (condition : Text) : Crashing Logged Bool := do
  match ← Crashing.check (Condition.checkedHolds condition context) with
  | .ok b => pure b
  | .error e => do
    Crashing.safely (Logged.write
      (.takenAsFalse (String.ofList condition) (.condition (String.ofList e.message))))
    pure false

/-- A condition is evaluated without a crash. -/
theorem checkedIsTrue_eq (context : Context) (condition : Text) :
    checkedIsTrue context condition = Crashing.safely (isTrue context condition) := by
  unfold checkedIsTrue isTrue
  rw [Condition.checkedHolds_eq, Crashing.check_ok, pure_bind]
  cases Condition.holds condition context with
  | ok b => exact (Crashing.safely_pure b).symm
  | error e => simp

/-! ## Expansion -/

/-- A text with its blocks replaced by the branches that their conditions select. -/
def checkedExpand (context : Context) (rest : Text) : Crashing Logged Text := do
  match ← Crashing.check (Text.opened? Mark.opening.text rest) with
  | none => pure rest
  | some o => do
    let front ← Crashing.check (rest.slice 0 o.start)
    match o.close with
    | none => do
      Crashing.safely (Logged.write (.failed (unfinished "unbalanced parentheses")))
      let ⟨behind, _hbehind⟩ ← Crashing.known (rest.sliceFrom (o.opening + 1))
      let out ← checkedExpand context behind
      pure (front ++ (Mark.opening.text ++ out))
    | some close => do
      let ⟨body, _hbody⟩ ← Crashing.known (rest.sliceFrom (close + 1))
      match ← Crashing.check (findEnds 0 none (marksFrom 0 (Text.pieces Mark.reader body))) with
      | none => do
        Crashing.safely (Logged.write (.failed (unfinished "missing @endif")))
        let directive ← Crashing.check (rest.slice o.start (close + 1))
        let out ← checkedExpand context body
        pure (front ++ (directive ++ out))
      | some ends => do
        let condition ← Crashing.check (rest.slice (o.opening + 1) close)
        let holds ← checkedIsTrue context condition
        let ⟨branch, _hbranch⟩ ← Crashing.known (checkedBranch body holds ends)
        let kept ← checkedExpand context branch
        let ⟨behind, _hbehind⟩ ← Crashing.known (body.sliceFrom ends.stop)
        let out ← checkedExpand context behind
        pure (front ++ (kept ++ out))
termination_by rest.utf8Length
decreasing_by
  · exact Text.utf8Length_lt_of_sliceFrom _hbehind
  · exact Text.utf8Length_lt_of_sliceFrom _hbody
  · exact Nat.lt_of_le_of_lt (length_of_checkedBranch _hbranch)
      (Text.utf8Length_lt_of_sliceFrom _hbody)
  · have := Text.utf8Length_of_sliceFrom _hbehind
    have := Text.utf8Length_lt_of_sliceFrom _hbody
    omega

section

variable {rest front s condition body : Text}

/-- A text without openings is kept. -/
theorem checkedExpand_of_cut?_eq_none (context : Context)
    (h : Text.cut? Mark.opening.text rest = none) : checkedExpand context rest = pure rest := by
  rw [checkedExpand, Text.opened?_of_cut?_eq_none h, Crashing.check_ok, pure_bind]

/-- Behind an opening without closing parenthesis the search goes on. -/
theorem checkedExpand_of_unclosed (context : Context)
    (h : Text.cut? Mark.opening.text rest = some (front, s)) (hclosing : Text.closing? s = none) :
    checkedExpand context rest = (do
      Crashing.safely (Logged.write (.failed (unfinished "unbalanced parentheses")))
      let out ← checkedExpand context s
      pure (front ++ (Mark.opening.text ++ out))) := by
  obtain ⟨o, hopened, hparts⟩ := Text.exists_unclosed h hclosing ⟨"@if".toList, rfl⟩
  rw [checkedExpand, hopened]
  simp [hparts.before, hparts.closed, Crashing.known_of_ok hparts.behind]

/-- Behind a condition without ending the search goes on. -/
theorem checkedExpand_of_endless (context : Context)
    (h : Text.cut? Mark.opening.text rest = some (front, s))
    (hclosing : Text.closing? s = some (condition, body)) (hbranches : branches? body = none) :
    checkedExpand context rest = (do
      Crashing.safely (Logged.write (.failed (unfinished "missing @endif")))
      let out ← checkedExpand context body
      pure (front ++ (Mark.opening.text ++ condition ++ ')' :: out))) := by
  obtain ⟨o, close, hopened, hparts⟩ := Text.exists_closed h hclosing ⟨"@if".toList, rfl⟩
  have hends : findEnds 0 none (marksFrom 0 (Text.pieces Mark.reader body)) = .ok none := by
    rw [branches?, Option.map_eq_none_iff] at hbranches
    rw [findEnds_pieces, hbranches]
    rfl
  rw [checkedExpand, hopened]
  simp [hparts.before, hparts.closed, hparts.directive, hends,
    Crashing.known_of_ok hparts.behind, Mark.text_opening]

/-- A block gives way to the branch that its condition chooses, in which and behind which the search
goes on. -/
theorem checkedExpand_of_block (context : Context)
    (h : Text.cut? Mark.opening.text rest = some (front, s))
    (hclosing : Text.closing? s = some (condition, body)) {whenTrue whenFalse behind : Text}
    (hbranches : branches? body = some (whenTrue, whenFalse, behind)) :
    checkedExpand context rest = (do
      let holds ← Crashing.safely (isTrue context condition)
      let kept ← checkedExpand context (Block.branch ⟨condition, whenTrue, whenFalse⟩ holds)
      let out ← checkedExpand context behind
      pure (front ++ (kept ++ out))) := by
  obtain ⟨o, close, hopened, hparts⟩ := Text.exists_closed h hclosing ⟨"@if".toList, rfl⟩
  obtain ⟨ends, hends, hbranch, hbehind⟩ := exists_ends hbranches
  rw [checkedExpand, hopened]
  simp only [Crashing.check_ok, pure_bind, hparts.before, hparts.closed, hparts.argument, hends,
    checkedIsTrue_eq, Crashing.known_of_ok hparts.behind, Crashing.known_of_ok hbehind]
  refine bind_congr fun holds => ?_
  rw [Crashing.known_of_ok (hbranch holds), pure_bind]
  rfl

/-- What is found begins with the mark that opens a block. -/
theorem Found.read?_eq_none {s : Text} (h : Text.after? Mark.opening.text s = none) :
    Found.read? s = none := by
  rw [Found.read?, h]
  rfl

/-- The next directive is expanded without crashing, if the branches of its block are and what
stands behind it. -/
theorem checkedExpand_of_cut? {context : Context}
    (h : Text.cut? Mark.opening.text rest = some (front, s))
    (hbehind : ∀ found r, Found.read? (Mark.opening.text ++ s) = some (found, r) →
      checkedExpand context r = Crashing.safely (expand context r))
    (hbranch : ∀ b r holds, Found.read? (Mark.opening.text ++ s) = some (.block b, r) →
      checkedExpand context (b.branch holds) =
        Crashing.safely (expand context (b.branch holds))) :
    checkedExpand context rest =
      Crashing.safely ((front ++ ·) <$> expand context (Mark.opening.text ++ s)) := by
  cases hclosing : Text.closing? s with
  | none =>
    have hfound : Found.read? (Mark.opening.text ++ s) = some (.unclosed, s) := by
      simp [Found.read?, hclosing]
    rw [checkedExpand_of_unclosed context h hclosing, expand_of_unclosed hfound,
      hbehind _ _ hfound]
    simp
  | some closed =>
    obtain ⟨condition, body⟩ := closed
    cases hbranches : branches? body with
    | none =>
      have hfound : Found.read? (Mark.opening.text ++ s) = some (.endless condition, body) := by
        simp [Found.read?, hclosing, hbranches]
      rw [checkedExpand_of_endless context h hclosing hbranches, expand_of_endless hfound,
        hbehind _ _ hfound]
      simp
    | some parts =>
      obtain ⟨whenTrue, whenFalse, behind⟩ := parts
      have hfound : Found.read? (Mark.opening.text ++ s) =
          some (.block ⟨condition, whenTrue, whenFalse⟩, behind) := by
        simp [Found.read?, hclosing, hbranches]
      rw [checkedExpand_of_block context h hclosing hbranches, expand_of_block hfound,
        hbehind _ _ hfound]
      simp [fun holds => hbranch _ _ holds hfound]

end

/-- Expanding the blocks of a text never crashes. -/
theorem checkedExpand_eq (context : Context) (rest : Text) :
    checkedExpand context rest = Crashing.safely (expand context rest) := by
  -- By induction on the length of the text: branches are parts of it, as is what follows a block.
  induction hlength : rest.length using Nat.strongRecOn generalizing rest with
  | ind n ih =>
    subst hlength
    cases hcut : Text.cut? Mark.opening.text rest with
    | none =>
      have hexpand := expand_of_passes (passes_of_cut?_eq_none hcut fun _ => Found.read?_eq_none)
        context
      rw [List.append_nil, expand_nil] at hexpand
      rw [checkedExpand_of_cut?_eq_none context hcut, hexpand]
      simp
    | some cut =>
      obtain ⟨front, s⟩ := cut
      have hexpand := expand_of_passes (passes_of_cut? hcut fun _ => Found.read?_eq_none) context
      rw [← List.append_assoc, ← Text.eq_of_cut? hcut] at hexpand
      have hsuffix : (Mark.opening.text ++ s).length ≤ rest.length := by
        rw [Text.eq_of_cut? hcut, List.append_assoc]
        exact (List.suffix_append front _).length_le
      rw [hexpand]
      apply checkedExpand_of_cut? hcut
      · intro found r hfound
        exact ih _ (Nat.lt_of_lt_of_le (length_of_read? hfound).1 hsuffix) r rfl
      · intro b r holds hfound
        exact ih _ (Nat.lt_of_lt_of_le ((length_of_read? hfound).2 b rfl holds) hsuffix) _ rfl

end HtmlViews.Conditional
