import HtmlViews.Proofs.Conditional.Scan

/-!
# Rows of marks

Where a block ends, and where its branches part, is decided by the marks in it and their order: by
what each of them does to the count of the blocks that are open. So a row of marks is passed as a
whole when every mark in it structures a block that was opened in front of it.

The count of open blocks goes from mark to mark, so what it does to a row is computed mark by mark
(**within?**), and has no result once a mark belongs to the block in question itself. Both searches,
the one for the end and the one for the `@else`, pass over a row exactly as long as it has a result;
so one count describes both of them, and lets them be put together from rows that were passed
before.

* **Conditional.marks** — the marks of a text.
* **pieces_append_border** — texts between which no mark is made are cut one behind the other.
* **cutEnd?**, **splitEnd?_eq** — the end of a block among the pieces of a text.
* **Mark.within?**, **within?** — the count behind marks that belong to other blocks than the one
  they stand in.
* **cutEnd?_within**, **splitElse_within** — such marks are passed.
* **branches?_of_ending**, **branches?_of_otherwise** — the branches of a block end behind them.
* **exists_own_mark** — in any other row there is a first mark of the block itself.
* **within?_eq_some_iff** — the count, said by the numbers of marks.
-/

namespace HtmlViews

namespace Conditional

/-! ## The marks of a text -/

/-- The marks among pieces. -/
def marksOf (ps : Marked) : List Mark :=
  ps.filterMap fun
    | .plain _ => none
    | .found m => some m

/-- The marks of a text, in their order. -/
def marks (s : Text) : List Mark :=
  marksOf (Text.pieces Mark.reader s)

/-- The marks of pieces in a row. -/
@[simp] theorem marksOf_append (ps qs : Marked) : marksOf (ps ++ qs) = marksOf ps ++ marksOf qs :=
  List.filterMap_append

/-- Plain characters are no marks. -/
@[simp] theorem marksOf_plain (s : Text) : marksOf (s.map .plain) = [] := by
  induction s with
  | nil => rfl
  | cons c s ih => exact ih

/-- No word goes on at a border. -/
theorem word_of_border {r : Text} (hr : Border r) : Text.word r = [] := by
  cases r with
  | nil => rfl
  | cons c r =>
    have hword : isWord c = false := by
      rcases hr c rfl with rfl | rfl <;> decide +kernel
    exact List.takeWhile_cons_of_neg (by simp [hword])

/-- Where a text ends at a border, the mark at its beginning is the one it begins with alone. -/
theorem Mark.read?_append_border {s r : Text} (hs : s ≠ []) (hr : Border r) :
    read? (s ++ r) = (read? s).map fun (m, u) => (m, u ++ r) := by
  have hafter : ∀ m : Mark, Text.after? m.text (s ++ r) = (Text.after? m.text s).map (· ++ r) :=
    fun m => Text.after?_append_eq_map hs (not_mem_tail_of_border hr m)
  have hword : ∀ u, (Text.word (u ++ r) = []) = (Text.word u = []) := by
    intro u
    cases u with
    | cons c u => simp [Text.word, List.takeWhile_cons]
    | nil => simpa [Text.word] using word_of_border hr
  unfold read?
  simp only [hafter]
  cases Text.after? opening.text s with
  | some u => rfl
  | none =>
    cases Text.after? ending.text s with
    | some u => rfl
    | none =>
      cases Text.after? otherwise.text s with
      | none => rfl
      | some u =>
        simp only [Option.map_some, Option.map_none, hword]
        split <;> rfl

/-- No mark is made where a text ends at a border. -/
theorem pieces_append_border (s : Text) {r : Text} (hr : Border r) :
    Text.pieces Mark.reader (s ++ r) = Text.pieces Mark.reader s ++ Text.pieces Mark.reader r := by
  fun_induction Text.pieces Mark.reader s with
  | case1 => rfl
  | case2 c s m u hread ih =>
    have happend := Mark.read?_append_border (List.cons_ne_nil c s) hr
    rw [show Mark.read? (c :: s) = some (m, u) from hread] at happend
    rw [Text.pieces_of_some happend, ih]
    rfl
  | case3 c s hread ih =>
    have happend := Mark.read?_append_border (List.cons_ne_nil c s) hr
    rw [show Mark.read? (c :: s) = none from hread] at happend
    rw [List.cons_append, Text.pieces_cons_of_none happend, ih]
    rfl

/-- The pieces of a text without marks are its characters. -/
theorem pieces_of_unmarked {s : Text} (hs : Unmarked s) :
    Text.pieces Mark.reader s = s.map .plain := by
  induction s with
  | nil => exact Text.pieces_nil _
  | cons c s ih =>
    obtain ⟨hread, hs⟩ := unmarked_cons_iff.mp hs
    rw [Text.pieces_cons_of_none hread, ih hs]
    rfl

/-- An ending is a piece wherever it stands. -/
theorem pieces_ending (s : Text) :
    Text.pieces Mark.reader (Mark.ending.text ++ s) =
      .found .ending :: Text.pieces Mark.reader s := by
  have hread : Mark.reader.read (Mark.ending.text ++ s) = some (.ending, s) := Mark.read?_ending s
  exact Text.pieces_of_some hread

/-! ## The end of a block among pieces -/

/-- The pieces up to the end of the block that some pieces stand in, and those behind its end mark;
`depth` counts the blocks that were opened meanwhile. -/
def cutEnd? : (depth : Nat) → Marked → Option (Marked × Marked)
  | _, [] => none
  | depth, .plain c :: ps =>
    (cutEnd? depth ps).map fun (inside, rest) => (.plain c :: inside, rest)
  | depth, .found m :: ps =>
    match m.depth? depth with
    | none => some ([], ps)
    | some depth => (cutEnd? depth ps).map fun (inside, rest) => (.found m :: inside, rest)

/-- The end of a block is the one among the pieces of the text. -/
theorem splitEnd?_eq (depth : Nat) (s : Text) :
    splitEnd? depth s =
      (cutEnd? depth (Text.pieces Mark.reader s)).map fun (inside, rest) =>
        (inside, spell rest) := by
  fun_induction splitEnd? depth s with
  | case1 =>
    rw [Text.pieces_nil]
    rfl
  | case2 depth c t hread ih =>
    rw [Text.pieces_cons_of_none hread, cutEnd?, ih, Option.map_map, Option.map_map]
    rfl
  | case3 depth c t m r hread hdepth =>
    rw [Text.pieces_of_some hread, cutEnd?, hdepth]
    simp [spell_pieces]
  | case4 depth c t m r hread depth' hdepth ih =>
    rw [Text.pieces_of_some hread, cutEnd?, hdepth, ih]
    simp only [Option.map_map]
    rfl

/-! ## Marks of other blocks -/

/-- How many blocks are open behind a mark if `depth` are open before it, when the mark does not
belong to the block that the count began in. -/
def Mark.within? : Mark → (depth : Nat) → Option Nat
  | .opening, depth => some (depth + 1)
  | _, 0 => none
  | .otherwise, depth + 1 => some (depth + 1)
  | .ending, depth + 1 => some depth

/-- How many blocks are open behind some marks, when none of them belongs to the block that the
count began in. -/
def within? (depth : Nat) (ms : List Mark) : Option Nat :=
  ms.foldlM (fun depth m => m.within? depth) depth

/-- A mark that stays within a block leaves the depth that is counted there. -/
theorem Mark.depth?_of_within? {m : Mark} {depth depth' : Nat} (h : m.within? depth = some depth') :
    m.depth? depth = some depth' ∧ (depth = 0 → m ≠ .otherwise) := by
  cases m <;> cases depth <;> simp_all [within?, depth?]
  omega

/-- The mark of the block itself. -/
theorem Mark.within?_eq_none_iff {m : Mark} {depth : Nat} :
    m.within? depth = none ↔ depth = 0 ∧ m ≠ .opening := by
  cases m <;> cases depth <;> simp [within?]

/-- Marks stay within a block if the first one does, and the others from there. -/
theorem within?_cons (depth : Nat) (m : Mark) (ms : List Mark) :
    within? depth (m :: ms) = (m.within? depth).bind fun depth => within? depth ms :=
  rfl

/-- Marks behind each other are counted one row after the other. -/
theorem within?_append (depth : Nat) (ms ms' : List Mark) :
    within? depth (ms ++ ms') = (within? depth ms).bind fun depth => within? depth ms' :=
  List.foldlM_append

/-- Marks of other blocks do not end the block. -/
theorem cutEnd?_within {ps : Marked} {depth depth' : Nat}
    (h : within? depth (marksOf ps) = some depth') (qs : Marked) :
    cutEnd? depth (ps ++ qs) =
      (cutEnd? depth' qs).map fun (inside, rest) => (ps ++ inside, rest) := by
  induction ps generalizing depth with
  | nil =>
    obtain rfl : depth = depth' := Option.some.inj h
    exact Option.map_id'.symm
  | cons p ps ih =>
    cases p with
    | plain c =>
      rw [List.cons_append, cutEnd?, ih h, Option.map_map]
      rfl
    | found m =>
      obtain ⟨d, hm, hrest⟩ := Option.bind_eq_some_iff.mp h
      rw [List.cons_append, cutEnd?, (Mark.depth?_of_within? hm).1]
      simp only [ih hrest, Option.map_map]
      rfl

/-- Marks of other blocks do not part the branches of the block. -/
theorem splitElse_within {ps : Marked} {depth depth' : Nat}
    (h : within? depth (marksOf ps) = some depth') (qs : Marked) :
    splitElse depth (ps ++ qs) = (ps ++ (splitElse depth' qs).1, (splitElse depth' qs).2) := by
  induction ps generalizing depth with
  | nil =>
    obtain rfl : depth = depth' := Option.some.inj h
    rfl
  | cons p ps ih =>
    cases p with
    | plain c =>
      have hplain := splitElse_plain depth [c] (ps ++ qs)
      rw [List.map_singleton, List.singleton_append] at hplain
      rw [List.cons_append, hplain, ih h]
      rfl
    | found m =>
      obtain ⟨d, hm, hrest⟩ := Option.bind_eq_some_iff.mp h
      obtain ⟨hdepth, hown⟩ := Mark.depth?_of_within? hm
      rw [List.cons_append, splitElse_of_mark d hdepth hown, ih hrest]
      rfl

section Branches

variable {s : Text} {ps rest : Marked}

/-- A block ends at the first end mark behind pieces that are passed. -/
theorem branches?_of_ending (hpieces : Text.pieces Mark.reader s = ps ++ .found .ending :: rest)
    (hps : within? 0 (marksOf ps) = some 0) :
    branches? s = some (spell ps, [], spell rest) := by
  have hcut : cutEnd? 0 (ps ++ .found .ending :: rest) = some (ps, rest) := by
    rw [cutEnd?_within hps]
    simp [cutEnd?, Mark.depth?]
  have hsplit : splitElse 0 ps = (ps, none) := by
    have hpass := splitElse_within hps []
    rwa [List.append_nil, splitElse, List.append_nil] at hpass
  rw [branches?, splitEnd?_eq, hpieces, hcut]
  simp [hsplit]

/-- The first branch of a block ends at the first `@else` behind pieces that are passed. -/
theorem branches?_of_otherwise
    (hpieces : Text.pieces Mark.reader s = ps ++ .found .otherwise :: rest)
    (hps : within? 0 (marksOf ps) = some 0) :
    branches? s = (cutEnd? 0 rest).map fun (inside, r) => (spell ps, spell inside, spell r) := by
  have hcut : cutEnd? 0 (ps ++ .found .otherwise :: rest) =
      (cutEnd? 0 rest).map fun (inside, r) => (ps ++ .found .otherwise :: inside, r) := by
    rw [cutEnd?_within hps]
    simp [cutEnd?, Mark.depth?, Function.comp_def]
  have hsplit : ∀ inside, splitElse 0 (ps ++ .found .otherwise :: inside) = (ps, some inside) := by
    intro inside
    rw [splitElse_within hps, splitElse, List.append_nil]
  rw [branches?, splitEnd?_eq, hpieces, hcut]
  simp [hsplit, Function.comp_def]

/-- Without marks a text is the body of no block. -/
theorem branches?_of_unmarked (hs : Unmarked s) : branches? s = none := by
  have hsplit : splitEnd? 0 (s ++ []) = _ := splitEnd?_append hs border_nil
  rw [List.append_nil, splitEnd?] at hsplit
  rw [branches?, hsplit]
  rfl

end Branches

/-- Among pieces that are not passed there is a first mark of the block itself, an end mark or an
`@else`; those before it are passed. -/
theorem exists_own_mark {ps : Marked} {depth : Nat} (h : within? depth (marksOf ps) = none) :
    ∃ front m back, ps = front ++ .found m :: back ∧ within? depth (marksOf front) = some 0 ∧
      m ≠ .opening := by
  induction ps generalizing depth with
  | nil => cases h
  | cons p ps ih =>
    cases p with
    | plain c =>
      obtain ⟨front, m, back, rfl, hfront, hm⟩ := ih h
      exact ⟨.plain c :: front, m, back, rfl, hfront, hm⟩
    | found m =>
      cases hwithin : m.within? depth with
      | none =>
        obtain ⟨rfl, hm⟩ := Mark.within?_eq_none_iff.mp hwithin
        exact ⟨[], m, ps, rfl, rfl, hm⟩
      | some d =>
        have hrest : within? d (marksOf ps) = none := by
          have hcons : within? depth (m :: marksOf ps) = none := h
          rwa [within?_cons, hwithin] at hcons
        obtain ⟨front, m', back, rfl, hfront, hm'⟩ := ih hrest
        refine ⟨.found m :: front, m', back, rfl, ?_, hm'⟩
        show within? depth (m :: marksOf front) = some 0
        rw [within?_cons, hwithin]
        exact hfront

/-- What one mark does to the count, by what it adds to it and takes from it. -/
theorem Mark.within?_eq_some_iff {m : Mark} {depth depth' : Nat} :
    m.within? depth = some depth' ↔
      (depth = 0 → m = .opening) ∧
        depth + [m].count .opening = depth' + [m].count .ending := by
  cases m <;> cases depth <;> simp [within?]

/-- The count behind some marks, by their numbers: as many blocks are open as were opened and not
ended, and where none is open only the beginning of a block follows. -/
theorem within?_eq_some_iff {ms : List Mark} {depth depth' : Nat} :
    within? depth ms = some depth' ↔
      depth + ms.count .opening = depth' + ms.count .ending ∧
        ∀ front m back, ms = front ++ m :: back →
          depth + front.count .opening = front.count .ending → m = .opening := by
  have hcons : ∀ (x m : Mark) (ms : List Mark), (m :: ms).count x = [m].count x + ms.count x :=
    fun x m ms => show ([m] ++ ms).count x = _ from List.count_append
  induction ms generalizing depth with
  | nil => simp [within?]
  | cons m ms ih =>
    rw [within?_cons, Option.bind_eq_some_iff, hcons .opening, hcons .ending]
    constructor
    · rintro ⟨d, hm, hrest⟩
      obtain ⟨hopening, hcount⟩ := Mark.within?_eq_some_iff.mp hm
      obtain ⟨htotal, hinside⟩ := ih.mp hrest
      refine ⟨by omega, fun front m' back hsplit hdepth => ?_⟩
      cases front with
      | nil =>
        obtain ⟨rfl, -⟩ := List.cons.inj hsplit
        exact hopening hdepth
      | cons m'' front =>
        rw [List.cons_append] at hsplit
        obtain ⟨rfl, hms⟩ := List.cons.inj hsplit
        rw [hcons .opening, hcons .ending] at hdepth
        exact hinside front m' back hms (by omega)
    · rintro ⟨htotal, hinside⟩
      cases hm : m.within? depth with
      | none =>
        obtain ⟨rfl, hown⟩ := Mark.within?_eq_none_iff.mp hm
        exact absurd (hinside [] m ms rfl rfl) hown
      | some d =>
        obtain ⟨-, hcount⟩ := Mark.within?_eq_some_iff.mp hm
        refine ⟨d, rfl, ih.mpr ⟨by omega, fun front m' back hms hdepth => ?_⟩⟩
        apply hinside (m :: front) m' back (by rw [hms, List.cons_append])
        rw [hcons .opening, hcons .ending]
        omega

end Conditional

end HtmlViews
