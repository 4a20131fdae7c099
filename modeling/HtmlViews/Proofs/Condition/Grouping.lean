import HtmlViews.Proofs.Condition.Scanning

/-!
# Grouping is exact

The builder groups a row of tokens in one way, and that way is the one of the grammar.

From the grammar to the builder, **Reads** is the invariant of the induction on the grammar, with
one lemma for each of its constructors: operands, negations, operators and parentheses. From the
builder to the grammar, **Builder.Spells** is kept by every token that is taken in, with one case
for each kind of place that the builder can be at.

* **Chain.Ordered** — a chain that is grouped as the levels of its operators ask.
* **Chain.extend** — a chain behind another one, grouped anew along the right side of the first.
* **Reads** — what the tokens of a condition do to a builder.
* **Row.of_grouped** — the tokens of a condition can stand where an operand is due.
* **Builder.Spells** — the tokens that a builder has taken in; **Builder.Spells.push** — one more of
  them.
* **ofTokens_of_grouped**, **grouped_of_ofTokens** — the two directions.

Both directions follow the tokens from left to right. What the builder does with a whole condition
is said for every chain that stands before it, because the left side of an operator is taken in
before the operator is known.
-/

namespace HtmlViews.Condition

/-- Every operator binds less tightly than an operand. -/
theorem level_lt_tightest (op : Operator) : op.level < tightest := by
  cases op <;> decide

/-! ## Literals -/

/-- The integers that fit are those of 64 bits. -/
theorem fits_iff {i : Int} :
    fits i = true ↔ -9223372036854775808 ≤ i ∧ i ≤ 9223372036854775807 := by
  rw [fits, Bool.and_eq_true, decide_eq_true_eq, decide_eq_true_eq]

/-- A decimal has a value if it is read as a finite number. -/
theorem decimalValue_eq_some_iff {t : Text} {x : Finite} :
    decimalValue t = some x ↔ Binary64.read? t = some (.finite x) := by
  rw [decimalValue]
  split
  · rename_i y hy
    rw [hy, Option.some.injEq, Option.some.injEq, Binary64.finite.injEq]
  · rename_i hnone
    exact ⟨fun h => (nomatch h), fun h => absurd h (hnone x)⟩

section Words

variable {w : Text}

/-- A word for true or false denotes it. -/
theorem wordValue_of_mem_truthWords {b : Bool} (hw : (w, b) ∈ truthWords) :
    wordValue w = .bool b := by
  simp only [truthWords, List.mem_cons, List.not_mem_nil, or_false, Prod.mk.injEq] at hw
  rcases hw with ⟨rfl, rfl⟩ | ⟨rfl, rfl⟩ | ⟨rfl, rfl⟩ | ⟨rfl, rfl⟩ | ⟨rfl, rfl⟩ | ⟨rfl, rfl⟩
  all_goals rfl

/-- A word for nothing denotes it. -/
theorem wordValue_of_mem_nullWords (hw : w ∈ nullWords) : wordValue w = .null := by
  simp only [nullWords, List.mem_cons, List.not_mem_nil, or_false] at hw
  rcases hw with rfl | rfl <;> rfl

/-- Any other word denotes its own text. -/
theorem wordValue_of_not_mem_keywords (hw : w ∉ keywords) :
    wordValue w = .str (String.ofList w) := by
  rw [keywords, List.mem_append, not_or] at hw
  have hlookup : truthWords.lookup w = none := by
    rw [List.lookup_eq_none_iff]
    intro p hp
    rw [bne_iff_ne]
    rintro rfl
    exact hw.1 (List.mem_map_of_mem hp)
  have hnull : nullWords.contains w = false := by
    rw [List.contains_eq_mem, decide_eq_false_iff_not]
    exact hw.2
  simp only [wordValue, hlookup, hnull, Bool.false_eq_true, if_false]

/-- A word denotes its value. -/
theorem denotes_wordValue (w : Text) : (Token.word w).Denotes (.literal (wordValue w)) := by
  by_cases hkeyword : w ∈ keywords
  · rcases List.mem_append.mp hkeyword with htruth | hnull
    · obtain ⟨⟨w, b⟩, hw, rfl⟩ := List.mem_map.mp htruth
      rw [wordValue_of_mem_truthWords hw]
      exact .truth hw
    · rw [wordValue_of_mem_nullWords hnull]
      exact .null hnull
  · rw [wordValue_of_not_mem_keywords hkeyword]
    exact .word hkeyword

end Words

/-! ## Operands -/

/-- A token that denotes an expression is read as that expression. -/
theorem operandValue?_of_denotes {t : Token} {e : Expr} (h : t.Denotes e) :
    t.operandValue? = .ok (some e) := by
  cases h with
  | integer hi hlow hhigh =>
    obtain rfl := hi
    rw [Token.operandValue?, if_pos (fits_iff.mpr ⟨hlow, hhigh⟩)]
  | decimal hx => simp only [Token.operandValue?, decimalValue_eq_some_iff.mpr hx]
  | quoted => rfl
  | truth hw => rw [Token.operandValue?, wordValue_of_mem_truthWords hw]
  | null hw => rw [Token.operandValue?, wordValue_of_mem_nullWords hw]
  | word hw => rw [Token.operandValue?, wordValue_of_not_mem_keywords hw]
  | name => rfl

/-- An operand that is read as an expression denotes that expression. -/
theorem denotes_of_operandValue? {t : Token} (ht : t.Atom) {r : Option Expr}
    (h : t.operandValue? = .ok r) : ∃ e, r = some e ∧ t.Denotes e := by
  cases ht with
  | integer =>
    rw [Token.operandValue?] at h
    split at h
    · rename_i hfits
      obtain ⟨hlow, hhigh⟩ := fits_iff.mp hfits
      cases h
      exact ⟨_, rfl, .integer rfl hlow hhigh⟩
    · cases h
  | decimal =>
    rw [Token.operandValue?] at h
    split at h
    · rename_i x hx
      cases h
      exact ⟨_, rfl, .decimal (decimalValue_eq_some_iff.mp hx)⟩
    · cases h
  | quoted =>
    cases h
    exact ⟨_, rfl, .quoted⟩
  | word =>
    cases h
    exact ⟨_, rfl, denotes_wordValue _⟩
  | name =>
    cases h
    exact ⟨_, rfl, .name⟩

namespace Builder

/-- An operand completes what stands before it. -/
theorem push_of_denotes {t : Token} {e : Expr} (h : t.Denotes e) (outer : List Due) (d : Due) :
    push (.due outer d) t = .ok (.full outer (d.fill e)) :=
  push_of_value (operandValue?_of_denotes h) outer d

/-- An operand that is taken in denotes what completes the chain. -/
theorem denotes_of_push {t : Token} (ht : t.Atom) {outer : List Due} {d : Due} {b : Builder}
    (h : push (.due outer d) t = .ok b) : ∃ e, t.Denotes e ∧ b = .full outer (d.fill e) := by
  cases hr : t.operandValue? with
  | error err =>
    rw [push_of_fault hr] at h
    cases h
  | ok r =>
    obtain ⟨e, rfl, he⟩ := denotes_of_operandValue? ht hr
    rw [push_of_denotes he] at h
    exact ⟨e, he, (Except.ok.inj h).symm⟩

end Builder

/-! ## Chains -/

namespace Chain

/-- The level of the operator that joins a chain. -/
def level : Chain → Nat
  | .operand _ => tightest
  | .joined _ op _ => op.level

/-- Whether a chain is grouped as levels ask: an operator on the left side may be of the same level,
one on the right side binds more tightly. -/
def Ordered : Chain → Prop
  | .operand _ => True
  | .joined lhs op rhs =>
    lhs.Ordered ∧ rhs.Ordered ∧ op.level ≤ lhs.level ∧ op.level < rhs.level

/-- A chain behind what stands before its first operand; the operators are taken in from left to
right. -/
def extend (left : Option (Chain × Operator)) : Chain → Chain
  | .operand e => Due.fill ⟨left, 0⟩ e
  | .joined lhs op rhs => rhs.extend (some (lhs.extend left, op))

/-- Operators that bind more tightly than the last one stay on its right side. -/
theorem extend_joined {c x : Chain} {op o : Operator} {b : Chain} (hb : b.Ordered)
    (ho : op.level < o.level) (hlevel : op.level < b.level) :
    b.extend (some (.joined c op x, o)) = .joined c op (b.extend (some (x, o))) := by
  induction b generalizing x o with
  | operand e => exact if_pos ho
  | joined l p r ihl ihr =>
    obtain ⟨hl, hr, hpl, hpr⟩ := hb
    have hp : op.level < p.level := hlevel
    rw [extend, ihl hl ho (Nat.lt_of_lt_of_le hp hpl), ihr hr hp (Nat.lt_trans hp hpr), extend]

/-- A chain that binds more tightly than the operator before it becomes its right side. -/
theorem extend_of_lt {c b : Chain} {op : Operator} (hb : b.Ordered) (hc : op.level ≤ c.level)
    (hlevel : op.level < b.level) : b.extend (some (c, op)) = .joined c op b := by
  induction b generalizing c op with
  | operand e =>
    cases c with
    | operand x => rfl
    | joined l o r => exact if_neg (Nat.not_lt.mpr hc)
  | joined l o r ihl ihr =>
    obtain ⟨hl, hr, hol, hor⟩ := hb
    have ho : op.level < o.level := hlevel
    rw [extend, ihl hl hc (Nat.lt_of_lt_of_le ho hol),
      extend_joined hr ho (Nat.lt_trans ho hor), ihr hr hol hor]

/-- Reading an ordered chain from left to right gives it back. -/
theorem extend_none {c : Chain} (hc : c.Ordered) : c.extend none = c := by
  induction c with
  | operand e => rfl
  | joined l o r ihl ihr =>
    obtain ⟨hl, hr, hol, hor⟩ := hc
    rw [extend, ihl hl, extend_of_lt hr hol hor]

/-- A chain above all levels is a single operand. -/
theorem eq_operand_of_level {c : Chain} (hc : tightest ≤ c.level) : c = .operand c.expr := by
  cases c with
  | operand e => rfl
  | joined l o r => exact absurd hc (Nat.not_le.mpr (level_lt_tightest o))

end Chain

/-! ## From the grammar to the builder -/

/-- One more negation may stand within the others or around them. -/
theorem Due.negated_not (n : Nat) (e : Expr) : negated n (.not e) = .not (negated n e) := by
  induction n with
  | zero => rfl
  | succ n ih => rw [negated, ih, negated]

/-- A negation sign negates the operand that comes. -/
theorem Due.fill_bang (left : Option (Chain × Operator)) (n : Nat) (e : Expr) :
    fill ⟨left, n + 1⟩ e = fill ⟨left, n⟩ (.not e) := by
  rw [fill, fill, negated_not, negated]

/-- A token that is taken is put to the builder before the others. -/
theorem foldlM_push_cons {b b' : Builder} {t : Token} (h : b.push t = .ok b') (ts : List Token) :
    (t :: ts).foldlM Builder.push b = ts.foldlM Builder.push b' := by
  rw [List.foldlM_cons, h]
  rfl

/-- A row that is taken is put to the builder before what is behind it. -/
theorem foldlM_push_append {b b' : Builder} {ts : List Token}
    (h : ts.foldlM Builder.push b = .ok b') (us : List Token) :
    (ts ++ us).foldlM Builder.push b = us.foldlM Builder.push b' := by
  rw [List.foldlM_append, h]
  rfl

/-- What the tokens of a condition do to a builder: they put the chain `c` behind what stands
there, and if `c` is a single operand, also behind negation signs. -/
structure Reads (c : Chain) (ts : List Token) : Prop where
  ordered : c.Ordered
  chain : ∀ outer left,
    ts.foldlM Builder.push (.due outer ⟨left, 0⟩) = .ok (.full outer (c.extend left))
  operand : ∀ e, c = .operand e → ∀ outer d,
    ts.foldlM Builder.push (.due outer d) = .ok (.full outer (d.fill e))

/-- A row makes an operand if every builder that waits for one is filled by it. -/
theorem reads_operand {e : Expr} {ts : List Token}
    (h : ∀ outer d, ts.foldlM Builder.push (.due outer d) = .ok (.full outer (d.fill e))) :
    Reads (.operand e) ts where
  ordered := trivial
  chain outer left := h outer ⟨left, 0⟩
  operand e' he := by
    obtain rfl := Chain.operand.inj he
    exact h

/-- A negation and what makes an operand make its negation. -/
theorem Reads.not {e : Expr} {ts : List Token} (h : Reads (.operand e) ts) :
    Reads (.operand (.not e)) (.bang :: ts) := by
  apply reads_operand
  intro outer d
  rw [foldlM_push_cons rfl, h.operand e rfl, Due.fill_bang]

/-- What makes the two sides of an operator makes the whole, if the operator binds less tightly than
the right side and no tighter than the left one. -/
theorem Reads.joined {lhs rhs : Chain} {op : Operator} {ts us : List Token} (hl : Reads lhs ts)
    (hr : Reads rhs us) (hlevel : op.level ≤ lhs.level) (hlevel' : op.level < rhs.level) :
    Reads (.joined lhs op rhs) (ts ++ .operator op :: us) where
  ordered := ⟨hl.ordered, hr.ordered, hlevel, hlevel'⟩
  chain outer left := by
    rw [foldlM_push_append (hl.chain outer left), foldlM_push_cons rfl, hr.chain, Chain.extend]
  operand e he := by cases he

/-- What makes an expression makes it an operand between parentheses. -/
theorem Reads.parenthesised {c : Chain} {ts : List Token} (h : Reads c ts) :
    Reads (.operand c.expr) (.opening :: ts ++ [.closing]) := by
  apply reads_operand
  intro outer d
  have hinner := h.chain (d :: outer) none
  rw [Chain.extend_none h.ordered] at hinner
  rw [List.cons_append, foldlM_push_cons rfl, Due.start, foldlM_push_append hinner]
  rfl

/-- The tokens of a condition are read as a chain of its operators. -/
theorem reads_of_grouped {level : Nat} {e : Expr} {ts : List Token} (h : e.Grouped level ts)
    (hlevel : level ≤ tightest) : ∃ c, c.expr = e ∧ level ≤ c.level ∧ Reads c ts := by
  induction h with
  | @operand level t e ht he =>
    refine ⟨.operand e, rfl, hlevel, reads_operand ?_⟩
    intro outer d
    rw [foldlM_push_cons (Builder.push_of_denotes he outer d)]
    rfl
  | @not level e ts hts ih =>
    obtain ⟨c, rfl, hc, hreads⟩ := ih (Nat.le_refl _)
    rw [Chain.eq_operand_of_level hc] at hreads
    exact ⟨.operand (.not c.expr), rfl, hlevel, hreads.not⟩
  | @binary level op lhs rhs ts us hop hl hr ihl ihr =>
    obtain ⟨cl, rfl, hcl, hreadsl⟩ := ihl (Nat.le_of_lt (level_lt_tightest op))
    obtain ⟨cr, rfl, hcr, hreadsr⟩ := ihr (level_lt_tightest op)
    exact ⟨.joined cl op cr, rfl, hop, hreadsl.joined hreadsr hcl hcr⟩
  | @parenthesised level e ts hts ih =>
    obtain ⟨c, rfl, -, hreads⟩ := ih (Nat.zero_le _)
    exact ⟨.operand c.expr, rfl, hlevel, hreads.parenthesised⟩

/-- The tokens of a condition make that condition. -/
theorem ofTokens_of_grouped {e : Expr} {ts : List Token} (h : e.Grouped 0 ts) :
    Expr.ofTokens ts = .ok (some e) := by
  obtain ⟨c, rfl, -, hreads⟩ := reads_of_grouped h (Nat.zero_le _)
  rw [Expr.ofTokens, Builder.start, Due.start, hreads.chain, Chain.extend_none hreads.ordered]
  rfl

/-! ## Rows of tokens -/

/-- The tokens of a condition can stand where an operand is due. -/
theorem Row.of_grouped {level : Nat} {e : Expr} {ts : List Token} (h : e.Grouped level ts)
    {depth : Nat} {us : List Token} (hus : Row false depth us) : Row true depth (ts ++ us) := by
  induction h generalizing depth us with
  | operand ht _ => exact .operand ht hus
  | not _ ih => exact .bang (ih hus)
  | binary _ _ _ ihl ihr =>
    rw [List.append_assoc]
    exact ihl (.operator (ihr hus))
  | parenthesised _ ih =>
    rw [List.append_assoc]
    exact .opening (ih (.closing hus))

/-! ## From the builder to the grammar -/

/-- A condition without parentheses around it is one in any place that asks for less. -/
theorem Expr.Grouped.mono {level level' : Nat} {e : Expr} {ts : List Token}
    (h : e.Grouped level ts) (hlevel : level' ≤ level) : e.Grouped level' ts := by
  cases h with
  | operand ht he => exact .operand ht he
  | not hts => exact .not hts
  | binary hop hl hr => exact .binary (Nat.le_trans hlevel hop) hl hr
  | parenthesised hts => exact .parenthesised hts

/-- The tokens of a chain. -/
inductive Chain.Spells : Chain → List Token → Prop
  | operand {e : Expr} {ts : List Token} : e.Grouped tightest ts → Spells (.operand e) ts
  | joined {lhs rhs : Chain} {op : Operator} {ts us : List Token} :
      op.level ≤ lhs.level → op.level < rhs.level → Spells lhs ts → Spells rhs us →
      Spells (.joined lhs op rhs) (ts ++ .operator op :: us)

/-- A chain stands for the expression that its tokens group to. -/
theorem Chain.Spells.grouped {c : Chain} {ts : List Token} (h : c.Spells ts) {level : Nat}
    (hlevel : level ≤ c.level) : c.expr.Grouped level ts := by
  induction h generalizing level with
  | operand he => exact he.mono hlevel
  | joined hl hr _ _ ihl ihr => exact .binary hlevel (ihl hl) (ihr hr)

/-- One more operator takes what binds more tightly from the end of the chain to its left side. -/
theorem Chain.Spells.snoc {c : Chain} {ts us : List Token} (h : c.Spells ts) {e : Expr}
    (he : e.Grouped tightest us) (op : Operator) :
    (c.snoc op e).Spells (ts ++ .operator op :: us) ∧
      (c.snoc op e).level = min c.level op.level := by
  have htight := level_lt_tightest op
  induction h with
  | operand hx =>
    exact ⟨.joined (Nat.le_of_lt htight) htight (.operand hx) (.operand he),
      (Nat.min_eq_right (Nat.le_of_lt htight)).symm⟩
  | @joined l r o ts us' hl hr hts hus ihl ihr =>
    by_cases ho : o.level < op.level
    · obtain ⟨hspells, hlevel⟩ := ihr
      have hsnoc : (Chain.joined l o r).snoc op e = .joined l o (r.snoc op e) := if_pos ho
      rw [hsnoc, List.append_assoc, List.cons_append]
      refine ⟨.joined hl ?_ hts hspells, (Nat.min_eq_left (Nat.le_of_lt ho)).symm⟩
      rw [hlevel]
      exact Nat.lt_min.mpr ⟨hr, ho⟩
    · have hsnoc : (Chain.joined l o r).snoc op e = .joined (.joined l o r) op (.operand e) :=
        if_neg ho
      have hop : op.level ≤ o.level := Nat.not_lt.mp ho
      rw [hsnoc]
      exact ⟨.joined hop htight (.joined hl hr hts hus) (.operand he),
        (Nat.min_eq_right hop).symm⟩

/-- The tokens of what stands before an operand that is due. -/
inductive Due.Spells : Due → List Token → Prop
  | start : Spells .start []
  | operator {c : Chain} {op : Operator} {ts : List Token} :
      c.Spells ts → Spells ⟨some (c, op), 0⟩ (ts ++ [.operator op])
  | bang {left : Option (Chain × Operator)} {bangs : Nat} {ts : List Token} :
      Spells ⟨left, bangs⟩ ts → Spells ⟨left, bangs + 1⟩ (ts ++ [.bang])

/-- An operand behind what is waiting for it is spelled behind it. -/
theorem Due.Spells.fill {d : Due} {ts : List Token} (h : d.Spells ts) {e : Expr}
    {us : List Token} (he : e.Grouped tightest us) : (d.fill e).Spells (ts ++ us) := by
  induction h generalizing e us with
  | start => exact .operand he
  | @operator c op ts hc =>
    rw [List.append_assoc]
    exact (hc.snoc he op).1
  | bang _ ih =>
    rw [Due.fill_bang, List.append_assoc]
    exact ih (.not he)

/-- The tokens up to the innermost open parenthesis. -/
inductive Opened : List Due → List Token → Prop
  | nil : Opened [] []
  | cons {d : Due} {outer : List Due} {ts us : List Token} :
      Opened outer ts → d.Spells us → Opened (d :: outer) (ts ++ us ++ [.opening])

/-- The tokens that a builder has taken in, with the place it is at. -/
inductive Builder.Spells : Builder → (due : Bool) → (depth : Nat) → List Token → Prop
  | due {outer : List Due} {d : Due} {depth : Nat} {ts us : List Token} :
      outer.length = depth → Opened outer ts → d.Spells us →
      Spells (.due outer d) true depth (ts ++ us)
  | full {outer : List Due} {c : Chain} {depth : Nat} {ts us : List Token} :
      outer.length = depth → Opened outer ts → c.Spells us →
      Spells (.full outer c) false depth (ts ++ us)

/-- What the builder does with its next token is the first thing that it does with a row. -/
theorem exists_push_of_foldlM {b b' : Builder} {t : Token} {ts : List Token}
    (h : (t :: ts).foldlM Builder.push b = .ok b') :
    ∃ b₁, b.push t = .ok b₁ ∧ ts.foldlM Builder.push b₁ = .ok b' := by
  rw [List.foldlM_cons] at h
  cases hb : b.push t with
  | error e =>
    rw [hb] at h
    cases h
  | ok b₁ =>
    rw [hb] at h
    exact ⟨b₁, rfl, h⟩

/-- The first token of a row that is taken in stands behind those before it, and the others can
follow. -/
theorem Builder.Spells.push {due : Bool} {depth : Nat} {t : Token} {ts us : List Token}
    {b b₁ : Builder} (hb : b.Spells due depth us) (hrow : Row due depth (t :: ts))
    (h : b.push t = .ok b₁) :
    ∃ due' depth', Row due' depth' ts ∧ b₁.Spells due' depth' (us ++ [t]) := by
  cases hrow with
  | opening hrow =>
    cases hb with
    | due hlength houter hd =>
      cases h
      have hspells := Spells.due (by rw [List.length_cons, hlength]) (houter.cons hd) .start
      rw [List.append_nil] at hspells
      exact ⟨_, _, hrow, hspells⟩
  | bang hrow =>
    cases hb with
    | due hlength houter hd =>
      cases h
      rw [List.append_assoc]
      exact ⟨_, _, hrow, .due hlength houter hd.bang⟩
  | operand ht hrow =>
    cases hb with
    | due hlength houter hd =>
      obtain ⟨e, he, rfl⟩ := denotes_of_push ht h
      rw [List.append_assoc]
      exact ⟨_, _, hrow, .full hlength houter (hd.fill (.operand ht he))⟩
  | operator hrow =>
    cases hb with
    | full hlength houter hc =>
      cases h
      rw [List.append_assoc]
      exact ⟨_, _, hrow, .due hlength houter (.operator hc)⟩
  | closing hrow =>
    cases hb with
    | full hlength houter hc =>
      cases houter with
      | nil => cases hlength
      | cons houter hd =>
        cases h
        have hspells := Spells.full (Nat.succ.inj hlength) houter
          (hd.fill (.parenthesised (hc.grouped (Nat.zero_le _))))
        simp only [List.append_assoc, List.cons_append, List.nil_append] at hspells ⊢
        exact ⟨_, _, hrow, hspells⟩

/-- A builder that takes in a row to its end holds one chain, and the chain has all tokens. -/
theorem spells_of_foldlM {due : Bool} {depth : Nat} {ts : List Token} (hrow : Row due depth ts)
    {b b' : Builder} {us : List Token} (hb : b.Spells due depth us)
    (h : ts.foldlM Builder.push b = .ok b') :
    ∃ c, b' = .full [] c ∧ c.Spells (us ++ ts) := by
  induction ts generalizing due depth b us with
  | nil =>
    cases hrow
    cases hb with
    | full hlength houter hc =>
      cases houter with
      | nil =>
        cases h
        rw [List.append_nil]
        exact ⟨_, rfl, hc⟩
      | cons => cases hlength
  | cons t ts ih =>
    obtain ⟨b₁, hpush, hrest⟩ := exists_push_of_foldlM h
    obtain ⟨due', depth', hrow', hb'⟩ := hb.push hrow hpush
    obtain ⟨c, hfull, hc⟩ := ih hrow' hb' hrest
    rw [List.append_assoc] at hc
    exact ⟨c, hfull, hc⟩

/-- A row of tokens that makes a condition is a row of tokens of that condition. -/
theorem grouped_of_ofTokens {ts : List Token} (hrow : Row true 0 ts) {r : Option Expr}
    (h : Expr.ofTokens ts = .ok r) : ∃ e, r = some e ∧ e.Grouped 0 ts := by
  rw [Expr.ofTokens] at h
  cases hb : ts.foldlM Builder.push Builder.start with
  | error e =>
    rw [hb] at h
    cases h
  | ok b =>
    obtain ⟨c, rfl, hc⟩ := spells_of_foldlM hrow (.due rfl .nil .start) hb
    rw [hb] at h
    cases h
    exact ⟨c.expr, rfl, hc.grouped (Nat.zero_le _)⟩

end HtmlViews.Condition
