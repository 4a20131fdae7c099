import HtmlViews.Proofs.Condition.Reading

/-!
# What is accepted as a condition

Whatever is read as a condition consists of the tokens of that condition and of gaps between them.
So a condition cannot call anything: behind a name or a word no parenthesis opens, and what looks
like a call in quotes is a string.

What is accepted is known from the other direction: a text that is read spells a row of tokens, and
the row can stand where a condition is due (**exists_row_of_read**). So all that is left is to look
at rows and at single tokens. In a row every token stands where its left neighbour asks for it,
which excludes an operand behind an operand, and what is open at the front is closed at the back.
And each token closes the quotes that it opens, so an opening parenthesis outside of quotes cannot
be a part of one; it is a token itself, and behind an operand there is none.

* **Row.of_append** — what the front of a row of tokens leaves to its back.
* **Row.neighbours**, **Row.balanced** — operands and operators alternate, parentheses come in
  pairs.
* **quoteAfter** — the quote that is open at the end of a text.
* **Token.Closed** — that a token leaves no quote open, and shows no parenthesis but its own.
* **Spelled.split** — an opening parenthesis outside of quotes is a token.
* **exact_of_read** — what an accepted text is made of.
-/

namespace HtmlViews.Condition

/-! ## Neighbours -/

/-- Whether a token can stand where an operand is due. -/
def Token.beginsOperand : Token → Bool
  | .operator _ | .closing => false
  | _ => true

/-- Whether an operand is due behind a token. -/
def Token.expectsOperand : Token → Bool
  | .operator _ | .bang | .opening => true
  | _ => false

/-- An operand is due only behind openings, negations and operators. -/
theorem Token.eq_of_expectsOperand {t : Token} (h : t.expectsOperand = true) :
    t = .opening ∨ t = .bang ∨ ∃ op, t = .operator op := by
  cases t <;> simp_all [expectsOperand]

/-- An atom stands where an operand begins. -/
theorem Token.Atom.beginsOperand {t : Token} (ht : t.Atom) : t.beginsOperand = true := by
  cases ht <;> rfl

/-- No operand is due behind an atom. -/
theorem Token.Atom.expectsOperand {t : Token} (ht : t.Atom) : t.expectsOperand = false := by
  cases ht <;> rfl

/-- What the first token of a row leaves to the others. -/
theorem Row.behind {due : Bool} {depth : Nat} {t : Token} {ts : List Token}
    (h : Row due depth (t :: ts)) :
    t.beginsOperand = due ∧ ∃ depth', Row t.expectsOperand depth' ts ∧
      depth' + [t].count .closing = depth + [t].count .opening := by
  cases h with
  | opening h => exact ⟨rfl, _, h, rfl⟩
  | bang h => exact ⟨rfl, _, h, rfl⟩
  | operand ht h =>
    refine ⟨ht.beginsOperand, depth, ht.expectsOperand ▸ h, ?_⟩
    cases ht <;> rfl
  | operator h => exact ⟨rfl, _, h, rfl⟩
  | closing h => exact ⟨rfl, _, h, rfl⟩

/-- At the end of a row all parentheses are closed. -/
theorem Row.eq_zero_of_nil {due : Bool} {depth : Nat} (h : Row due depth []) : depth = 0 := by
  cases h
  rfl

/-- What the front of a row leaves to its back: an operand is due there as the last token of the
front says, and the open parentheses are those of the front that are not closed in it. -/
theorem Row.of_append {due : Bool} {depth : Nat} {front back : List Token}
    (h : Row due depth (front ++ back)) :
    ∃ depth', Row ((front.getLast?.map Token.expectsOperand).getD due) depth' back ∧
      depth' + front.count .closing = depth + front.count .opening := by
  -- Along the front: what one token leaves open is where the next one stands.
  induction front generalizing due depth with
  | nil => exact ⟨depth, h, rfl⟩
  | cons t front ih =>
    obtain ⟨-, depth₁, hrow, hdepth₁⟩ := h.behind
    obtain ⟨depth₂, hback, hdepth₂⟩ := ih hrow
    refine ⟨depth₂, ?_, ?_⟩
    · rw [List.getLast?_cons, Option.map_some, Option.getD_some]
      cases hlast : front.getLast? with
      | none => rwa [hlast] at hback
      | some u => rwa [hlast] at hback
    · have hcount : ∀ u, (t :: front).count u = [t].count u + front.count u := by
        intro u
        rw [← List.count_append, List.singleton_append]
      rw [hcount, hcount]
      omega

/-- Every token but the first stands where its neighbour asks for it: an operand, a negation sign
or an opening parenthesis behind an operator, a negation sign or an opening parenthesis, and nothing
else. -/
theorem Row.neighbours {due : Bool} {depth : Nat} {front back : List Token} {t u : Token}
    (h : Row due depth (front ++ t :: u :: back)) : u.beginsOperand = t.expectsOperand := by
  obtain ⟨_, hrow, -⟩ := h.of_append
  obtain ⟨-, _, hrow, -⟩ := hrow.behind
  exact hrow.behind.1

/-- The parentheses of a whole condition come in pairs. -/
theorem Row.balanced {ts : List Token} (h : Row true 0 ts) :
    ts.count .closing = ts.count .opening ∧
      ∀ front back, ts = front ++ back → front.count .closing ≤ front.count .opening := by
  constructor
  · have h' : Row true 0 (ts ++ []) := by rwa [List.append_nil]
    obtain ⟨depth, hrow, hdepth⟩ := h'.of_append
    have hzero := hrow.eq_zero_of_nil
    omega
  · rintro front back rfl
    obtain ⟨depth, -, hdepth⟩ := h.of_append
    omega

/-! ## Parentheses outside of strings -/

/-- The quote that is open behind a text, when `quote` is open before it. -/
def quoteAfter : (quote : Option Char) → Text → Option Char
  | quote, [] => quote
  | none, c :: s => quoteAfter (if isQuote c then some c else none) s
  | some q, c :: s => quoteAfter (if c = q then none else some q) s

/-- Quotes are followed through one text and then through the other. -/
theorem quoteAfter_append (quote : Option Char) (s t : Text) :
    quoteAfter quote (s ++ t) = quoteAfter (quoteAfter quote s) t := by
  induction s generalizing quote with
  | nil => cases quote <;> rfl
  | cons c s ih =>
    cases quote with
    | none => exact ih _
    | some q => exact ih _

/-- Whether a character neither opens a string nor a parenthesis. -/
def isPlain (c : Char) : Bool :=
  !isQuote c && c ≠ '('

/-- A plain text opens no quotes. -/
theorem quoteAfter_none {s : Text} (hs : s.all isPlain) : quoteAfter none s = none := by
  induction s with
  | nil => rfl
  | cons c s ih =>
    rw [List.all_cons, Bool.and_eq_true, isPlain, Bool.and_eq_true, Bool.not_eq_true'] at hs
    rw [quoteAfter, hs.1.1]
    exact ih hs.2

/-- A plain text has no opening parenthesis. -/
theorem not_mem_of_plain {s : Text} (hs : s.all isPlain) : '(' ∉ s := by
  intro hmem
  have hplain := List.all_eq_true.mp hs '(' hmem
  exact absurd hplain (by decide)

/-- Without the closing quote a string goes on. -/
theorem quoteAfter_some {q : Char} {s : Text} (hs : q ∉ s) : quoteAfter (some q) s = some q := by
  induction s with
  | nil => rfl
  | cons c s ih =>
    rw [List.mem_cons, not_or] at hs
    rw [quoteAfter, if_neg (Ne.symm hs.1)]
    exact ih hs.2

/-- Whether a token leaves no quote open, and an opening parenthesis outside of quotes in its
spelling is the whole token. -/
structure Token.Closed (t : Token) : Prop where
  quoteAfter : quoteAfter none t.spelling = none
  opening : ∀ front back, t.spelling = front ++ '(' :: back →
    Condition.quoteAfter none front = none → t = .opening ∧ front = [] ∧ back = []

/-- A token that is spelled in plain characters is closed. -/
theorem Token.closed_of_plain {t : Token} (ht : t.spelling.all isPlain) : t.Closed where
  quoteAfter := quoteAfter_none ht
  opening front back h _ := by
    have hmem : '(' ∈ t.spelling := by
      rw [h]
      exact List.mem_append_right front List.mem_cons_self
    exact absurd hmem (not_mem_of_plain ht)

/-- A string between quotes is closed, whatever parentheses it has in it. -/
theorem Token.closed_quoted {q : Char} {body : Text} (hq : isQuote q) (hbody : q ∉ body) :
    (Token.quoted q body).Closed where
  quoteAfter := by
    rw [Token.spelling, List.cons_append, Condition.quoteAfter, if_pos hq, quoteAfter_append,
      quoteAfter_some hbody, Condition.quoteAfter, if_pos rfl]
    rfl
  opening front back h hfront := by
    have hparen : q ≠ '(' := by
      rintro rfl
      exact absurd hq (by decide)
    cases front with
    | nil => exact absurd (List.cons.inj h).1 hparen
    | cons c front =>
      obtain rfl : q = c := (List.cons.inj h).1
      have hrest : body ++ [q] = front ++ '(' :: back := (List.cons.inj h).2
      -- The parenthesis stands in the body, so the quote before the body is still open there.
      have hfree : q ∉ front := by
        rcases Text.append_eq_append_cons hrest with ⟨a, -, ha⟩ | ⟨a, rfl, -⟩
        · have hmem : '(' ∈ [q] := by
            rw [ha]
            exact List.mem_append_right a List.mem_cons_self
          exact absurd (List.mem_singleton.mp hmem).symm hparen
        · intro hmem
          exact hbody (List.mem_append_left _ hmem)
      rw [Condition.quoteAfter, if_pos hq, quoteAfter_some hfree] at hfront
      cases hfront

/-- The characters of names are plain. -/
theorem isPlain_of_isNamePart {c : Char} (hc : isNamePart c) : isPlain c := by
  have hne : ∀ d, isNamePart d = false → c ≠ d := fun _ => ne_of_class hc
  simp [isPlain, isQuote, hne '\'' rfl, hne '"' rfl, hne '(' rfl]

/-- Names are plain. -/
theorem IsName.plain {w : Text} (hw : IsName w) : w.all isPlain := by
  obtain ⟨c, s, rfl, hc, hs⟩ := hw
  have hc : isNamePart c := by rw [isNamePart, hc, Bool.true_or]
  rw [List.all_cons, isPlain_of_isNamePart hc, Bool.true_and, List.all_eq_true]
  intro d hd
  exact isPlain_of_isNamePart (hs d hd)

/-- Digits are plain. -/
theorem IsDigits.plain {ds : Text} (hds : IsDigits ds) : ds.all isPlain := by
  rw [List.all_eq_true]
  intro d hd
  exact isPlain_of_isNamePart (isNamePart_of_isDigit (hds.2 d hd))

/-- Signs are plain. -/
theorem IsSign.plain {sign : Text} (h : IsSign sign) : sign.all isPlain := by
  rcases h with rfl | rfl <;> rfl

/-- Blanks between tokens are plain. -/
theorem IsGap.plain {gap : Text} (h : IsGap gap) : gap.all isPlain := by
  rw [List.all_eq_true]
  intro c hc
  have hc := h c hc
  simp only [isGap, Bool.or_eq_true, decide_eq_true_eq] at hc
  rcases hc with ((rfl | rfl) | rfl) | rfl <;> rfl

/-- Atoms are closed. -/
theorem Token.Atom.closed {t : Token} (ht : t.Atom) : t.Closed := by
  cases ht with
  | integer hsign hds =>
    apply closed_of_plain
    rw [spelling, List.all_append, hsign.plain, hds.plain, Bool.true_and]
  | decimal hsign hds hfs =>
    apply closed_of_plain
    rw [spelling, List.all_append, List.all_append, List.all_cons, hsign.plain, hds.plain,
      hfs.plain]
    rfl
  | quoted hq hbody => exact closed_quoted hq hbody
  | word hw => exact closed_of_plain hw.plain
  | name hname =>
    apply closed_of_plain
    rw [spelling, List.all_cons, hname.plain]
    rfl

/-- An opening parenthesis is closed, being the whole token. -/
theorem Token.closed_opening : Token.opening.Closed where
  quoteAfter := rfl
  opening front back h _ := by
    cases front with
    | nil => exact ⟨rfl, rfl, (List.cons.inj h).2.symm⟩
    | cons c front =>
      have := congrArg List.length h
      simp [Token.spelling] at this

/-- All tokens of a row are closed. -/
theorem Row.closed {due : Bool} {depth : Nat} {ts : List Token} (h : Row due depth ts) :
    ∀ t ∈ ts, t.Closed := by
  induction h with
  | opening _ ih => exact List.forall_mem_cons.mpr ⟨Token.closed_opening, ih⟩
  | bang _ ih => exact List.forall_mem_cons.mpr ⟨Token.closed_of_plain rfl, ih⟩
  | operand ht _ ih => exact List.forall_mem_cons.mpr ⟨ht.closed, ih⟩
  | @operator _ op _ _ ih =>
    refine List.forall_mem_cons.mpr ⟨Token.closed_of_plain ?_, ih⟩
    cases op <;> rfl
  | closing _ ih => exact List.forall_mem_cons.mpr ⟨Token.closed_of_plain rfl, ih⟩
  | done =>
    intro t ht
    exact absurd ht List.not_mem_nil

/-- An opening parenthesis outside of quotes is a token of its own. -/
theorem Spelled.split {ts : List Token} {s : Text} (hs : Spelled ts s)
    (hts : ∀ t ∈ ts, t.Closed) {before after : Text} (h : s = before ++ '(' :: after)
    (hbefore : quoteAfter none before = none) :
    ∃ front back, ts = front ++ .opening :: back ∧ Spelled front before ∧ Spelled back after := by
  have hgaps : ∀ {gap a b : Text}, IsGap gap → gap ≠ a ++ '(' :: b := by
    rintro gap a b hgap rfl
    exact not_mem_of_plain hgap.plain (List.mem_append_right a List.mem_cons_self)
  induction hs generalizing before with
  | nil hgap => exact absurd h (hgaps hgap)
  | @cons gap r t ts hgap hr ih =>
    obtain ⟨ht, hts⟩ := List.forall_mem_cons.mp hts
    have hquotes := quoteAfter_none hgap.plain
    rcases Text.append_eq_append_cons h with ⟨inside, rfl, hinside⟩ | ⟨_, hbehind, -⟩
    · rw [quoteAfter_append, hquotes] at hbefore
      rcases Text.append_eq_append_cons hinside with ⟨rest, rfl, hrest⟩ | ⟨_, htoken, rfl⟩
      · rw [quoteAfter_append, ht.quoteAfter] at hbefore
        obtain ⟨front, back, rfl, hfront, hback⟩ := ih hts hrest hbefore
        exact ⟨t :: front, back, rfl, .cons hgap hfront, hback⟩
      · obtain ⟨rfl, rfl, rfl⟩ := ht.opening _ _ htoken hbefore
        refine ⟨[], ts, rfl, ?_, hr⟩
        rw [List.append_nil]
        exact .nil hgap
    · exact absurd hbehind (hgaps hgap)

/-- An accepted text consists of the tokens of its condition, grouped as the grammar says, with gaps
between them. Its parentheses come in pairs; no operand follows an operand, whether there are
parentheses around them or not; and every opening parenthesis outside of quotes is a token at the
beginning or behind an operator, a negation sign or an opening parenthesis, so that nothing is
called. -/
theorem exact_of_read {s : Text} {e : Expr} (h : read s = .ok e) :
    ∃ ts, e.Grouped 0 ts ∧ Spelled ts s ∧
      (ts.count .closing = ts.count .opening ∧
        ∀ front back, ts = front ++ back → front.count .closing ≤ front.count .opening) ∧
      (∀ front t u back, ts = front ++ t :: u :: back →
        t.Atom ∨ t = .closing → ¬ (u.Atom ∨ u = .bang ∨ u = .opening)) ∧
      ∀ before after, s = before ++ '(' :: after → quoteAfter none before = none →
        ∃ front back, ts = front ++ .opening :: back ∧ Spelled front before ∧
          Spelled back after ∧ ∀ t ∈ front.getLast?,
            t = .opening ∨ t = .bang ∨ ∃ op, t = .operator op := by
  obtain ⟨ts, hts, hs, hrow⟩ := exists_row_of_read h
  refine ⟨ts, hts, hs, hrow.balanced, ?_, ?_⟩
  · rintro front t u back rfl ht hu
    have hneighbours := hrow.neighbours
    have ht : t.expectsOperand = false := by
      rcases ht with ht | rfl
      · exact ht.expectsOperand
      · rfl
    have hu : u.beginsOperand = true := by
      rcases hu with hu | rfl | rfl
      · exact hu.beginsOperand
      · rfl
      · rfl
    rw [ht, hu] at hneighbours
    cases hneighbours
  · intro before after hsplit hbefore
    obtain ⟨front, back, rfl, hfront, hback⟩ := hs.split hrow.closed hsplit hbefore
    refine ⟨front, back, rfl, hfront, hback, ?_⟩
    intro t ht
    obtain ⟨_, hback, -⟩ := hrow.of_append
    have hexpects := hback.behind.1
    rw [ht, Option.map_some, Option.getD_some] at hexpects
    exact Token.eq_of_expectsOperand hexpects.symm

/-- The parenthesis in quotes is part of a string, the other one stands behind a negation sign. -/
theorem exact_of_read_negation :
    ∃ ts, (Expr.not (.binary .equal (.literal (.str "f(1)")) (.variable "x"))).Grouped 0 ts ∧
      Spelled ts "!( \"f(1)\" == $x )".toList := by
  have hscan : scan "!( \"f(1)\" == $x )".toList =
      .ok [.bang, .opening, .quoted '"' ['f', '(', '1', ')'], .operator .equal, .variable ['x'],
        .closing] := by
    cbv
  have hread : read "!( \"f(1)\" == $x )".toList =
      .ok (.not (.binary .equal (.literal (.str "f(1)")) (.variable "x"))) :=
    read_eq_ok_iff.mpr ⟨_, hscan, rfl⟩
  obtain ⟨ts, hts, hs, -⟩ := exact_of_read hread
  exact ⟨ts, hts, hs⟩

end HtmlViews.Condition
