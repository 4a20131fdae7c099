import HtmlViews.Proofs.Condition.Grammar
import HtmlViews.Proofs.Text.Basic

/-!
# Scanning is exact

Cutting a text into tokens succeeds with a row of tokens exactly when the text spells that row and
the row alternates between operands and operators with its parentheses in pairs.

One direction goes along the scanner: what it cuts off is a token and what it passes over is a gap,
so its result spells the text, and the row alternates since the scanner keeps whether an operand is
due and how many parentheses are open (**row_of_scanFrom**). The other direction goes along the row:
a token that a text begins with is read up to its end if what follows cannot go on with it
(**Stops**), and in a row nothing that follows a token can (**Row.stops**); so each step of the
scanner cuts off just the first token of the row (**scanFrom_of_row**).

Each kind of token is read by a function of its own, for which both directions are shown beside each
other.

* **Stops** — a text that cannot go on with an operand that stands before it.
* **operand?_append**, **operator?_append** — a token is read back from a text that begins with it.
* **Row** — the rows of tokens that can follow a place in a condition.
* **scan_eq_ok_iff** — what the scanner finds.
-/

namespace HtmlViews.Condition

/-! ## Characters -/

/-- The digits by their code points. -/
theorem isDigit_iff {c : Char} : isDigit c ↔ 48 ≤ c.toNat ∧ c.toNat ≤ 57 := by
  simp only [isDigit, Bool.and_eq_true, decide_eq_true_eq, Char.le_def, UInt32.le_iff_toNat_le]
  rfl

/-- The characters that names begin with, by their code points. -/
theorem isNameStart_iff {c : Char} :
    isNameStart c ↔
      (97 ≤ c.toNat ∧ c.toNat ≤ 122) ∨ (65 ≤ c.toNat ∧ c.toNat ≤ 90) ∨ c = '_' := by
  simp only [isNameStart, Bool.or_eq_true, Bool.and_eq_true, decide_eq_true_eq, Char.le_def,
    UInt32.le_iff_toNat_le, or_assoc]
  rfl

/-- No name begins with a digit. -/
theorem isNameStart_of_isDigit {c : Char} (h : isDigit c) : isNameStart c = false := by
  rw [isDigit_iff] at h
  rw [Bool.eq_false_iff, Ne, isNameStart_iff]
  rintro (h' | h' | rfl)
  · omega
  · omega
  · exact absurd h (by decide)

/-- Characters are different when only one of them is of a class. -/
theorem ne_of_class {p : Char → Bool} {c d : Char} (hc : p c) (hd : p d = false) : c ≠ d := by
  rintro rfl
  rw [hc] at hd
  cases hd

/-- Digits may stand in names. -/
theorem isNamePart_of_isDigit {c : Char} (h : isDigit c) : isNamePart c := by
  rw [isNamePart, h, Bool.or_true]

/-! ## Operands -/

/-- Whether a text cannot go on with an operand that stands before it. -/
def Stops (s : Text) : Prop :=
  ∀ c ∈ s.head?, isNamePart c = false ∧ c ≠ '.'

/-- Where a token stops no digit follows. -/
theorem Stops.isDigit {s : Text} (hs : Stops s) : ∀ c ∈ s.head?, isDigit c = false := by
  intro c hc
  rw [Bool.eq_false_iff]
  intro hd
  have := (hs c hc).1
  rw [isNamePart_of_isDigit hd] at this
  exact absurd this (by decide)

/-- The sign before digits is taken off. -/
theorem minus_append_of_digits {sign ds s : Text} (hsign : IsSign sign) (hds : IsDigits ds) :
    minus (sign ++ (ds ++ s)) = (sign, ds ++ s) := by
  rcases hsign with rfl | rfl
  · obtain ⟨hne, hd⟩ := hds
    cases ds with
    | nil => exact absurd rfl hne
    | cons d ds =>
      have hd : isDigit d := hd d List.mem_cons_self
      have : d ≠ '-' := by
        rintro rfl
        exact absurd hd (by decide)
      simp [minus, this]
  · rfl

/-- Digits are read as an integer when neither a digit nor a point follows. -/
theorem number?_integer {sign ds s : Text} (hsign : IsSign sign) (hds : IsDigits ds)
    (hs : Stops s) : number? (sign ++ (ds ++ s)) = some (.integer (sign ++ ds), s) := by
  rw [number?, minus_append_of_digits hsign hds]
  simp only [Text.takeWhile_run hds.2 hs.isDigit, Text.dropWhile_run hds.2 hs.isDigit, hds.1,
    if_false]
  cases s with
  | nil => rfl
  | cons c s =>
    have hc : c ≠ '.' := (hs c rfl).2
    split
    · simp_all
    · rfl

/-- Digits with a point and digits behind it are read as a decimal number. -/
theorem number?_decimal {sign ds fs s : Text} (hsign : IsSign sign) (hds : IsDigits ds)
    (hfs : IsDigits fs) (hs : Stops s) :
    number? (sign ++ (ds ++ '.' :: (fs ++ s))) =
      some (.decimal (sign ++ ds ++ '.' :: fs), s) := by
  have hpoint : ∀ c ∈ ('.' :: (fs ++ s)).head?, isDigit c = false := by
    rintro c hc
    obtain rfl : '.' = c := Option.some.inj hc
    decide
  rw [number?, minus_append_of_digits hsign hds]
  simp only [Text.takeWhile_run hds.2 hpoint, Text.dropWhile_run hds.2 hpoint, hds.1, if_false,
    Text.takeWhile_run hfs.2 hs.isDigit, Text.dropWhile_run hfs.2 hs.isDigit, hfs.1]

/-- A string without the quote in it is read up to this quote. -/
theorem stringBody?_append {q : Char} {body : Text} (hq : q ∉ body) (s : Text) :
    stringBody? q (body ++ q :: s) = some (body, s) := by
  induction body with
  | nil => simp [stringBody?]
  | cons c body ih =>
    have hc : c ≠ q := fun h => hq (h ▸ List.mem_cons_self)
    rw [List.cons_append, stringBody?, if_neg hc, ih fun h => hq (List.mem_cons_of_mem c h)]
    rfl

/-- A name is read up to where it stops. -/
theorem name?_append {w s : Text} (hw : IsName w) (hs : Stops s) :
    name? (w ++ s) = some (w, s) := by
  obtain ⟨c, t, rfl, hc, ht⟩ := hw
  have hstop : ∀ d ∈ s.head?, isNamePart d = false := fun d hd => (hs d hd).1
  simp only [name?, List.cons_append, hc, if_true, Text.takeWhile_run ht hstop,
    Text.dropWhile_run ht hstop]

/-- Whether a number can begin with a character. -/
def isNumberStart (c : Char) : Bool :=
  c = '-' || isDigit c

/-- The first character of a number begins no other operand. -/
theorem operand?_eq_number? {c : Char} {s : Text} (hc : isNumberStart c) :
    operand? (c :: s) = number? (c :: s) := by
  have hquote : (decide (c = '"') || decide (c = '\'')) = false := by
    rw [decide_eq_false (ne_of_class hc rfl), decide_eq_false (ne_of_class hc rfl)]
    rfl
  have hdollar : c ≠ '$' := ne_of_class hc rfl
  have hname : isNameStart c = false := by
    rw [isNumberStart, Bool.or_eq_true, decide_eq_true_eq] at hc
    rcases hc with rfl | hc
    · rfl
    · exact isNameStart_of_isDigit hc
  simp only [operand?, hquote, if_neg hdollar, hname, Bool.false_eq_true, if_false]

/-- The first character of a name begins no other operand. -/
theorem operand?_eq_name? {c : Char} {s : Text} (hc : isNameStart c) :
    operand? (c :: s) = (name? (c :: s)).map fun (w, r) => (.word w, r) := by
  have hquote : (decide (c = '"') || decide (c = '\'')) = false := by
    rw [decide_eq_false (ne_of_class hc rfl), decide_eq_false (ne_of_class hc rfl)]
    rfl
  have hdollar : c ≠ '$' := ne_of_class hc rfl
  simp only [operand?, hquote, if_neg hdollar, hc, Bool.false_eq_true, if_false, if_true]

/-- A number begins with a minus or a digit. -/
theorem head_of_number {sign ds : Text} (hsign : IsSign sign) (hds : IsDigits ds) :
    ∃ c t, sign ++ ds = c :: t ∧ isNumberStart c := by
  rcases hsign with rfl | rfl
  · obtain ⟨hne, hd⟩ := hds
    cases ds with
    | nil => exact absurd rfl hne
    | cons d ds =>
      refine ⟨d, ds, rfl, ?_⟩
      rw [isNumberStart, hd d List.mem_cons_self, Bool.or_true]
  · exact ⟨'-', ds, rfl, rfl⟩

/-- An operand is read back, whatever follows that cannot go on with it. -/
theorem operand?_append {t : Token} (ht : t.Atom) {s : Text} (hs : Stops s) :
    operand? (t.spelling ++ s) = some (t, s) := by
  cases ht with
  | @integer sign ds hsign hds =>
    obtain ⟨c, u, hcu, hc⟩ := head_of_number hsign hds
    rw [Token.spelling, hcu, List.cons_append, operand?_eq_number? hc, ← List.cons_append, ← hcu,
      List.append_assoc, number?_integer hsign hds hs]
  | @decimal sign ds fs hsign hds hfs =>
    obtain ⟨c, u, hcu, hc⟩ := head_of_number hsign hds
    have hread := number?_decimal hsign hds hfs hs
    rw [← List.append_assoc, hcu, List.cons_append] at hread
    rw [Token.spelling, hcu, List.append_assoc, List.cons_append, List.cons_append,
      operand?_eq_number? hc, hread]
  | @quoted q body hq hbody =>
    have hquote : (decide (q = '"') || decide (q = '\'')) = true := by
      rwa [Bool.or_comm]
    simp only [Token.spelling, List.cons_append, List.append_assoc, List.nil_append, operand?,
      hquote, if_true, stringBody?_append hbody, Option.map_some]
  | @word w hw =>
    have hread := name?_append hw hs
    obtain ⟨c, u, rfl, hc, hu⟩ := hw
    rw [List.cons_append] at hread
    rw [Token.spelling, List.cons_append, operand?_eq_name? hc, hread, Option.map_some]
  | @name name hname =>
    simp [Token.spelling, operand?, name?_append hname hs]

/-- The digits that a text begins with are digits. -/
theorem isDigits_takeWhile {s : Text} (h : s.takeWhile isDigit ≠ []) :
    IsDigits (s.takeWhile isDigit) :=
  ⟨h, fun _ hd => List.all_eq_true.mp List.all_takeWhile _ hd⟩

/-- What is taken off as a sign is one. -/
theorem isSign_minus (s : Text) : IsSign (minus s).1 := by
  unfold minus
  split
  · exact .inr rfl
  · exact .inl rfl

/-- A number that is read is an atom. -/
theorem atom_of_number? {s r : Text} {t : Token} (h : number? s = some (t, r)) : t.Atom := by
  have hsign := isSign_minus s
  unfold number? at h
  generalize minus s = m at h hsign
  obtain ⟨sign, s'⟩ := m
  simp only at h hsign
  split at h
  · simp at h
  · rename_i hds
    split at h
    · split at h
      · simp only [Option.some.injEq, Prod.mk.injEq] at h
        obtain ⟨rfl, -⟩ := h
        exact .integer hsign (isDigits_takeWhile hds)
      · rename_i hfs
        simp only [Option.some.injEq, Prod.mk.injEq] at h
        obtain ⟨rfl, -⟩ := h
        exact .decimal hsign (isDigits_takeWhile hds) (isDigits_takeWhile hfs)
    · simp only [Option.some.injEq, Prod.mk.injEq] at h
      obtain ⟨rfl, -⟩ := h
      exact .integer hsign (isDigits_takeWhile hds)

/-- The quote that a string is read up to is not in it. -/
theorem not_mem_of_stringBody? {q : Char} {s body r : Text}
    (h : stringBody? q s = some (body, r)) : q ∉ body := by
  induction s generalizing body with
  | nil => simp [stringBody?] at h
  | cons c s ih =>
    unfold stringBody? at h
    split at h
    · simp only [Option.some.injEq, Prod.mk.injEq] at h
      obtain ⟨rfl, -⟩ := h
      exact List.not_mem_nil
    · rename_i hc
      simp only [Option.map_eq_some_iff, Prod.exists, Prod.mk.injEq] at h
      obtain ⟨b, t, hb, rfl, rfl⟩ := h
      rw [List.mem_cons, not_or]
      exact ⟨Ne.symm hc, ih hb⟩

/-- A name that is read is one. -/
theorem isName_of_name? {s w r : Text} (h : name? s = some (w, r)) : IsName w := by
  unfold name? at h
  split at h
  · simp at h
  · rename_i c s
    split at h
    · rename_i hc
      simp only [Option.some.injEq, Prod.mk.injEq] at h
      obtain ⟨rfl, -⟩ := h
      exact ⟨c, _, rfl, hc, fun _ hd => List.all_eq_true.mp List.all_takeWhile _ hd⟩
    · simp at h

/-- Whatever is read as an operand is one by its characters. -/
theorem atom_of_operand? {s r : Text} {t : Token} (h : operand? s = some (t, r)) : t.Atom := by
  unfold operand? at h
  split at h
  · simp at h
  · split at h
    · rename_i hq
      simp only [Option.map_eq_some_iff, Prod.exists, Prod.mk.injEq] at h
      obtain ⟨body, u, hb, rfl, rfl⟩ := h
      rw [Bool.or_comm] at hq
      exact .quoted hq (not_mem_of_stringBody? hb)
    · split at h
      · simp only [Option.map_eq_some_iff, Prod.exists, Prod.mk.injEq] at h
        obtain ⟨name, u, hn, rfl, rfl⟩ := h
        exact .name (isName_of_name? hn)
      · split at h
        · simp only [Option.map_eq_some_iff, Prod.exists, Prod.mk.injEq] at h
          obtain ⟨w, u, hn, rfl, rfl⟩ := h
          exact .word (isName_of_name? hn)
        · exact atom_of_number? h

/-! ## First characters -/

/-- Whether an operand can begin with a character. -/
def isAtomStart (c : Char) : Bool :=
  isNumberStart c || isQuote c || isNameStart c || c = '$'

/-- Every atom begins with a character that operands can begin with. -/
theorem head_of_atom {t : Token} (ht : t.Atom) : ∃ c u, t.spelling = c :: u ∧ isAtomStart c := by
  cases ht with
  | @integer sign ds hsign hds =>
    obtain ⟨c, u, hcu, hc⟩ := head_of_number hsign hds
    exact ⟨c, u, hcu, by simp [isAtomStart, hc]⟩
  | @decimal sign ds fs hsign hds hfs =>
    obtain ⟨c, u, hcu, hc⟩ := head_of_number hsign hds
    refine ⟨c, u ++ '.' :: fs, ?_, by simp [isAtomStart, hc]⟩
    rw [Token.spelling, hcu, List.cons_append]
  | @quoted q body hq hbody => exact ⟨q, body ++ [q], rfl, by simp [isAtomStart, hq]⟩
  | @word w hw =>
    obtain ⟨c, u, rfl, hc, -⟩ := hw
    exact ⟨c, u, rfl, by simp [isAtomStart, hc]⟩
  | @name name hname => exact ⟨'$', name, rfl, rfl⟩

/-- No atom begins with a blank. -/
theorem isGap_of_isAtomStart {c : Char} (hc : isAtomStart c) : isGap c = false := by
  have hne : ∀ d, isAtomStart d = false → c ≠ d := fun _ => ne_of_class hc
  simp [isGap, hne ' ' rfl, hne '\t' rfl, hne '\r' rfl, hne '\n' rfl]

/-! ## Operators -/

/-- An operator is read back when no `=` follows that could go on with it. -/
theorem operator?_append (op : Operator) {s : Text} (hs : ∀ c ∈ s.head?, c ≠ '=') :
    operator? (op.symbol ++ s) = some (op, s) := by
  cases s with
  | nil => cases op <;> rfl
  | cons c s =>
    have hc : '=' ≠ c := Ne.symm (hs c rfl)
    cases op <;> simp [operator?, operators, Operator.symbol, Text.after?, hc]

/-- A closing parenthesis is no operator. -/
theorem operator?_closing (s : Text) : operator? (')' :: s) = none := rfl

/-! ## Gaps -/

/-- The blanks that a text begins with are blanks. -/
theorem isGap_of_mem_takeWhile (s : Text) : IsGap (s.takeWhile isGap) :=
  fun _ hc => List.all_eq_true.mp List.all_takeWhile _ hc

/-- A text is a gap and what is left without it. -/
theorem takeWhile_append_dropGap (s : Text) : s.takeWhile isGap ++ dropGap s = s :=
  List.takeWhile_append_dropWhile

/-- Blanks are dropped up to what follows them. -/
theorem dropGap_append {gap s : Text} (hgap : IsGap gap) (hs : ∀ c ∈ s.head?, isGap c = false) :
    dropGap (gap ++ s) = s :=
  Text.dropWhile_run hgap hs

/-- What comes behind a gap, or the first character of the gap, heads a text. -/
theorem head_of_gap {gap s : Text} (hgap : IsGap gap) :
    ∀ c ∈ (gap ++ s).head?, isGap c ∨ c ∈ s.head? := by
  intro c hc
  cases gap with
  | nil => exact .inr hc
  | cons d gap =>
    obtain rfl : d = c := Option.some.inj hc
    exact .inl (hgap d List.mem_cons_self)

/-- No token is spelled exactly by blanks. -/
theorem spelled_nil_iff {s : Text} : Spelled [] s ↔ dropGap s = [] := by
  constructor
  · rintro ⟨hgap⟩
    have := dropGap_append (s := []) hgap (fun c hc => by simp at hc)
    rwa [List.append_nil] at this
  · intro h
    have hs := takeWhile_append_dropGap s
    rw [h, List.append_nil] at hs
    rw [← hs]
    exact .nil (isGap_of_mem_takeWhile s)

/-- A spelling of a row without its gap begins with the first token. -/
theorem dropGap_of_spelled_cons {s : Text} {t : Token} {ts : List Token}
    (ht : ∃ c u, t.spelling = c :: u ∧ isGap c = false) (hs : Spelled (t :: ts) s) :
    ∃ r, dropGap s = t.spelling ++ r ∧ Spelled ts r := by
  obtain ⟨c, u, hcu, hc⟩ := ht
  cases hs with
  | @cons gap r _ _ hgap hr =>
    refine ⟨r, dropGap_append hgap ?_, hr⟩
    intro d hd
    rw [hcu] at hd
    obtain rfl : c = d := Option.some.inj hd
    exact hc

/-- A row of tokens is spelled by its first token behind a gap, and the others behind it. -/
theorem spelled_cons_of_dropGap {s r : Text} {t : Token} {ts : List Token}
    (hs : dropGap s = t.spelling ++ r) (hr : Spelled ts r) : Spelled (t :: ts) s := by
  rw [← takeWhile_append_dropGap s, hs]
  exact .cons (isGap_of_mem_takeWhile s) hr

/-! ## Rows of tokens -/

/-- The rows of tokens that can follow a place in a condition in which `depth` parentheses are open;
`due` says whether an operand is due there. -/
inductive Row : (due : Bool) → (depth : Nat) → List Token → Prop
  | opening {depth : Nat} {ts : List Token} :
      Row true (depth + 1) ts → Row true depth (.opening :: ts)
  | bang {depth : Nat} {ts : List Token} : Row true depth ts → Row true depth (.bang :: ts)
  | operand {depth : Nat} {t : Token} {ts : List Token} :
      t.Atom → Row false depth ts → Row true depth (t :: ts)
  | operator {depth : Nat} {op : Operator} {ts : List Token} :
      Row true depth ts → Row false depth (.operator op :: ts)
  | closing {depth : Nat} {ts : List Token} :
      Row false depth ts → Row false (depth + 1) (.closing :: ts)
  | done : Row false 0 []

/-- The text where an operand is due does not go on with an operator before it. -/
theorem Row.head_of_due {depth : Nat} {ts : List Token} {s : Text} (hrow : Row true depth ts)
    (hs : Spelled ts s) : ∀ c ∈ s.head?, c ≠ '=' := by
  rintro c hc rfl
  cases hs with
  | nil => cases hrow
  | @cons gap r t ts hgap hr =>
    rcases head_of_gap hgap _ hc with h | h
    · exact absurd h (by decide)
    · cases hrow with
      | opening => exact absurd (Option.some.inj h) (by decide)
      | bang => exact absurd (Option.some.inj h) (by decide)
      | operand ht =>
        obtain ⟨d, u, hd, hstart⟩ := head_of_atom ht
        rw [hd] at h
        obtain rfl : d = '=' := Option.some.inj h
        exact absurd hstart (by decide)

/-- Operators begin with a character that neither blanks, names nor numbers have. -/
theorem symbol_head (op : Operator) :
    ∃ c u, op.symbol = c :: u ∧ isGap c = false ∧ isNamePart c = false ∧ c ≠ '.' := by
  cases op <;> exact ⟨_, _, rfl, by decide⟩

/-- The text behind an operand does not go on with it. -/
theorem Row.stops {depth : Nat} {ts : List Token} {s : Text} (hrow : Row false depth ts)
    (hs : Spelled ts s) : Stops s := by
  have hgaps : ∀ c : Char, isGap c → isNamePart c = false ∧ c ≠ '.' := by
    intro c hc
    simp only [isGap, Bool.or_eq_true, decide_eq_true_eq] at hc
    rcases hc with ((rfl | rfl) | rfl) | rfl <;> decide
  intro c hc
  cases hs with
  | nil hgap => exact hgaps c (hgap c (List.mem_of_mem_head? hc))
  | @cons gap r t ts hgap hr =>
    rcases head_of_gap hgap _ hc with h | h
    · exact hgaps c h
    · cases hrow with
      | @operator _ op =>
        obtain ⟨d, u, hd, -, hstop⟩ := symbol_head op
        rw [Token.spelling, hd] at h
        obtain rfl : d = c := Option.some.inj h
        exact hstop
      | closing =>
        obtain rfl : ')' = c := Option.some.inj h
        decide

/-! ## What the scanner finds -/

/-- Whether an operand is due at a place. -/
def Place.due : Place → Bool
  | .operand _ => true
  | .behind => false

/-- Whatever the scanner cuts off is the first token of its result. -/
theorem of_map_cons_eq_ok {t : Token} {x : Except SyntaxError (List Token)} {ts : List Token}
    (h : x.map (t :: ·) = .ok ts) : ∃ us, x = .ok us ∧ ts = t :: us := by
  cases x with
  | error e => cases h
  | ok us =>
    cases h
    exact ⟨us, rfl, rfl⟩

/-- The tokens that were cut off a text are a row, and they spell the text. -/
theorem row_of_scanFrom {place : Place} {depth : Nat} {s : Text} {ts : List Token}
    (h : scanFrom place depth s = .ok ts) : Row place.due depth ts ∧ Spelled ts s := by
  fun_induction scanFrom place depth s generalizing ts with
  -- An opening parenthesis.
  | case1 depth s fresh r hs ih =>
    obtain ⟨us, hus, rfl⟩ := of_map_cons_eq_ok h
    obtain ⟨hrow, hr⟩ := ih hus
    exact ⟨.opening hrow, spelled_cons_of_dropGap hs hr⟩
  -- A negation sign.
  | case2 depth s fresh r hs ih =>
    obtain ⟨us, hus, rfl⟩ := of_map_cons_eq_ok h
    obtain ⟨hrow, hr⟩ := ih hus
    exact ⟨.bang hrow, spelled_cons_of_dropGap hs hr⟩
  -- An operand.
  | case3 depth s fresh _ _ t r ht ih =>
    obtain ⟨us, hus, rfl⟩ := of_map_cons_eq_ok h
    obtain ⟨hrow, hr⟩ := ih hus
    exact ⟨.operand (atom_of_operand? ht) hrow, spelled_cons_of_dropGap (eq_of_operand? ht).1 hr⟩
  -- No operand where one is due.
  | case4 => cases h
  -- An operator.
  | case5 depth s op r ho ih =>
    obtain ⟨us, hus, rfl⟩ := of_map_cons_eq_ok h
    obtain ⟨hrow, hr⟩ := ih hus
    exact ⟨.operator hrow, spelled_cons_of_dropGap (eq_of_operator? ho) hr⟩
  -- The end, with all parentheses closed.
  | case6 s ho hs =>
    cases h
    exact ⟨.done, spelled_nil_iff.mpr hs⟩
  -- The end, with a parenthesis open.
  | case7 => cases h
  -- Neither an operator nor the end.
  | case8 => cases h
  -- A closing parenthesis.
  | case9 s ho r outer hs ih =>
    obtain ⟨us, hus, rfl⟩ := of_map_cons_eq_ok h
    obtain ⟨hrow, hr⟩ := ih hus
    exact ⟨.closing hrow, spelled_cons_of_dropGap hs hr⟩
  -- No operator inside of parentheses.
  | case10 => cases h

section Steps

variable {s r : Text}

/-- Where an operand is due, an opening parenthesis is scanned and the depth grows. -/
theorem scanFrom_opening (fresh : Bool) (depth : Nat)
    (hs : dropGap s = Token.opening.spelling ++ r) :
    scanFrom (.operand fresh) depth s =
      (scanFrom (.operand true) (depth + 1) r).map (.opening :: ·) := by
  conv => lhs; rw [scanFrom, hs]
  rfl

/-- Where an operand is due, a negation is scanned. -/
theorem scanFrom_bang (fresh : Bool) (depth : Nat)
    (hs : dropGap s = Token.bang.spelling ++ r) :
    scanFrom (.operand fresh) depth s = (scanFrom (.operand false) depth r).map (.bang :: ·) := by
  conv => lhs; rw [scanFrom, hs]
  rfl

/-- Where an operand is due, an atom is scanned up to where it stops. -/
theorem scanFrom_operand {t : Token} (ht : t.Atom) (hr : Stops r) (fresh : Bool) (depth : Nat)
    (hs : dropGap s = t.spelling ++ r) :
    scanFrom (.operand fresh) depth s = (scanFrom .behind depth r).map (t :: ·) := by
  obtain ⟨c, u, hc, hstart⟩ := head_of_atom ht
  rw [scanFrom]
  split
  · rename_i hs'
    rw [hs, hc] at hs'
    obtain rfl : c = '(' := (List.cons.inj hs').1
    exact absurd hstart (by decide)
  · rename_i hs'
    rw [hs, hc] at hs'
    obtain rfl : c = '!' := (List.cons.inj hs').1
    exact absurd hstart (by decide)
  · rw [hs, operand?_append ht hr]

/-- Behind an operand, an operator is scanned. -/
theorem scanFrom_operator {op : Operator} (hr : ∀ c ∈ r.head?, c ≠ '=') (depth : Nat)
    (hs : dropGap s = (Token.operator op).spelling ++ r) :
    scanFrom .behind depth s =
      (scanFrom (.operand false) depth r).map (.operator op :: ·) := by
  conv => lhs; rw [scanFrom, hs, Token.spelling, operator?_append op hr]

/-- Behind an operand, a closing parenthesis is scanned and the depth falls. -/
theorem scanFrom_closing (depth : Nat) (hs : dropGap s = Token.closing.spelling ++ r) :
    scanFrom .behind (depth + 1) s = (scanFrom .behind depth r).map (.closing :: ·) := by
  have hs : dropGap s = ')' :: r := hs
  conv => lhs; rw [scanFrom, hs, operator?_closing]
  rfl

/-- Behind an operand with all parentheses closed, a text may end. -/
theorem scanFrom_done (hs : dropGap s = []) : scanFrom .behind 0 s = .ok [] := by
  rw [scanFrom, hs]
  rfl

end Steps

/-- A row that spells a text is cut off it again. -/
theorem scanFrom_of_row {due : Bool} {depth : Nat} {ts : List Token} (hrow : Row due depth ts)
    {place : Place} {s : Text} (hplace : place.due = due) (hs : Spelled ts s) :
    scanFrom place depth s = .ok ts := by
  induction hrow generalizing place s with
  | opening hrow ih =>
    obtain ⟨r, hdrop, hr⟩ := dropGap_of_spelled_cons ⟨'(', [], rfl, rfl⟩ hs
    cases place with
    | behind => cases hplace
    | operand fresh =>
      rw [scanFrom_opening fresh _ hdrop, ih rfl hr]
      rfl
  | bang hrow ih =>
    obtain ⟨r, hdrop, hr⟩ := dropGap_of_spelled_cons ⟨'!', [], rfl, rfl⟩ hs
    cases place with
    | behind => cases hplace
    | operand fresh =>
      rw [scanFrom_bang fresh _ hdrop, ih rfl hr]
      rfl
  | operand ht hrow ih =>
    obtain ⟨c, u, hcu, hc⟩ := head_of_atom ht
    obtain ⟨r, hdrop, hr⟩ := dropGap_of_spelled_cons ⟨c, u, hcu, isGap_of_isAtomStart hc⟩ hs
    cases place with
    | behind => cases hplace
    | operand fresh =>
      rw [scanFrom_operand ht (hrow.stops hr) fresh _ hdrop, ih rfl hr]
      rfl
  | @operator _ op _ hrow ih =>
    obtain ⟨c, u, hcu, hc, -⟩ := symbol_head op
    obtain ⟨r, hdrop, hr⟩ := dropGap_of_spelled_cons (t := .operator op) ⟨c, u, hcu, hc⟩ hs
    cases place with
    | operand fresh => cases hplace
    | behind =>
      rw [scanFrom_operator (hrow.head_of_due hr) _ hdrop, ih rfl hr]
      rfl
  | closing hrow ih =>
    obtain ⟨r, hdrop, hr⟩ := dropGap_of_spelled_cons ⟨')', [], rfl, rfl⟩ hs
    cases place with
    | operand fresh => cases hplace
    | behind =>
      rw [scanFrom_closing _ hdrop, ih rfl hr]
      rfl
  | done =>
    cases place with
    | operand fresh => cases hplace
    | behind => exact scanFrom_done (spelled_nil_iff.mp hs)

/-- Scanning succeeds with exactly the rows that spell the text. -/
theorem scan_eq_ok_iff {s : Text} {ts : List Token} :
    scan s = .ok ts ↔ Row true 0 ts ∧ Spelled ts s :=
  ⟨row_of_scanFrom, fun ⟨hrow, hs⟩ => scanFrom_of_row hrow rfl hs⟩

end HtmlViews.Condition
