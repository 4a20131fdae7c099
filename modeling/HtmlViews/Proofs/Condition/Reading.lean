import HtmlViews.Proofs.Condition.Grouping

/-!
# Reading conditions back

A condition that can be written is read back from each of its texts. Nothing in this depends on how
the text was put together: any gaps, any parentheses beyond the necessary ones, any quotes that fit
and any spelling of a keyword are read alike.

Reading is scanning and then grouping, and each of the two is exact: scanning gives just the rows
that a text spells (**scan_eq_ok_iff**), and grouping gives a condition just for the rows of the
grammar (**ofTokens_of_grouped**, **grouped_of_ofTokens**). So reading is exact, and a text has one
condition at most, since reading is a function.

What is left is that a condition which can be written has a text. It has tokens in every place, by
induction on the condition (**Expr.Writable.exists_grouped**): where it binds less tightly than its
place asks for, parentheses are put around it. And any row of tokens has a text, with one blank
between two tokens.

* **read_of_rendering** — every text of a condition is read as that condition.
* **Expr.Rendering.unique** — a text is a text of one condition at most.
* **exists_row_of_read** — every text that is read is cut into the tokens of its condition.
* **integerValue_integerText** — the spelling of an integer is read as that integer.
* **Expr.Writable.read_renderings** — a condition that can be written has a text, and is read back
  from all of them.
-/

namespace HtmlViews.Condition

/-- Reading succeeds when scanning and grouping do. -/
theorem read_eq_ok_iff {s : Text} {e : Expr} :
    read s = .ok e ↔ ∃ ts, scan s = .ok ts ∧ Expr.ofTokens ts = .ok (some e) := by
  rw [read]
  cases scan s with
  | error err => simp
  | ok ts =>
    simp only [Except.ok.injEq, exists_eq_left']
    cases Expr.ofTokens ts with
    | error err => simp [bind, Except.bind]
    | ok r => cases r <;> simp [bind, Except.bind]

/-- Every text of a condition is read as that condition. -/
theorem read_of_rendering {s : Text} {e : Expr} (h : e.Rendering s) : read s = .ok e := by
  obtain ⟨ts, hts, hs⟩ := h
  have hrow : Row true 0 ts := by
    have := Row.of_grouped hts .done
    rwa [List.append_nil] at this
  exact read_eq_ok_iff.mpr ⟨ts, scan_eq_ok_iff.mpr ⟨hrow, hs⟩, ofTokens_of_grouped hts⟩

/-- No text is a text of two conditions. -/
theorem Expr.Rendering.unique {s : Text} {e e' : Expr} (h : e.Rendering s) (h' : e'.Rendering s) :
    e = e' := by
  have hread := read_of_rendering h
  rw [read_of_rendering h'] at hread
  exact (Except.ok.inj hread).symm

/-- An accepted text is cut into a row of tokens that is grouped as the grammar says. -/
theorem exists_row_of_read {s : Text} {e : Expr} (h : read s = .ok e) :
    ∃ ts, e.Grouped 0 ts ∧ Spelled ts s ∧ Row true 0 ts := by
  obtain ⟨ts, hscan, hof⟩ := read_eq_ok_iff.mp h
  obtain ⟨hrow, hs⟩ := scan_eq_ok_iff.mp hscan
  obtain ⟨e', he', hts⟩ := grouped_of_ofTokens hrow hof
  obtain rfl := Option.some.inj he'
  exact ⟨ts, hts, hs, hrow⟩

/-! ## Conditions that can be written -/

/-- A number is written in digits. -/
theorem isDigits_decimalText (n : Nat) : IsDigits (decimalText n) := by
  refine ⟨Nat.toDigits_ne_nil, ?_⟩
  intro d hd
  have := Nat.isDigit_of_mem_toDigits (by decide) (by decide) hd
  simpa [isDigit, Char.isDigit, Char.le_def] using this

/-- The digits of a number have its value. -/
theorem digitsValue_decimalText (n : Nat) : digitsValue (decimalText n) = n :=
  Nat.ofDigitChars_ten_toDigits

/-- The value of digits behind a sign. -/
theorem integerValue_append {sign ds : Text} (hsign : IsSign sign) (hds : IsDigits ds) :
    integerValue (sign ++ ds) =
      if sign = [] then (digitsValue ds : Int) else -(digitsValue ds : Int) := by
  have := minus_append_of_digits (s := []) hsign hds
  rw [List.append_nil] at this
  rw [integerValue, this]

/-- The spelling of an integer is the token of that integer. -/
theorem atom_integerText (i : Int) : (Token.integer (integerText i)).Atom := by
  cases i with
  | ofNat n => exact .integer (.inl rfl) (isDigits_decimalText n)
  | negSucc n => exact .integer (.inr rfl) (isDigits_decimalText (n + 1))

/-- A written integer has its own value. -/
theorem integerValue_integerText (i : Int) : integerValue (integerText i) = i := by
  cases i with
  | ofNat n =>
    have hvalue := integerValue_append (.inl rfl) (isDigits_decimalText n)
    rw [if_pos rfl, digitsValue_decimalText] at hvalue
    exact hvalue
  | negSucc n =>
    have hvalue := integerValue_append (.inr rfl) (isDigits_decimalText (n + 1))
    rw [if_neg (by decide), digitsValue_decimalText] at hvalue
    exact hvalue

/-- Any row of tokens has a text. -/
theorem exists_spelled (ts : List Token) : ∃ s, Spelled ts s := by
  have hgap : IsGap [] := by
    intro c hc
    exact absurd hc List.not_mem_nil
  induction ts with
  | nil => exact ⟨[], .nil hgap⟩
  | cons t ts ih =>
    obtain ⟨s, hs⟩ := ih
    exact ⟨[] ++ (t.spelling ++ s), .cons hgap hs⟩

/-- A name is a character that names begin with, and more characters of names. -/
theorem isName_cons {c : Char} {s : Text} (hc : isNameStart c) (hs : s.all isNamePart) :
    IsName (c :: s) :=
  ⟨c, s, rfl, hc, List.all_eq_true.mp hs⟩

/-- The words for true and false are names. -/
theorem exists_truth (b : Bool) : ∃ w, IsName w ∧ (w, b) ∈ truthWords := by
  cases b with
  | false => exact ⟨['f', 'a', 'l', 's', 'e'], isName_cons rfl rfl, by decide⟩
  | true => exact ⟨['t', 'r', 'u', 'e'], isName_cons rfl rfl, by decide⟩

/-- A condition that can be written has tokens in every place. -/
theorem Expr.Writable.exists_grouped {e : Expr} (he : e.Writable) :
    ∃ ts, e.Grouped tightest ts := by
  -- Parentheses around every operator make a row of tokens that can stand anywhere.
  induction he with
  | @integer i hlow hhigh =>
    exact ⟨_, .operand (atom_integerText i) (.integer (integerValue_integerText i) hlow hhigh)⟩
  | bool b =>
    obtain ⟨w, hname, hw⟩ := exists_truth b
    exact ⟨_, .operand (.word hname) (.truth hw)⟩
  | null =>
    have hname : IsName ['n', 'u', 'l', 'l'] := isName_cons rfl rfl
    exact ⟨_, .operand (.word hname) (.null (by decide))⟩
  | @str s hs =>
    rw [← String.ofList_toList (s := s)]
    rcases hs with hs | hs
    · exact ⟨_, .operand (.quoted (q := '"') rfl hs) .quoted⟩
    · exact ⟨_, .operand (.quoted (q := '\'') rfl hs) .quoted⟩
  | @name name hname =>
    rw [← String.ofList_toList (s := name)]
    exact ⟨_, .operand (.name hname) .name⟩
  | not _ ih =>
    obtain ⟨ts, hts⟩ := ih
    exact ⟨_, .not hts⟩
  | @binary op _ _ _ _ ihl ihr =>
    obtain ⟨ts, hts⟩ := ihl
    obtain ⟨us, hus⟩ := ihr
    have hop := level_lt_tightest op
    exact ⟨_, .parenthesised
      (.binary (Nat.zero_le _) (hts.mono (Nat.le_of_lt hop)) (hus.mono hop))⟩

/-- A condition that can be written has a text, and from every text of it, with any parentheses
beyond the necessary ones, any quotes that fit, any spelling of keywords and any gaps, it is read
back. -/
theorem Expr.Writable.read_renderings {e : Expr} (he : e.Writable) :
    (∃ s, e.Rendering s) ∧ ∀ s, e.Rendering s → read s = .ok e := by
  obtain ⟨ts, hts⟩ := he.exists_grouped
  obtain ⟨s, hs⟩ := exists_spelled ts
  refine ⟨⟨s, ts, hts.mono (Nat.zero_le _), hs⟩, ?_⟩
  intro t ht
  exact read_of_rendering ht

/-- The parentheses are necessary here, since `||` binds less tightly than `&&`. -/
theorem read_renderings_conjunction :
    read "!$a && ( $b || -7 )".toList =
      .ok (.binary .and (.not (.variable "a"))
        (.binary .or (.variable "b") (.literal (.number (.int (-7)))))) := by
  have hscan : scan "!$a && ( $b || -7 )".toList =
      .ok ([.bang] ++ [.variable ['a']] ++ .operator .and ::
        (.opening :: ([.variable ['b']] ++ .operator .or :: [.integer ['-', '7']]) ++
          [.closing])) := by
    cbv
  have hname : ∀ c, isNameStart c → IsName [c] := by
    intro c hc
    exact isName_cons hc rfl
  refine (Expr.Writable.read_renderings ?_).2 _ ⟨_, ?_, (scan_eq_ok_iff.mp hscan).2⟩
  · exact .binary (.not (.name (hname 'a' rfl)))
      (.binary (.name (hname 'b' rfl)) (.integer (by decide) (by decide)))
  · have hseven : (Token.integer (['-'] ++ ['7'])).Atom :=
      .integer (.inr rfl) ⟨by decide, List.all_eq_true.mp rfl⟩
    refine .binary (by decide) (.not (.operand (.name (hname 'a' rfl)) .name)) (.parenthesised ?_)
    exact .binary (by decide) (.operand (.name (hname 'b' rfl)) .name)
      (.operand hseven (.integer rfl (by decide) (by decide)))

end HtmlViews.Condition
