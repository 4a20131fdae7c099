import HtmlViews.Condition.Eval
import HtmlViews.Proofs.Condition.Scanning
import HtmlViews.Proofs.Crash.Slice

/-!
# Reading conditions without crashing

The tokens of a condition are read by the rules that they were found by: quotes and dollar signs are
cut off by their places, and a rule that has no meaning in its place leads to a branch that no input
is meant to reach. The rows of tokens that scanning gives never lead there.

The invariant of the builder is which rows can follow it, by whether an operand is due and how many
parentheses are open (**Condition.Builder.Awaits**). A row from the scanner can follow the empty
builder, and each token leaves a builder that the others can follow
(**Condition.checkedPush_of_row**); so the branches that no input is meant to reach are those of
tokens that cannot stand there. A token with a fault, such as an integer that is too large, is dealt
with like one without until the row has ended, and for this the invariant holds behind a fault, too.

* **Condition.Rule** — the rules that tokens are found by.
* **Condition.checkedLiteral**, **Condition.checkedPrimary** — the operand that a rule found.
* **Condition.checkedPush** — a condition with one more token.
* **Condition.checkedRead_eq**, **Condition.checkedHolds_eq** — reading and evaluating never crash.
-/

namespace HtmlViews.Condition

/-! ## Rules -/

/-- A rule that a token was found by. -/
inductive Rule where
  /-- Decimal digits. -/
  | int
  /-- Decimal digits with a point. -/
  | float
  /-- A text between quotes. -/
  | string
  /-- A word for true or false. -/
  | boolean
  /-- A word for null. -/
  | null
  /-- A name behind a dollar sign. -/
  | variable
  /-- Another word. -/
  | bareword
  /-- A condition between parentheses. -/
  | expr
  /-- A binary operator. -/
  | operator (op : Operator)
  /-- The negation sign. -/
  | not
deriving DecidableEq, Repr

/-- The rule that a token was found by; the parentheses belong to the condition between them. -/
def Token.rule : Token → Rule
  | .integer _ => .int
  | .decimal _ => .float
  | .quoted _ _ => .string
  | .word w =>
    if (truthWords.lookup w).isSome then .boolean
    else if nullWords.contains w then .null else .bareword
  | .variable _ => .variable
  | .operator op => .operator op
  | .bang => .not
  | .opening | .closing => .expr

/-- Where a sign stands beside its operands. -/
inductive Affix where
  /-- Before its only operand. -/
  | before
  /-- Between two operands. -/
  | amid
deriving DecidableEq, Repr

/-- The signs among the rules; the others are those of operands. -/
def Rule.affix? : Rule → Option Affix
  | .operator _ => some .amid
  | .not => some .before
  | _ => none

/-! ## Operands -/

/-- The literal that a rule found, unless it is none that there is. -/
def checkedLiteral (rule : Rule) (t : Text) : Checked (Except ConditionError Expr) :=
  match rule with
  | .int =>
    if fits (integerValue t) then .ok (.ok (.literal (.number (.int (integerValue t)))))
    else .ok (.error (.integerOutOfBounds t))
  | .float =>
    match decimalValue t with
    | some x => .ok (.ok (.literal (.number (.float x))))
    | none => .ok (.error (.invalidFloat t))
  | .string => do
    let body ← t.withoutEnds
    pure (.ok (.literal (.str (String.ofList body))))
  | .boolean => .ok (.ok (.literal (.bool (t.map Char.toLower = "true".toList))))
  | .null => .ok (.ok (.literal .null))
  | .bareword => .ok (.ok (.literal (.str (String.ofList t))))
  | _ => .error .unreachable

/-- The operand that a rule found. -/
def checkedPrimary (rule : Rule) (t : Text) : Checked (Except ConditionError Expr) :=
  match rule with
  | .variable => do
    let name ← t.sliceFrom 1
    pure (.ok (.variable (String.ofList name)))
  | _ => checkedLiteral rule t

/-- The negation sign, when the rule is that of one. -/
def checkedPrefix : Rule → Checked Unit
  | .not => .ok ()
  | _ => .error .unreachable

/-- The operator that a rule found. -/
def checkedInfix : Rule → Checked Operator
  | .operator op => .ok op
  | _ => .error .unreachable

/-- The rule of a condition is not that of a literal. -/
example : checkedPrimary .expr "()".toList = .error .unreachable ∧
    (checkedPrimary .string "\"".toList).toBool = false :=
  ⟨rfl, rfl⟩

/-! ## Grouping -/

/-- A condition with one more token, and the fault of that token if it has one. What is faulty is
taken for null, so that the tokens behind it are read all the same. -/
def checkedPush (b : Builder) (t : Token) : Checked (Option ConditionError × Builder) :=
  match b, t with
  | .due outer d, .opening => .ok (none, .due (d :: outer) .start)
  | .full (d :: outer) chain, .closing => .ok (none, .full outer (d.fill chain.expr))
  | .due outer d, t =>
    match t.rule.affix? with
    | some .before => do
      checkedPrefix t.rule
      pure (none, .due outer { d with bangs := d.bangs + 1 })
    | some .amid => .error .unreachable
    | none => do
      match ← checkedPrimary t.rule t.spelling with
      | .ok e => pure (none, .full outer (d.fill e))
      | .error err => pure (some err, .full outer (d.fill (.literal .null)))
  | .full outer chain, t =>
    match t.rule.affix? with
    | some .amid => do
      let op ← checkedInfix t.rule
      pure (none, .due outer ⟨some (chain, op), 0⟩)
    | _ => .error .unreachable

/-- The condition, which has to be complete. -/
def checkedFinish : Builder → Checked Expr
  | .full [] chain => .ok chain.expr
  | _ => .error .missing

/-- The condition that a row of tokens makes behind what was built, unless there was a fault. -/
def checkedTokens (failed : Option ConditionError) :
    Builder → List Token → Checked (Except ConditionError Expr)
  | b, [] => do
    let e ← checkedFinish b
    pure (failed.elim (.ok e) .error)
  | b, t :: ts => do
    let (fault, b) ← checkedPush b t
    checkedTokens (failed <|> fault) b ts

/-- The condition that a text spells. -/
def checkedRead (s : Text) : Checked (Except ConditionError Expr) :=
  match scan s with
  | .error e => .ok (.error (.unreadable (.ofSyntaxError s e)))
  | .ok tokens => checkedTokens none .start tokens

/-- Whether the condition that a text spells is true in a context. -/
def checkedHolds (s : Text) (context : Context) : Checked (Except ConditionError Bool) := do
  let read ← checkedRead s
  pure do
    let e ← read
    let v ← e.eval context
    pure v.truthy

/-! ## No token crashes -/

/-- A word for true or false is true if it is spelled like `true` without regard to case. -/
theorem toLower_of_lookup {w : Text} {b : Bool} (h : truthWords.lookup w = some b) :
    decide (w.map Char.toLower = "true".toList) = b := by
  obtain ⟨l, r, hl, -⟩ := List.lookup_eq_some_iff.mp h
  have hmem : (w, b) ∈ truthWords := by
    rw [hl]
    exact List.mem_append_right l List.mem_cons_self
  have hall : ∀ e ∈ truthWords, decide (e.1.map Char.toLower = "true".toList) = e.2 := by
    decide
  exact hall _ hmem

/-- The rule that a word is read by follows from which word it is. -/
theorem rule_word (w : Text) :
    (Token.word w).rule =
      if (truthWords.lookup w).isSome then .boolean
      else if nullWords.contains w then .null else .bareword :=
  rfl

/-- The rules of words lead to the values of words. -/
theorem checkedLiteral_word (w : Text) :
    checkedLiteral (Token.word w).rule w = .ok (.ok (.literal (wordValue w))) := by
  rw [rule_word, wordValue]
  cases hlookup : truthWords.lookup w with
  | some b =>
    rw [Option.isSome_some, if_pos rfl, checkedLiteral, toLower_of_lookup hlookup]
  | none =>
    rw [Option.isSome_none, if_neg Bool.false_ne_true]
    by_cases hnull : nullWords.contains w = true
    · rw [if_pos hnull, if_pos hnull]
      rfl
    · rw [if_neg hnull, if_neg hnull]
      rfl

/-- The operand that a token stands for is read by its rule, which is not that of a sign. -/
theorem checkedPrimary_of_atom {t : Token} (ht : t.Atom) :
    t.rule.affix? = none ∧
      ∃ r, checkedPrimary t.rule t.spelling = .ok r ∧ t.operandValue? = r.map some := by
  cases ht with
  | @integer sign ds =>
    refine ⟨rfl, ?_⟩
    show ∃ r, checkedLiteral .int (sign ++ ds) = _ ∧ _
    rw [checkedLiteral, Token.operandValue?]
    by_cases hfits : fits (integerValue (sign ++ ds)) = true
    · rw [if_pos hfits, if_pos hfits]
      exact ⟨.ok _, rfl, rfl⟩
    · rw [if_neg hfits, if_neg hfits]
      exact ⟨.error _, rfl, rfl⟩
  | @decimal sign ds fs =>
    refine ⟨rfl, ?_⟩
    show ∃ r, checkedLiteral .float (sign ++ ds ++ '.' :: fs) = _ ∧ _
    rw [checkedLiteral, Token.operandValue?]
    cases decimalValue (sign ++ ds ++ '.' :: fs) with
    | some x => exact ⟨.ok _, rfl, rfl⟩
    | none => exact ⟨.error _, rfl, rfl⟩
  | @quoted q body hq =>
    refine ⟨rfl, .ok (.literal (.str (String.ofList body))), ?_, rfl⟩
    show checkedLiteral .string (q :: body ++ [q]) = _
    have hsize := Text.utf8Size_of_isQuote hq
    rw [checkedLiteral, Text.withoutEnds_eq hsize hsize]
    rfl
  | @word w =>
    have hrule : (Token.word w).rule ≠ .variable ∧ (Token.word w).rule.affix? = none := by
      rw [rule_word]
      split
      · exact ⟨nofun, rfl⟩
      · split <;> exact ⟨nofun, rfl⟩
    refine ⟨hrule.2, .ok (.literal (wordValue w)), ?_, rfl⟩
    rw [Token.spelling, checkedPrimary, checkedLiteral_word]
    exact hrule.1
  | @name name =>
    refine ⟨rfl, .ok (.variable (String.ofList name)), ?_, rfl⟩
    have hslice : Text.sliceFrom ('$' :: name) 1 = .ok name :=
      Text.sliceFrom_append ['$'] name
    show (do let name ← Text.sliceFrom ('$' :: name) 1; pure _) = _
    rw [hslice]
    rfl

/-! ## No condition crashes -/

/-- The builders that a row of tokens can follow, by whether an operand is due and by the number of
parentheses that are open. -/
inductive Builder.Awaits : (due : Bool) → (depth : Nat) → Builder → Prop
  | due (outer : List Due) (d : Due) : Awaits true outer.length (.due outer d)
  | full (outer : List Due) (chain : Chain) : Awaits false outer.length (.full outer chain)

/-- An operand that is due completes what stands before it; where it has a fault, null does. -/
theorem checkedPush_of_atom {t : Token} (ht : t.Atom) (outer : List Due) (d : Due) :
    ∃ fault chain, checkedPush (.due outer d) t = .ok (fault, .full outer chain) ∧
      (Builder.due outer d).push t = fault.elim (.ok (.full outer chain)) .error := by
  obtain ⟨haffix, r, hr, hvalue⟩ := checkedPrimary_of_atom ht
  have hopening : t ≠ .opening := by
    rintro rfl
    cases ht
  cases r with
  | ok e =>
    refine ⟨none, d.fill e, ?_, Builder.push_of_value hvalue outer d⟩
    rw [checkedPush, haffix, hr]
    · rfl
    · exact hopening
  | error err =>
    refine ⟨some err, d.fill (.literal .null), ?_, Builder.push_of_fault hvalue outer d⟩
    rw [checkedPush, haffix, hr]
    · rfl
    · exact hopening

/-- The first token of a row is taken in, and the others can follow. -/
theorem checkedPush_of_row {due : Bool} {depth : Nat} {t : Token} {ts : List Token} {b : Builder}
    (hrow : Row due depth (t :: ts)) (hb : b.Awaits due depth) :
    ∃ fault b', checkedPush b t = .ok (fault, b') ∧ b.push t = fault.elim (.ok b') .error ∧
      ∃ due' depth', Row due' depth' ts ∧ b'.Awaits due' depth' := by
  -- A token that the row allows meets the builder in the state that awaits it, so none of the ways
  -- out that must not be reached is taken.
  cases hrow with
  | opening hrow =>
    cases hb with
    | due outer d => exact ⟨none, _, rfl, rfl, _, _, hrow, .due (d :: outer) .start⟩
  | bang hrow =>
    cases hb with
    | due outer d => exact ⟨none, _, rfl, rfl, _, _, hrow, .due outer _⟩
  | operand ht hrow =>
    cases hb with
    | due outer d =>
      obtain ⟨fault, chain, hchecked, hpush⟩ := checkedPush_of_atom ht outer d
      exact ⟨fault, _, hchecked, hpush, _, _, hrow, .full outer chain⟩
  | @operator _ op _ hrow =>
    cases hb with
    | full outer chain =>
      refine ⟨none, _, ?_, ?_, _, _, hrow, .due outer ⟨some (chain, op), 0⟩⟩
      · cases outer <;> rfl
      · cases outer <;> rfl
  | @closing depth _ hrow =>
    generalize hdepth : depth + 1 = n at hb
    cases hb with
    | full outer chain =>
      cases outer with
      | nil => cases hdepth
      | cons d outer =>
        obtain rfl := Nat.succ.inj hdepth
        exact ⟨none, _, rfl, rfl, _, _, hrow, .full outer _⟩

/-- A row of tokens never crashes, also behind a fault, and makes the condition that it makes. -/
theorem checkedTokens_of_row {due : Bool} {depth : Nat} {ts : List Token} {b : Builder}
    (hrow : Row due depth ts) (hb : b.Awaits due depth) :
    (∀ err, checkedTokens (some err) b ts = .ok (.error err)) ∧
      ∃ r, checkedTokens none b ts = .ok r ∧
        (ts.foldlM Builder.push b).map Builder.finish? = r.map some := by
  induction ts generalizing due depth b with
  | nil =>
    cases hrow
    generalize hdepth : 0 = n at hb
    cases hb with
    | full outer chain =>
      obtain rfl := List.length_eq_zero_iff.mp hdepth.symm
      exact ⟨fun err => rfl, .ok chain.expr, rfl, rfl⟩
  | cons t ts ih =>
    obtain ⟨fault, b', hchecked, hpush, due', depth', hrow', hb'⟩ := checkedPush_of_row hrow hb
    obtain ⟨hfailed, r, hr, hfold⟩ := ih hrow' hb'
    have hstep : ∀ failed, checkedTokens failed b (t :: ts) =
        checkedTokens (failed <|> fault) b' ts := by
      intro failed
      rw [checkedTokens, hchecked]
      rfl
    refine ⟨fun err => (hstep _).trans (hfailed err), ?_⟩
    rw [hstep, List.foldlM_cons, hpush]
    cases fault with
    | none => exact ⟨r, hr, hfold⟩
    | some err => exact ⟨.error err, hfailed err, rfl⟩

/-- Reading a condition never crashes. -/
theorem checkedRead_eq (s : Text) : checkedRead s = .ok (read s) := by
  unfold checkedRead read
  cases hscan : scan s with
  | error e => rfl
  | ok ts =>
    obtain ⟨-, r, hr, hfold⟩ :=
      checkedTokens_of_row (scan_eq_ok_iff.mp hscan).1 (.due [] .start)
    have hof : Expr.ofTokens ts = r.map some := hfold
    show checkedTokens none .start ts = _
    rw [Builder.start, hr]
    simp only [hof]
    cases r <;> rfl

/-- Evaluating a condition never crashes. -/
theorem checkedHolds_eq (s : Text) (context : Context) :
    checkedHolds s context = .ok (holds s context) := by
  unfold checkedHolds holds value
  rw [checkedRead_eq]
  cases read s <;> rfl

end HtmlViews.Condition
