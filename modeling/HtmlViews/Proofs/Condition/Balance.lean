import HtmlViews.Proofs.Condition.Reading
import HtmlViews.Proofs.Text.Closing

/-!
# Accepted conditions are balanced

The search for the end of an argument and the reading of conditions agree on quotes and parentheses:
whatever is read as a condition closes all its strings and parentheses. So a condition can be put
between parentheses, as the argument of a directive or inside of a longer condition.

The proof goes along the grammar: every token is balanced by its characters, parentheses come in
pairs around balanced texts, and balanced texts one behind the other are balanced
(**Text.Balanced.append**). The spelling of a condition has no unique form, so it is taken apart at
the places that the grammar has (**Spelled.of_append**), and each part is balanced by the hypothesis
of the induction.

* **Spelled.of_append**, **Spelled.append** — the spelling of two rows of tokens one behind the
  other.
* **Expr.Grouped.balanced** — every spelling of a condition is balanced.
* **balanced_of_read** — every accepted text is balanced.
* **closingOffset?_of_read** — between parentheses it ends where its parenthesis is closed.
-/

namespace HtmlViews.Condition

/-! ## Tokens -/

/-- The characters of names are neither quotes nor parentheses. -/
theorem isNeutral_of_isNamePart {c : Char} (hc : isNamePart c = true) : isNeutral c = true := by
  have hne : ∀ d, isNamePart d = false → c ≠ d := fun _ => ne_of_class hc
  simp [isNeutral, isQuote, hne '\'' rfl, hne '"' rfl, hne '(' rfl, hne ')' rfl]

/-- Names are balanced. -/
theorem IsName.balanced {w : Text} (hw : IsName w) : w.Balanced := by
  obtain ⟨c, s, rfl, hc, hs⟩ := hw
  apply Text.Balanced.of_neutral
  rw [List.forall_mem_cons]
  refine ⟨isNeutral_of_isNamePart ?_, fun d hd => isNeutral_of_isNamePart (hs d hd)⟩
  rw [isNamePart, hc, Bool.true_or]

/-- Digits are balanced. -/
theorem IsDigits.balanced {ds : Text} (hds : IsDigits ds) : ds.Balanced :=
  .of_neutral fun d hd => isNeutral_of_isNamePart (isNamePart_of_isDigit (hds.2 d hd))

/-- Signs are balanced. -/
theorem IsSign.balanced {sign : Text} (h : IsSign sign) : sign.Balanced := by
  rcases h with rfl | rfl
  · exact .nil
  · exact .neutral rfl

/-- Blanks between tokens are balanced. -/
theorem IsGap.balanced {gap : Text} (h : IsGap gap) : gap.Balanced := by
  apply Text.Balanced.of_neutral
  intro c hc
  have hc := h c hc
  simp only [isGap, Bool.or_eq_true, decide_eq_true_eq] at hc
  rcases hc with ((rfl | rfl) | rfl) | rfl <;> rfl

/-- Operators are balanced. -/
theorem balanced_symbol (op : Operator) : op.symbol.Balanced := by
  apply Text.Balanced.of_neutral
  cases op <;> exact List.all_eq_true.mp (by decide)

/-- Atoms are balanced. -/
theorem Token.Atom.balanced {t : Token} (ht : t.Atom) : t.spelling.Balanced := by
  cases ht with
  | integer hsign hds => exact hsign.balanced.append hds.balanced
  | decimal hsign hds hfs =>
    have hpoint : Text.Balanced ['.'] := .neutral rfl
    exact (hsign.balanced.append hds.balanced).append (hpoint.append hfs.balanced)
  | quoted hq hbody => exact .quoted hq hbody
  | word hw => exact hw.balanced
  | name hname =>
    have hdollar : Text.Balanced ['$'] := .neutral rfl
    exact hdollar.append hname.balanced

/-! ## Rows of tokens -/

/-- What spells two rows of tokens in a row has a part for each of them. -/
theorem Spelled.of_append {ts us : List Token} {s : Text} (h : Spelled (ts ++ us) s) :
    ∃ front back, s = front ++ back ∧ Spelled ts front ∧ Spelled us back := by
  have hnil : IsGap [] := by
    intro c hc
    cases hc
  induction ts generalizing s with
  | nil => exact ⟨[], s, rfl, .nil hnil, h⟩
  | cons t ts ih =>
    cases h with
    | @cons gap r _ _ hgap hr =>
      obtain ⟨front, back, rfl, hfront, hback⟩ := ih hr
      refine ⟨gap ++ (t.spelling ++ front), back, ?_, .cons hgap hfront, hback⟩
      simp only [List.append_assoc]

/-- Blanks may stand in front of a row of tokens. -/
theorem Spelled.gap_append {gap s : Text} {ts : List Token} (hgap : IsGap gap)
    (h : Spelled ts s) : Spelled ts (gap ++ s) := by
  have happend : ∀ {gap' : Text}, IsGap gap' → IsGap (gap ++ gap') :=
    fun hgap' c hc => (List.mem_append.mp hc).elim (hgap c) (hgap' c)
  cases h with
  | nil hgap' => exact .nil (happend hgap')
  | cons hgap' hr =>
    rw [← List.append_assoc]
    exact .cons (happend hgap') hr

/-- Spellings one behind the other spell the tokens of both. -/
theorem Spelled.append {ts us : List Token} {s t : Text} (hs : Spelled ts s) (ht : Spelled us t) :
    Spelled (ts ++ us) (s ++ t) := by
  induction hs with
  | nil hgap => exact ht.gap_append hgap
  | cons hgap _ ih =>
    rw [List.append_assoc, List.append_assoc]
    exact .cons hgap ih

/-- Tokens behind each other are balanced together if each of them is. -/
theorem Spelled.balanced {ts : List Token} {s : Text} (hs : Spelled ts s)
    (hts : ∀ t ∈ ts, t.spelling.Balanced) : s.Balanced := by
  induction hs with
  | nil hgap => exact hgap.balanced
  | cons hgap _ ih =>
    obtain ⟨ht, hts⟩ := List.forall_mem_cons.mp hts
    exact hgap.balanced.append (ht.append (ih hts))

/-- Every spelling of a condition is balanced. -/
theorem Expr.Grouped.balanced {level : Nat} {e : Expr} {ts : List Token} (h : e.Grouped level ts)
    {s : Text} (hs : Spelled ts s) : s.Balanced := by
  induction h generalizing s with
  | operand ht _ =>
    apply hs.balanced
    intro t' ht'
    rw [List.mem_singleton.mp ht']
    exact ht.balanced
  | not _ ih =>
    cases hs with
    | cons hgap hr =>
      have hbang : Token.bang.spelling.Balanced := .neutral rfl
      exact hgap.balanced.append (hbang.append (ih hr))
  | @binary _ op _ _ _ _ _ _ _ ihl ihr =>
    obtain ⟨front, back, rfl, hfront, hback⟩ := hs.of_append
    cases hback with
    | cons hgap hr =>
      have hop : (Token.operator op).spelling.Balanced := balanced_symbol op
      exact (ihl hfront).append (hgap.balanced.append (hop.append (ihr hr)))
  | parenthesised _ ih =>
    cases hs with
    | @cons gap r _ _ hgap hr =>
      obtain ⟨front, back, rfl, hfront, hback⟩ := hr.of_append
      cases hback with
      | @cons gap' r' _ _ hgap' hr' =>
        cases hr' with
        | @nil gap'' hgap'' =>
          have hinside := ((ih hfront).append hgap'.balanced).parenthesised
          have hbalanced := (hgap.balanced.append hinside).append hgap''.balanced
          simpa [Token.spelling] using hbalanced

/-- Every text that is accepted as a condition is balanced. -/
theorem balanced_of_read {s : Text} {e : Expr} (h : read s = .ok e) : s.Balanced := by
  obtain ⟨ts, hts, hs, -⟩ := exists_row_of_read h
  exact hts.balanced hs

/-- **A condition between parentheses is the whole argument**: whatever is accepted as a condition,
and whatever follows, the first parenthesis is closed by the one behind the condition. -/
theorem closingOffset?_of_read {t : Text} {e : Expr} (h : read t = .ok e) (s : Text) :
    Text.closingOffset? ('(' :: (t ++ ')' :: s)) 0 = some (1 + t.bytes.length) := by
  have hclosed := (balanced_of_read h).closingOffset? [] s
  rwa [List.nil_append, Text.utf8Length_nil, Nat.zero_add, ← Text.length_bytes] at hclosed

/-- A parenthesis and the other quote stand in the strings, and a quote that is never closed stands
behind the argument. -/
theorem closingOffset?_of_read_strings :
    (∃ e, read "!($a == \")é'\") || 'f('".toList = .ok e) ∧
      Text.closingOffset? ('(' :: ("!($a == \")é'\") || 'f('".toList ++ ')' :: " '(".toList)) 0 =
        some 24 := by
  have hscan : scan "!($a == \")é'\") || 'f('".toList =
      .ok [.bang, .opening, .variable ['a'], .operator .equal, .quoted '"' [')', 'é', '\''],
        .closing, .operator .or, .quoted '\'' ['f', '(']] := by
    cbv
  have hread : read "!($a == \")é'\") || 'f('".toList =
      .ok (.binary .or (.not (.binary .equal (.variable "a") (.literal (.str ")é'"))))
        (.literal (.str "f("))) :=
    read_eq_ok_iff.mpr ⟨_, hscan, rfl⟩
  exact ⟨⟨_, hread⟩, closingOffset?_of_read hread " '(".toList⟩

end HtmlViews.Condition
