import HtmlViews.Proofs.Condition.Truth
import HtmlViews.Proofs.Variable.Placeholder

/-!
# Names of variables

A name is read by three readers: between braces and, in a switch, behind a dollar sign it is any
word; behind a dollar sign in a condition it is a word of ASCII letters, digits and underscores that
does not begin with a digit. Where a condition reads a name at all, it is the same name as
elsewhere: any other word is refused as a whole, and not cut where the reading stops.

Which names a condition knows is said by characters (**Condition.IsName**). For a word that is such
a name, all three readers find the whole of it. For any other word, the reader of conditions either
does not begin or stops inside of the word; and what follows there is a character of words, which
begins neither a gap nor an operator nor anything else that can stand behind an operand. So the
condition is refused at that place (**Condition.nameFault**), and never read with a part of the word
as its name.

* **Condition.nameFault** — where the reading of a word stops that is no name in conditions.
* **Condition.scan_dollar** — the tokens of a dollar sign and a word.
* **Condition.read_of_isName**, **Condition.read_of_not_isName** — what a condition makes of them.
* **Variable.name_agrees** — what a name stands for in all directives.
-/

namespace HtmlViews

namespace Condition

/-! ## Words behind a dollar sign -/

/-- Where the reading of a dollar sign and a word stops, if the word is no name: before the sign, if
no name begins behind it, and otherwise behind the name that the word begins with. -/
def nameFault (w : Text) : SyntaxError :=
  match name? w with
  | none => ⟨'$' :: w, .expression⟩
  | some (_, r) => ⟨r, .operatorOrEnd⟩

/-- A name is read up to its end. -/
theorem name?_eq_some_self_iff {w : Text} : name? w = some (w, []) ↔ IsName w := by
  constructor
  · exact isName_of_name?
  · intro hw
    have hstops : Stops [] := by
      rintro c ⟨⟩
    have hread := name?_append hw hstops
    rwa [List.append_nil] at hread

/-- No gap stands in a word. -/
theorem dropGap_of_isWord {c : Char} (hc : isWord c = true) (s : Text) :
    dropGap (c :: s) = c :: s := by
  have hgap : isGap c = false := by
    by_contra h
    simp only [isGap, Bool.not_eq_false, Bool.or_eq_true, decide_eq_true_eq] at h
    have hblank : isBlank c = true := by
      rcases h with ((rfl | rfl) | rfl) | rfl <;> decide
    rw [isWord_of_isBlank hblank] at hc
    cases hc
  exact List.dropWhile_cons_of_neg (Bool.eq_false_iff.mp hgap)

/-- No operator begins with the character of a word. -/
theorem operator?_of_isWord {c : Char} (hc : isWord c = true) (s : Text) :
    operator? (c :: s) = none := by
  have hsign : ∀ op : Operator, ∃ d, op.symbol.head? = some d ∧ isWord d = false := by
    intro op
    cases op <;> exact ⟨_, rfl, by decide +kernel⟩
  apply List.findSome?_eq_none_iff.mpr
  intro op _
  obtain ⟨d, hhead, hd⟩ := hsign op
  have hne : c ≠ d := by
    rintro rfl
    rw [hd] at hc
    cases hc
  rw [Text.after?_cons_of_ne hhead hne, Option.map_none]

/-- Behind an operand, a condition does not go on with a word. -/
theorem scanFrom_behind_of_isWord {c : Char} (hc : isWord c = true) (s : Text) :
    scanFrom .behind 0 (c :: s) = .error ⟨c :: s, .operatorOrEnd⟩ := by
  conv => lhs; rw [scanFrom, dropGap_of_isWord hc, operator?_of_isWord hc]

/-- Behind a dollar sign a condition goes on with a name, if there is one. -/
theorem scan_dollar (w : Text) :
    scan ('$' :: w) = (name? w).elim (.error ⟨'$' :: w, .expression⟩) fun found =>
      (scanFrom .behind 0 found.2).map (.variable found.1 :: ·) := by
  have hdrop : dropGap ('$' :: w) = '$' :: w := rfl
  have hoperand : operand? ('$' :: w) =
      (name? w).map fun found => (.variable found.1, found.2) := by
    simp [operand?]
  rw [scan, scanFrom]
  split
  · rename_i hopening
    exact absurd (hdrop.symm.trans hopening) (by simp)
  · rename_i hbang
    exact absurd (hdrop.symm.trans hbang) (by simp)
  · rw [hdrop, hoperand]
    cases name? w <;> rfl

/-- A dollar sign and a name are the variable of that name. -/
theorem read_of_isName {w : Text} (hw : IsName w) :
    read ('$' :: w) = .ok (.variable (String.ofList w)) := by
  have hscan : scan ('$' :: w) = .ok [.variable w] := by
    rw [scan_dollar, name?_eq_some_self_iff.mpr hw, Option.elim_some, scanFrom_done rfl]
    rfl
  exact read_eq_ok_iff.mpr ⟨_, hscan, rfl⟩

/-- A dollar sign and a word that is no name are no condition, and nothing that the word begins with
is taken for the name. -/
theorem read_of_not_isName {k : Word} (hk : ¬ IsName k.text) :
    read ('$' :: k.text) =
      .error (.unreadable (.ofSyntaxError ('$' :: k.text) (nameFault k.text))) := by
  have hscan : scan ('$' :: k.text) = .error (nameFault k.text) := by
    rw [scan_dollar, nameFault]
    cases hname : name? k.text with
    | none => rfl
    | some found =>
      obtain ⟨name, r⟩ := found
      have hsplit := (eq_of_name? hname).1
      cases r with
      | nil =>
        rw [List.append_nil] at hsplit
        exact absurd (hsplit ▸ isName_of_name? hname) hk
      | cons c r =>
        have hc : isWord c = true := by
          apply k.isWord_text
          rw [hsplit]
          exact List.mem_append_right _ List.mem_cons_self
        rw [Option.elim_some, scanFrom_behind_of_isWord hc]
        rfl
  rw [read, hscan]

/-- A condition that is a name says whether the value under the name counts as true. -/
theorem holds_of_isName {w : Text} (hw : IsName w) {context : Context} {v : Value}
    (hvalue : context.find? (String.ofList w) = some v) :
    holds ('$' :: w) context = .ok v.truthy := by
  rw [holds_of_read (read_of_isName hw), Expr.truth, Expr.eval, hvalue]
  rfl

/-- A word that is no name has no truth value in any context. -/
theorem holds_of_not_isName {k : Word} (hk : ¬ IsName k.text) (context : Context) :
    holds ('$' :: k.text) context =
      .error (.unreadable (.ofSyntaxError ('$' :: k.text) (nameFault k.text))) := by
  rw [holds, value, read_of_not_isName hk]
  rfl

end Condition

namespace Variable

variable {context : Context} {k : Word} {v : Value}

/-- Where a whole text is read as a name, it is replaced by the value of the name. -/
theorem expand_of_read {reader : Reader Text} {s : Text} (hread : reader.read s = some (k.text, []))
    (hvalue : context.find? (String.ofList k.text) = some v) (absent : Text) :
    Text.expand reader (textOf context absent) s = v.render := by
  have htext : textOf context absent k.text = v.render := by
    rw [textOf, hvalue]
  rw [Text.expand, Text.pieces_of_some hread, Text.pieces_nil, List.flatMap_singleton]
  exact htext

/-- **A name stands for the same value wherever it is read**: between braces, with any blanks around
it, and behind a dollar sign in a switch it stands for the text of the value, whatever word it is;
behind a dollar sign in a condition for its truth, if it is a name of conditions. Any other word is
a fault of the condition, at its first character that belongs to no such name. -/
theorem name_agrees (hvalue : context.find? (String.ofList k.text) = some v) :
    (∀ m : Marker k.text, substitute context m.text = v.render) ∧
      substituteSigils context ('$' :: k.text) = v.render ∧
      (Condition.IsName k.text → Condition.holds ('$' :: k.text) context = .ok v.truthy) ∧
      (¬ Condition.IsName k.text → Condition.holds ('$' :: k.text) context =
        .error (.unreadable (.ofSyntaxError ('$' :: k.text) (Condition.nameFault k.text)))) := by
  refine ⟨fun m => expand_of_read ?_ hvalue _, expand_of_read ?_ hvalue _, ?_, ?_⟩
  · have hplaceholder := m.1.read_text []
    rwa [List.append_nil, m.2] at hplaceholder
  · have hword := k.word?_append (s := []) (by rintro c ⟨⟩)
    rwa [List.append_nil] at hword
  · exact fun hname => Condition.holds_of_isName hname hvalue
  · exact fun hname => Condition.holds_of_not_isName hname context

/-- A word of another script, and a name of conditions. -/
theorem name_agrees_scripts :
    let umlaut : Word := ⟨"größe".toList, by decide, List.all_eq_true.mp (by decide)⟩
    let ascii : Word := ⟨"_size1".toList, by decide, List.all_eq_true.mp (by decide)⟩
    let context : Context := (Dict.empty.insert "größe" (.str "XL")).insert "_size1" (.str "0")
    (context.find? (String.ofList umlaut.text) = some (.str "XL") ∧
        context.find? (String.ofList ascii.text) = some (.str "0")) ∧
      substituteSigils context "$größe".toList = "XL".toList ∧
      Condition.nameFault umlaut.text = ⟨"öße".toList, .operatorOrEnd⟩ ∧
      Condition.holds "$größe".toList context =
        .error (.unreadable (.ofSyntaxError "$größe".toList ⟨"öße".toList, .operatorOrEnd⟩)) ∧
      Condition.holds "$_size1".toList context = .ok false := by
  intro umlaut ascii context
  have humlaut : context.find? (String.ofList umlaut.text) = some (.str "XL") := rfl
  have hascii : context.find? (String.ofList ascii.text) = some (.str "0") := rfl
  have hname : Condition.IsName ascii.text := Condition.name?_eq_some_self_iff.mp (by decide)
  have hnot : ¬ Condition.IsName umlaut.text :=
    mt Condition.name?_eq_some_self_iff.mpr (by decide)
  obtain ⟨-, hsigil, -, hfault⟩ := name_agrees humlaut
  obtain ⟨-, -, htruth, -⟩ := name_agrees hascii
  exact ⟨⟨humlaut, hascii⟩, hsigil, by decide, hfault hnot, htruth hname⟩

/-- A condition does not know every word: one of another script is refused, though the context has a
value under it. -/
theorem not_forall_name_agrees :
    ¬ ∀ (k : Word) (v : Value),
      let context : Context := Dict.empty.insert (String.ofList k.text) v
      (∀ m : Marker k.text, substitute context m.text = v.render) ∧
        substituteSigils context ('$' :: k.text) = v.render ∧
        Condition.holds ('$' :: k.text) context = .ok v.truthy := by
  intro h
  let k : Word := ⟨['é'], by decide, List.all_eq_true.mp (by decide)⟩
  have hnot : ¬ Condition.IsName k.text := mt Condition.name?_eq_some_self_iff.mpr (by decide)
  obtain ⟨-, -, hholds⟩ := h k (.bool true)
  rw [Condition.holds_of_not_isName hnot] at hholds
  cases hholds

end Variable

end HtmlViews
