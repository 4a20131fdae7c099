import HtmlViews.Text.Parenthesis

/-!
# Texts put together

What the readers of texts say of a text that is made of parts.

Most readers look at the beginning of a text. If they are given two texts in a row, they do what
they do with the first one, unless it ends before they are done; so each lemma has a condition about
the character behind, that it does not go on with what was begun. Such conditions are stated for the
first character of the text behind, if there is one.

* **Text.after?_append_of_not_prefix** — a beginning that a text does not have is not made by what
  follows the text, unless what follows can go on with it.
* **Text.takeWhile_run**, **Text.dropWhile_run** — a run of characters of one class and what stands
  behind it.
* **Text.IsArgument** — a text that is closed by the parenthesis behind it, and not before its end.
* **Text.after?_append_eq_map** — what follows a beginning, with more text behind it.
-/

namespace HtmlViews

/-- There are two quotes. -/
theorem isQuote_iff {c : Char} : isQuote c = true ↔ c = '\'' ∨ c = '"' := by
  rw [isQuote, Bool.or_eq_true, decide_eq_true_iff, decide_eq_true_iff]

/-- A quote is no character of another kind. -/
theorem ne_of_isQuote {q c : Char} (hq : isQuote q = true) (hc : isQuote c = false) : q ≠ c := by
  rintro rfl
  rw [hq] at hc
  cases hc

namespace Text

/-- What is not of a class does not stand in a text whose characters all are. -/
theorem not_mem_of_forall {p : Char → Bool} {s : Text} (hs : ∀ c ∈ s, p c = true) {c : Char}
    (hc : p c = false) : c ∉ s := by
  intro hmem
  rw [hs c hmem] at hc
  cases hc

/-! ## Beginnings -/

/-- Behind a beginning stands the rest. -/
@[simp] theorem after?_append (p r : Text) : after? p (p ++ r) = some r :=
  after?_eq_some_iff.mpr rfl

/-- There is nothing behind what a text does not begin with. -/
theorem after?_eq_none_iff {p s : Text} : after? p s = none ↔ ¬ p <+: s := by
  rw [← Option.not_isSome_iff_eq_none, Option.isSome_iff_exists]
  constructor
  · rintro h ⟨r, rfl⟩
    exact h ⟨r, after?_append p r⟩
  · rintro h ⟨r, hr⟩
    exact h ⟨r, (after?_eq_some_iff.mp hr).symm⟩

/-- A text that does not begin with `p` does not do so either with more text behind it, when that
text begins with no character of `p` behind the first. -/
theorem not_prefix_append {p rest : Text} (hrest : ∀ d ∈ rest.head?, d ∉ p.tail) {c : Char}
    {s : Text} (h : ¬ p <+: c :: s) : ¬ p <+: c :: (s ++ rest) := by
  induction s generalizing p c with
  | nil =>
    rcases p with _ | ⟨d, _ | ⟨e, p⟩⟩
    · exact absurd List.nil_prefix h
    · simpa using h
    · cases rest with
      | nil => simp
      | cons f rest =>
        have hf : f ≠ e := by
          rintro rfl
          exact hrest f rfl List.mem_cons_self
        simp only [List.nil_append, List.cons_prefix_cons, not_and]
        exact fun _ he => absurd he.symm hf
  | cons b s ih =>
    rcases p with _ | ⟨d, p⟩
    · exact absurd List.nil_prefix h
    · simp only [List.cons_append, List.cons_prefix_cons, not_and] at h ⊢
      intro hd
      refine ih (fun f hf hmem => ?_) (h hd)
      exact hrest f hf (List.mem_of_mem_tail hmem)

/-- A mark that does not begin at a place does not begin there with more text behind it either, if
that cannot go on with the mark. -/
theorem after?_append_of_not_prefix {p rest : Text} (hrest : ∀ d ∈ rest.head?, d ∉ p.tail)
    {c : Char} {s : Text} (h : ¬ p <+: c :: s) : after? p (c :: (s ++ rest)) = none :=
  after?_eq_none_iff.mpr (not_prefix_append hrest h)

/-- Whether a text begins with `p` does not depend on such a text behind it. -/
theorem after?_append_eq_map {p s rest : Text} (hs : s ≠ [])
    (hrest : ∀ d ∈ rest.head?, d ∉ p.tail) :
    after? p (s ++ rest) = (after? p s).map (· ++ rest) := by
  cases hafter : after? p s with
  | some r =>
    rw [after?_eq_some_iff.mp hafter, List.append_assoc, after?_append]
    rfl
  | none =>
    obtain ⟨c, s, rfl⟩ := List.exists_cons_of_ne_nil hs
    exact after?_append_of_not_prefix hrest (after?_eq_none_iff.mp hafter)

/-- A character of two texts in a row stands in one or the other of them. -/
theorem append_eq_append_cons {s t before after : Text} {c : Char}
    (h : s ++ t = before ++ c :: after) :
    (∃ front, before = s ++ front ∧ t = front ++ c :: after) ∨
      ∃ back, s = before ++ c :: back ∧ after = back ++ t := by
  rcases List.append_eq_append_iff.mp h with ⟨front, hbefore, ht⟩ | ⟨back, hs, hafter⟩
  · exact .inl ⟨front, hbefore, ht⟩
  · cases back with
    | nil => exact .inl ⟨[], by rw [hs, List.append_nil, List.append_nil], hafter.symm⟩
    | cons d back =>
      obtain ⟨rfl, rfl⟩ := List.cons.inj hafter
      exact .inr ⟨back, hs, rfl⟩

/-- Two texts in a row begin like the first one, or like the second one if the first is empty. -/
theorem forall_head?_append {P : Char → Prop} {s t : Text} (hs : ∀ c ∈ s.head?, P c)
    (ht : ∀ c ∈ t.head?, P c) : ∀ c ∈ (s ++ t).head?, P c := by
  cases s with
  | nil => exact ht
  | cons d s => exact hs

/-! ## Runs -/

section Runs

variable {p : Char → Bool} {run rest : Text}

/-- A run of a class of characters is what is taken, when the next character is of another class. -/
theorem takeWhile_run (hrun : ∀ c ∈ run, p c) (hrest : ∀ c ∈ rest.head?, p c = false) :
    (run ++ rest).takeWhile p = run := by
  rw [List.takeWhile_append_of_pos hrun]
  cases rest with
  | nil => simp
  | cons c rest => simp [hrest c rfl]

/-- A run of characters is dropped up to what follows it. -/
theorem dropWhile_run (hrun : ∀ c ∈ run, p c) (hrest : ∀ c ∈ rest.head?, p c = false) :
    (run ++ rest).dropWhile p = rest := by
  rw [List.dropWhile_append_of_pos hrun]
  cases rest with
  | nil => rfl
  | cons c rest => simp [hrest c rfl]

/-- A run of a class of characters is what is dropped from the end, when the character before it is
of another class. -/
theorem dropEnd_run (hrun : ∀ c ∈ run, p c) (hrest : ∀ c ∈ rest.getLast?, p c = false) :
    dropEnd p (rest ++ run) = rest := by
  have hrunReverse : ∀ c ∈ run.reverse, p c := by
    intro c hc
    exact hrun c (List.mem_reverse.mp hc)
  have hreverse : ∀ c ∈ rest.reverse.head?, p c = false := by
    rwa [List.head?_reverse]
  rw [dropEnd, List.reverse_append, dropWhile_run hrunReverse hreverse, List.reverse_reverse]

/-- What is left when characters are dropped at the end stands at the beginning. -/
theorem dropEnd_isPrefix (p : Char → Bool) (s : Text) : dropEnd p s <+: s := by
  rw [dropEnd, ← List.reverse_suffix, List.reverse_reverse]
  exact List.dropWhile_suffix p

end Runs

/-! ## Arguments -/

/-- What closes an argument does not depend on the text behind. -/
theorem closingFrom_append {depth : Nat} {quote : Option Char} {s inside r : Text} (t : Text)
    (h : closingFrom depth quote s = some (inside, r)) :
    closingFrom depth quote (s ++ t) = some (inside, r ++ t) := by
  induction s generalizing depth quote inside with
  | nil => simp [closingFrom] at h
  | cons c s ih =>
    rcases closingFrom_cons depth quote c with ⟨rfl, hend⟩ | ⟨d, q, hstep⟩
    · rw [hend] at h
      obtain ⟨rfl, rfl⟩ := Prod.mk.inj (Option.some.inj h)
      exact hend (s ++ t)
    · rw [hstep] at h
      simp only [Option.map_eq_some_iff, Prod.exists, Prod.mk.injEq] at h
      obtain ⟨i, u, hi, rfl, rfl⟩ := h
      rw [List.cons_append, hstep, ih hi]
      rfl

/-- A text that a parenthesis behind it closes, as the argument of a directive. -/
def IsArgument (s : Text) : Prop :=
  closing? (s ++ [')']) = some (s, [])

instance : DecidablePred IsArgument := fun s =>
  inferInstanceAs (Decidable (closing? (s ++ [')']) = some (s, [])))

/-- An argument is found whatever follows its parenthesis. -/
theorem IsArgument.closing? {s : Text} (h : IsArgument s) (r : Text) :
    closing? (s ++ ')' :: r) = some (s, r) := by
  have := closingFrom_append r h
  rwa [List.append_assoc, List.singleton_append, List.nil_append] at this

/-- A beginning of an argument closes no parenthesis, unless it is the whole argument. -/
theorem IsArgument.closing?_eq_none {p rest : Text} (h : IsArgument (p ++ rest))
    (hrest : rest ≠ []) : Text.closing? p = none := by
  cases hclosing : Text.closing? p with
  | none => rfl
  | some found =>
    obtain ⟨inside, r⟩ := found
    -- The parenthesis would close the argument too, which is longer.
    have hwhole := closingFrom_append (rest ++ [')']) hclosing
    rw [← List.append_assoc] at hwhole
    have hinside : inside = p ++ rest :=
      congrArg Prod.fst (Option.some.inj (hwhole.symm.trans h))
    have hlength := congrArg List.length (eq_of_closing? hclosing)
    have hpos := List.length_pos_iff.mpr hrest
    simp only [hinside, List.length_append, List.length_cons] at hlength
    omega

end Text

end HtmlViews
