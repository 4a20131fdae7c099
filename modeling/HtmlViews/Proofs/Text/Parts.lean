import HtmlViews.Proofs.Text.Search
import Mathlib.Data.List.Basic
import Mathlib.Data.List.DropRight

/-!
# Parts between separators

A list is written as its parts with separators between them, and read by a cut at every separator.
What counts of a part is what is left when certain characters are stripped from its ends.

To cut and to strip are functions from left to right, or from both ends. What is proved of them here
is what happens when texts are put together, and how long the results are: cutting takes away the
separators and nothing else, stripping takes away a beginning and an end. From the lengths alone
follows when nothing was taken away.

* **Text.cut?_run** — a text cut at the first occurrence of a character.
* **Text.splitOn_append** — the parts of two texts in a row: the last part of the one and the first
  part of the other are one part.
* **Text.length_flatten_splitOn** — the parts have all characters but the separators.
* **Text.strip_run**, **Text.strip_append_left**, **Text.strip_append_right** — what is stripped.
* **Text.strip_of_ends**, **Text.ends_of_length_strip** — from what nothing is stripped.
* **Text.joinWith_induction** — what holds of parts holds of the parts joined.
-/

namespace HtmlViews.Text

variable {d : Char} {s t : Text}

/-! ## Cuts -/

/-- A text is cut at the first occurrence of a character. -/
theorem cut?_run (hs : d ∉ s) (r : Text) : cut? [d] (s ++ d :: r) = some (s, r) :=
  cut?_mark (List.cons_ne_nil d []) ((beginsWith_literal rfl).passes hs _)

/-! ## Parts -/

/-- At the separator a new part begins. -/
theorem splitOn_cons_self (d : Char) (s : Text) : splitOn d (d :: s) = [] :: splitOn d s :=
  if_pos rfl

/-- Any other character belongs to the part that it stands in. -/
theorem splitOn_cons_of_ne {c : Char} (hc : c ≠ d) {part : Text} {parts : List Text}
    (h : splitOn d s = part :: parts) : splitOn d (c :: s) = (c :: part) :: parts := by
  rw [splitOn, if_neg hc, h]

/-- There is always a part. -/
theorem splitOn_ne_nil (d : Char) (s : Text) : splitOn d s ≠ [] := by
  induction s with
  | nil => exact List.cons_ne_nil _ _
  | cons c s ih =>
    by_cases hc : c = d
    · rw [hc, splitOn_cons_self]
      exact List.cons_ne_nil _ _
    · obtain ⟨part, parts, h⟩ := List.exists_cons_of_ne_nil ih
      rw [splitOn_cons_of_ne hc h]
      exact List.cons_ne_nil _ _

/-- A text without the separator is one part. -/
theorem splitOn_run (hs : d ∉ s) : splitOn d s = [s] := by
  induction s with
  | nil => rfl
  | cons c s ih =>
    obtain ⟨hc, hs⟩ := not_or.mp (mt List.mem_cons.mpr hs)
    exact splitOn_cons_of_ne (Ne.symm hc) (ih hs)

/-- Of two texts in a row, the last part of the one and the first part of the other are one part. -/
theorem splitOn_append {front back : List Text} {last first : Text}
    (hs : splitOn d s = front ++ [last]) (ht : splitOn d t = first :: back) :
    splitOn d (s ++ t) = front ++ (last ++ first) :: back := by
  induction s generalizing front last with
  | nil =>
    obtain ⟨rfl, rfl⟩ : front = [] ∧ last = [] := by
      cases front with
      | nil => exact ⟨rfl, (List.cons.inj hs).1.symm⟩
      | cons part front => exact absurd (List.cons.inj hs).2 (by simp)
    exact ht
  | cons c s ih =>
    by_cases hc : c = d
    · subst hc
      rw [splitOn_cons_self] at hs
      cases front with
      | nil => exact absurd (List.cons.inj hs).2 (splitOn_ne_nil c s)
      | cons part front =>
        obtain ⟨rfl, htail⟩ := List.cons.inj hs
        rw [List.cons_append, splitOn_cons_self, ih htail]
        rfl
    · obtain ⟨part, parts, h⟩ := List.exists_cons_of_ne_nil (splitOn_ne_nil d s)
      rw [splitOn_cons_of_ne hc h] at hs
      cases front with
      | nil =>
        obtain ⟨rfl, rfl⟩ := List.cons.inj hs
        have hparts : splitOn d s = [] ++ [part] := h
        exact splitOn_cons_of_ne hc (ih hparts)
      | cons part' front =>
        obtain ⟨rfl, rfl⟩ := List.cons.inj hs
        have hparts : splitOn d s = (part :: front) ++ [last] := h
        exact splitOn_cons_of_ne hc (ih hparts)

/-- The parts of two texts with a separator between them. -/
theorem splitOn_append_cons (d : Char) (s t : Text) :
    splitOn d (s ++ d :: t) = splitOn d s ++ splitOn d t := by
  obtain ⟨front, last, hs⟩ := (splitOn d s).eq_nil_or_concat'.resolve_left (splitOn_ne_nil d s)
  rw [splitOn_append hs (splitOn_cons_self d t), hs, List.append_nil, List.append_assoc]
  rfl

/-- The parts of a text have all its characters but the separators. -/
theorem length_flatten_splitOn (d : Char) (s : Text) :
    (splitOn d s).flatten.length + s.count d = s.length := by
  induction s with
  | nil => rfl
  | cons c s ih =>
    by_cases hc : c = d
    · subst hc
      rw [splitOn_cons_self, List.flatten_cons, List.nil_append, List.count_cons_self,
        List.length_cons]
      omega
    · obtain ⟨part, parts, h⟩ := List.exists_cons_of_ne_nil (splitOn_ne_nil d s)
      rw [h, List.flatten_cons, List.length_append] at ih
      rw [splitOn_cons_of_ne hc h, List.flatten_cons, List.length_append, List.length_cons,
        List.length_cons, List.count_cons_of_ne hc]
      omega

/-! ## What is stripped -/

section Stripping

variable {p : Char → Bool} {c : Char}

/-- Nothing is stripped from a text that begins and ends with characters that stay. -/
theorem strip_of_ends (hfirst : ∀ c ∈ s.head?, p c = false)
    (hlast : ∀ c ∈ s.getLast?, p c = false) : strip p s = s := by
  have hfront : s.dropWhile p = s := dropWhile_run (List.forall_mem_nil _) hfirst
  have hback : dropEnd p (s ++ []) = s := dropEnd_run (List.forall_mem_nil _) hlast
  rw [strip, hfront, ← List.append_nil s, hback, List.append_nil]

/-- Nothing is stripped from a text between characters that stay. -/
theorem strip_between {first last : Char} (hfirst : p first = false) (hlast : p last = false)
    (s : Text) : strip p (first :: s ++ [last]) = first :: s ++ [last] := by
  apply strip_of_ends
  · rintro c ⟨⟩
    exact hfirst
  · rw [List.getLast?_concat]
    rintro c ⟨⟩
    exact hlast

/-- A character at the end that may be dropped is dropped. -/
theorem dropEnd_concat (hc : p c = true) (s : Text) : dropEnd p (s ++ [c]) = dropEnd p s := by
  rw [dropEnd, List.reverse_append, List.reverse_singleton, List.singleton_append,
    List.dropWhile_cons_of_pos hc, dropEnd]

/-- A character in front that may be stripped is stripped. -/
theorem strip_cons (hc : p c = true) (s : Text) : strip p (c :: s) = strip p s := by
  rw [strip, List.dropWhile_cons_of_pos hc, strip]

/-- A character at the end that may be stripped is stripped. -/
theorem strip_concat (hc : p c = true) (s : Text) : strip p (s ++ [c]) = strip p s := by
  rw [strip, List.dropWhile_append, strip]
  split
  · rename_i hempty
    rw [List.isEmpty_iff.mp hempty, List.dropWhile_cons_of_pos hc, List.dropWhile_nil]
  · exact dropEnd_concat hc _

/-- A run of what is stripped makes no difference before a text. -/
theorem strip_append_left {run : Text} (hrun : ∀ c ∈ run, p c = true) (s : Text) :
    strip p (run ++ s) = strip p s := by
  induction run with
  | nil => rfl
  | cons c run ih =>
    obtain ⟨hc, hrun⟩ := List.forall_mem_cons.mp hrun
    rw [List.cons_append, strip_cons hc, ih hrun]

/-- A run of what is stripped makes no difference behind a text. -/
theorem strip_append_right {run : Text} (hrun : ∀ c ∈ run, p c = true) (s : Text) :
    strip p (s ++ run) = strip p s := by
  induction run generalizing s with
  | nil => rw [List.append_nil]
  | cons c run ih =>
    obtain ⟨hc, hrun⟩ := List.forall_mem_cons.mp hrun
    rw [List.append_cons, ih hrun, strip_concat hc]

/-- Runs of what is stripped are what is stripped, around a text that begins and ends with
characters that stay. -/
theorem strip_run {before behind : Text} (hbefore : ∀ c ∈ before, p c = true)
    (hbehind : ∀ c ∈ behind, p c = true) (hfirst : ∀ c ∈ s.head?, p c = false)
    (hlast : ∀ c ∈ s.getLast?, p c = false) : strip p (before ++ (s ++ behind)) = s := by
  rw [strip_append_left hbefore, strip_append_right hbehind, strip_of_ends hfirst hlast]

/-- What is dropped from the beginning stands before the first character that stays. -/
theorem dropWhile_append_cons (hc : p c = false) (s t : Text) :
    (s ++ c :: t).dropWhile p = s.dropWhile p ++ c :: t := by
  rw [List.dropWhile_append]
  split
  · rename_i hempty
    rw [List.isEmpty_iff.mp hempty, List.dropWhile_cons_of_neg (by simp [hc]), List.nil_append]
  · rfl

/-- What is dropped from the end stands behind the last character that stays. -/
theorem dropEnd_append_cons (hc : p c = false) (s t : Text) :
    dropEnd p (s ++ c :: t) = s ++ c :: dropEnd p t := by
  rw [dropEnd, List.reverse_append, List.reverse_cons, List.append_assoc, List.singleton_append,
    dropWhile_append_cons hc, List.reverse_append, List.reverse_cons, List.reverse_reverse,
    List.append_assoc, List.singleton_append, dropEnd]

/-- What is stripped begins with the first character that stays. -/
theorem head?_strip (p : Char → Bool) (s : Text) : (strip p s).head? = (s.dropWhile p).head? := by
  have hfirst := List.head?_dropWhile_not p s
  rw [strip]
  cases hdrop : s.dropWhile p with
  | nil => rfl
  | cons c t =>
    rw [hdrop] at hfirst
    rw [← List.nil_append (c :: t), dropEnd_append_cons hfirst]
    rfl

/-- What is stripped in front may be dropped before. -/
theorem strip_dropWhile (p : Char → Bool) (s : Text) : strip p (s.dropWhile p) = strip p s := by
  rw [strip, List.dropWhile_idempotent, strip]

/-- What is stripped at the end may be dropped before. -/
theorem strip_dropEnd (p : Char → Bool) (s : Text) : strip p (dropEnd p s) = strip p s := by
  have hrun : ∀ c ∈ (s.reverse.takeWhile p).reverse, p c = true := by
    intro c hc
    exact List.mem_takeWhile_imp (List.mem_reverse.mp hc)
  have hs : dropEnd p s ++ (s.reverse.takeWhile p).reverse = s := by
    rw [dropEnd, ← List.reverse_append, List.takeWhile_append_dropWhile, List.reverse_reverse]
  rw [← strip_append_right hrun, hs]

/-- A stripped text is no longer. -/
theorem length_strip_le (p : Char → Bool) (s : Text) : (strip p s).length ≤ s.length :=
  Nat.le_trans (dropEnd_isPrefix p _).length_le (List.dropWhile_suffix p).length_le

/-- A text from which nothing is stripped neither begins nor ends with what is stripped. -/
theorem ends_of_length_strip (h : (strip p s).length = s.length) :
    (∀ c ∈ s.head?, p c = false) ∧ ∀ c ∈ s.getLast?, p c = false := by
  have hend := (dropEnd_isPrefix p (s.dropWhile p)).length_le
  have hbegin := (List.dropWhile_suffix (l := s) p).length_le
  rw [strip] at h
  have hdrop : s.dropWhile p = s :=
    (List.dropWhile_suffix p).eq_of_length (by omega)
  have hdropEnd : dropEnd p s = s := by
    rw [hdrop] at h
    exact (dropEnd_isPrefix p s).eq_of_length h
  refine ⟨?_, ?_⟩
  · intro c hc
    have hhead := List.head?_dropWhile_not p s
    rwa [hdrop, show s.head? = some c from hc] at hhead
  · intro c hc
    have hhead := List.head?_dropWhile_not p s.reverse
    have hreverse : s.reverse.dropWhile p = s.reverse := by
      rw [← List.reverse_eq_iff]
      exact hdropEnd
    rwa [hreverse, List.head?_reverse, show s.getLast? = some c from hc] at hhead

end Stripping

/-! ## Parts joined -/

/-- No texts are joined to the empty one. -/
@[simp] theorem joinWith_nil (sep : Text) : joinWith sep [] = [] :=
  rfl

/-- One text is joined to itself. -/
@[simp] theorem joinWith_singleton (sep p : Text) : joinWith sep [p] = p := by
  simp [joinWith]

/-- Between two texts stands the separator. -/
@[simp] theorem joinWith_cons_cons (sep p q : Text) (ps : List Text) :
    joinWith sep (p :: q :: ps) = p ++ (sep ++ joinWith sep (q :: ps)) := by
  simp [joinWith]

/-- What holds of all parts and of the separator, and is kept when texts are put together, holds of
the parts joined. -/
theorem joinWith_induction {P : Text → Prop} (hnil : P [])
    (happend : ∀ {p q}, P p → P q → P (p ++ q)) {sep : Text} (hsep : P sep) {ps : List Text}
    (hps : ∀ p ∈ ps, P p) : P (joinWith sep ps) := by
  induction ps with
  | nil => exact hnil
  | cons p ps ih =>
    obtain ⟨hp, hps⟩ := List.forall_mem_cons.mp hps
    cases ps with
    | nil =>
      rw [joinWith_singleton]
      exact hp
    | cons q ps =>
      rw [joinWith_cons_cons]
      exact happend hp (happend hsep (ih hps))

end HtmlViews.Text
