import HtmlViews.Proofs.Text.Basic
import HtmlViews.Text.Word
import Mathlib.Data.List.Basic
import Mathlib.Data.List.TakeWhile

/-!
# Words and gaps

The parts of a directive are words with gaps between them. Blanks are no characters of words, so
each of both ends where the other one begins.

Words and gaps carry the proof that their characters are of their class and that there is at least
one. So a directive that is made of them needs no conditions of its own: where a word is followed by
a gap, the word ends there, and the other way round. That no character is of both classes is checked
along the table of word characters.

* **isWord_of_isBlank** — no character is both.
* **Word**, **Gap** — a run of the one or of the other, with at least one character.
* **Word.word?_append** — a word is read up to its end.
* **Word.isBlank_head**, **Gap.isWord_head** — the one does not begin like the other.
-/

namespace HtmlViews

/-- Blanks do not stand in words. -/
theorem isWord_of_isBlank {c : Char} (h : isBlank c = true) : isWord c = false := by
  have hapart : ∀ b ∈ blankRanges, ∀ w ∈ wordRanges, b.2 < w.1 ∨ w.2 < b.1 := by
    decide +kernel
  by_contra hword
  obtain ⟨b, hb, hblank⟩ := List.any_eq_true.mp h
  obtain ⟨w, hw, hword⟩ := List.any_eq_true.mp (eq_true_of_ne_false hword)
  simp only [Bool.and_eq_true, decide_eq_true_eq] at hblank hword
  have := hapart b hb w hw
  omega

/-- A word. -/
structure Word where
  /-- Its characters. -/
  text : Text
  ne_nil : text ≠ []
  isWord_text : ∀ c ∈ text, isWord c = true

/-- Blanks between the parts of a directive. -/
structure Gap where
  /-- The blanks. -/
  text : Text
  ne_nil : text ≠ []
  isBlank_text : ∀ c ∈ text, isBlank c = true

namespace Word

/-- A word does not begin with a blank. -/
theorem isBlank_head (w : Word) (s : Text) : ∀ c ∈ (w.text ++ s).head?, isBlank c = false := by
  intro c hc
  rw [List.head?_append_of_ne_nil _ w.ne_nil] at hc
  have hword := w.isWord_text c (List.mem_of_mem_head? hc)
  by_contra hblank
  rw [isWord_of_isBlank (eq_true_of_ne_false hblank)] at hword
  cases hword

/-- A character of another class does not stand in a word. -/
theorem not_mem_text (w : Word) {c : Char} (hc : isWord c = false) : c ∉ w.text :=
  Text.not_mem_of_forall w.isWord_text hc

/-- A word is read up to its end, if it does not go on behind it. -/
theorem word?_append (w : Word) {s : Text} (hs : ∀ c ∈ s.head?, isWord c = false) :
    Text.word? (w.text ++ s) = some (w.text, s) := by
  have hread : Text.word (w.text ++ s) = w.text := Text.takeWhile_run w.isWord_text hs
  have hrest : Text.afterWord (w.text ++ s) = s := Text.dropWhile_run w.isWord_text hs
  rw [Text.word?, hread, hrest]
  split
  case h_1 hnil => exact absurd hnil w.ne_nil
  case h_2 => rfl

/-- What is read as a word is one. -/
theorem exists_of_word? {s text r : Text} (h : Text.word? s = some (text, r)) :
    ∃ w : Word, w.text = text ∧ s = w.text ++ r := by
  obtain ⟨hs, hne⟩ := Text.eq_of_word? h
  refine ⟨⟨text, hne, ?_⟩, rfl, hs⟩
  unfold Text.word? at h
  split at h
  case h_1 => cases h
  case h_2 =>
    cases h
    exact fun _ => List.mem_takeWhile_imp

end Word

namespace Gap

/-- A gap does not begin with a character of a word. -/
theorem isWord_head (g : Gap) (s : Text) : ∀ c ∈ (g.text ++ s).head?, isWord c = false := by
  intro c hc
  rw [List.head?_append_of_ne_nil _ g.ne_nil] at hc
  exact isWord_of_isBlank (g.isBlank_text c (List.mem_of_mem_head? hc))

end Gap

end HtmlViews
