import HtmlViews.Text.Basic
import HtmlViews.Text.WordTable

/-!
# Words

Names in templates are words: runs of word characters of any script.

A word is always the longest one: it ends at the first character that is no word character, or with
the text. Names of variables, of the elements of loops and of parameters are words; the names in
conditions are of ASCII letters, digits and underscores only.

* **isWord** — membership in the table of word characters.
* **Text.word** — the word a text begins with.
* **Text.afterWord** — what follows that word.
* **Text.word?** — the word, if it has a character, and what follows it.
-/

namespace HtmlViews

/-- Whether a character can stand in a word. -/
def isWord (c : Char) : Bool :=
  wordRanges.any fun (first, last) => first ≤ c.toNat && c.toNat ≤ last

namespace Text

/-- The longest word a text begins with. -/
def word (s : Text) : Text :=
  s.takeWhile isWord

/-- What follows the longest word a text begins with. -/
def afterWord (s : Text) : Text :=
  s.dropWhile isWord

/-- A text is the word at its beginning and what follows it. -/
@[simp] theorem word_append_afterWord (s : Text) : word s ++ afterWord s = s :=
  List.takeWhile_append_dropWhile

/-- The word a text begins with, when it is not empty, and what follows it. -/
def word? (s : Text) : Option (Text × Text) :=
  match word s with
  | [] => none
  | w => some (w, afterWord s)

/-- Nothing is lost when a word is read. -/
theorem eq_of_word? {s w r : Text} (h : word? s = some (w, r)) : s = w ++ r ∧ w ≠ [] := by
  unfold word? at h
  split at h
  · simp at h
  · rename_i hw
    simp only [Option.some.injEq, Prod.mk.injEq] at h
    obtain ⟨rfl, rfl⟩ := h
    exact ⟨(word_append_afterWord s).symm, hw⟩

/-- Reading a word makes the text shorter. -/
theorem length_of_word? {s w r : Text} (h : word? s = some (w, r)) : r.length < s.length := by
  obtain ⟨rfl, hw⟩ := eq_of_word? h
  have := List.length_pos_iff.mpr hw
  simp only [List.length_append]
  omega

end Text

end HtmlViews
