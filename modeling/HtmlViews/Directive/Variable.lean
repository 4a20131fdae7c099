import HtmlViews.Context
import HtmlViews.Text.Piece
import HtmlViews.Text.Word

/-!
# Variables in text

A name between double braces stands for its value. In the arguments of a switch a name behind a
dollar sign does the same. Values are put in as they are: they are not escaped, and directives in
them are not searched by the same stage.

A name is a word of any script, and placeholders may hold blanks around it but nothing else; braces
around something that is no word are left as they are. A name without a value is shown as nothing in
a page, but as the word `null` in the arguments of a switch, where a text is needed to compare with.

The same placeholder with one fixed name marks the place of a message in its block and the place of
a page in its layout, so both read it by the reader of one name.

* **placeholder?** — a name between double braces.
* **marker?** — the same with one given name.
* **Variable.substitute** — a text with its placeholders replaced.
* **Variable.substituteSigils** — a text with its dollar names replaced.
-/

namespace HtmlViews

/-- The two braces that open a placeholder. -/
def openBraces : Text :=
  ['{', '{']

/-- The two braces that close a placeholder. -/
def closeBraces : Text :=
  ['}', '}']

/-- The name in the placeholder that a text begins with, and what follows it. There may be blanks
around the name. -/
def placeholder? (s : Text) : Option (Text × Text) := do
  let s ← Text.after? openBraces s
  let (name, s) ← Text.word? (Text.dropBlanks s)
  let r ← Text.after? closeBraces (Text.dropBlanks s)
  pure (name, r)

/-- Reading a placeholder makes the text shorter. -/
theorem length_of_placeholder? {s name r : Text} (h : placeholder? s = some (name, r)) :
    r.length < s.length := by
  simp only [placeholder?, Option.bind_eq_bind, Option.bind_eq_some_iff, Option.pure_def,
    Option.some.injEq, Prod.exists, Prod.mk.injEq] at h
  obtain ⟨a, ha, w, b, hb, c, hc, rfl, rfl⟩ := h
  have := Text.length_of_after? ha
  have := Text.length_of_word? hb
  have := Text.length_of_after? hc
  have := Text.length_dropBlanks_le a
  have := Text.length_dropBlanks_le b
  omega

/-- The reader of placeholders. -/
def placeholderReader : Reader Text where
  read := placeholder?
  shorter := length_of_placeholder?

/-- What follows the placeholder of `name` that a text begins with. -/
def marker? (name : Text) (s : Text) : Option (Unit × Text) :=
  match placeholder? s with
  | some (found, r) => if found = name then some ((), r) else none
  | none => none

/-- The reader of the placeholder of one name. -/
def markerReader (name : Text) : Reader Unit where
  read := marker? name
  shorter h := by
    unfold marker? at h
    split at h
    · rename_i h'
      split at h
      · simp only [Option.some.injEq, Prod.mk.injEq, true_and] at h
        exact h ▸ length_of_placeholder? h'
      · simp at h
    · simp at h

/-- The name behind the dollar sign that a text begins with, and what follows it. -/
def sigil? (s : Text) : Option (Text × Text) :=
  (Text.after? ['$'] s).bind Text.word?

/-- The reader of names behind dollar signs. -/
def sigilReader : Reader Text where
  read := sigil?
  shorter h := by
    simp only [sigil?, Option.bind_eq_some_iff] at h
    obtain ⟨u, hu, h⟩ := h
    have := Text.length_of_after? hu
    have := Text.length_of_word? h
    omega

namespace Variable

/-- The text of the value under a name, or `absent` when there is none. -/
def textOf (context : Context) (absent : Text) (name : Text) : Text :=
  match context.find? (String.ofList name) with
  | some v => v.render
  | none => absent

/-- A text with every placeholder replaced by the value of its name, or by nothing. -/
def substitute (context : Context) : Text → Text :=
  Text.expand placeholderReader (textOf context [])

/-- A text with every dollar name replaced by its value, or by `null`. -/
def substituteSigils (context : Context) : Text → Text :=
  Text.expand sigilReader (textOf context "null".toList)

end Variable

end HtmlViews
