import HtmlViews.Text.Basic

/-!
# Texts in pieces

A stage of rendering looks for its directives from left to right. A *reader* recognises one
directive at the very beginning of a text and gives what it found together with what follows; where
it finds nothing, one character is kept and the search goes on behind it. So the first match wins,
matches never overlap, and what replaces a directive is not searched again.

That a reader takes at least one character is part of the reader, and with it the search comes to an
end for every reader. Cutting and replacing are apart: the pieces of a text depend on the reader
alone, and what they are replaced by, with or without effects, is a map along the pieces. So effects
come in the order of the text, and an effect cannot change where the later directives are.

* **Reader** — a way to recognise directives, each of which takes at least one character.
* **Piece** — a character kept, or a directive found.
* **Text.pieces** — a text cut into pieces by a reader.
* **Text.expand**, **Text.expandM** — the text with every find replaced.
-/

namespace HtmlViews

/-- A way to recognise the directive that a text begins with. -/
structure Reader (α : Type) where
  /-- What is found at the beginning of a text, and what follows it. -/
  read : Text → Option (α × Text)
  /-- What is found takes at least one character. -/
  shorter : ∀ {s r : Text} {a : α}, read s = some (a, r) → r.length < s.length

/-- The reader of one given text. The empty text is found nowhere. -/
def Reader.literal (p : Text) : Reader Unit where
  read s := if p = [] then none else (Text.after? p s).map fun r => ((), r)
  shorter h := by
    split at h
    · simp at h
    · rename_i hp
      simp only [Option.map_eq_some_iff, Prod.mk.injEq, true_and, exists_eq_right] at h
      have := Text.length_of_after? h
      have := List.length_pos_iff.mpr hp
      omega

/-- A part of a text that is searched for directives. -/
inductive Piece (α : Type) where
  /-- A character at which no directive begins. -/
  | plain (c : Char)
  /-- A directive. -/
  | found (a : α)
deriving DecidableEq, Repr

/-- The text of a piece, given the texts of directives. -/
def Piece.text {α : Type} (f : α → Text) : Piece α → Text
  | .plain c => [c]
  | .found a => f a

namespace Text

/-- A text cut into pieces. -/
def pieces {α : Type} (reader : Reader α) (s : Text) : List (Piece α) :=
  match s with
  | [] => []
  | c :: t =>
    match _h : reader.read (c :: t) with
    | some (a, r) => .found a :: pieces reader r
    | none => .plain c :: pieces reader t
termination_by s.length
decreasing_by
  · exact reader.shorter _h
  · simp

/-- The empty text has no pieces. -/
@[simp] theorem pieces_nil {α : Type} (reader : Reader α) : pieces reader [] = [] := by
  simp [pieces]

/-- Where the reader finds nothing, one character is kept. -/
theorem pieces_cons_of_none {α : Type} {reader : Reader α} {c : Char} {s : Text}
    (h : reader.read (c :: s) = none) : pieces reader (c :: s) = .plain c :: pieces reader s := by
  rw [pieces]
  split
  · simp_all
  · rfl

/-- What the reader finds is a piece, and the search goes on behind it. -/
theorem pieces_of_some {α : Type} {reader : Reader α} {s r : Text} {a : α}
    (h : reader.read s = some (a, r)) : pieces reader s = .found a :: pieces reader r := by
  cases s with
  | nil => exact absurd (reader.shorter h) (by simp)
  | cons c s =>
    rw [pieces]
    split
    · simp_all
    · simp_all

/-- Pieces spelled out are the text again, for a reader that accounts for all it consumes. -/
theorem flatMap_pieces {α : Type} {reader : Reader α} {spell : α → Text}
    (hread : ∀ s a r, reader.read s = some (a, r) → s = spell a ++ r) (s : Text) :
    (pieces reader s).flatMap (Piece.text spell) = s := by
  fun_induction pieces reader s with
  | case1 => rfl
  | case2 c s a r h ih => simp [Piece.text, ih, hread _ _ _ h]
  | case3 c s h ih => simp [Piece.text, ih]

/-- A text with everything that the reader finds replaced. -/
def expand {α : Type} (reader : Reader α) (f : α → Text) (s : Text) : Text :=
  (pieces reader s).flatMap (Piece.text f)

/-- A text with everything that the reader finds replaced, from left to right, by texts that are
computed with effects. -/
def expandM {m : Type → Type} [Monad m] {α : Type} (reader : Reader α) (f : α → m Text)
    (s : Text) : m Text := do
  let parts ← (pieces reader s).mapM fun
    | .plain c => pure [c]
    | .found a => f a
  pure parts.flatten

/-- A text with every occurrence of `p` replaced by `q`; what was put in is not searched. -/
def replaceAll (p q : Text) (s : Text) : Text :=
  expand (.literal p) (fun _ => q) s

end Text

end HtmlViews
