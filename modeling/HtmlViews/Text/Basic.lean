/-!
# Texts

Templates are read as texts: lists of characters, taken apart from the left.

A text is a list, so what a directive reads is a matter of what the list begins with, and recursion
goes along its characters. A reader takes a text and gives what it found with the rest, which is a
part of the same list; that nothing is lost in between is proved beside each of them, in the form `s
= found ++ rest`, and from this follow the lengths by which searches end.

Places are given by what stands behind them. Where a place is a number instead, it is one of UTF-8
bytes, and no character need begin there.

* **Text** — the characters of a template, in order.
* **Text.after?** — what follows a given beginning.
* **Text.cut?** — the two sides of the first occurrence of a pattern.
* **Text.splitOn**, **Text.joinWith** — the parts between separators, and back.
* **Text.dropEnd**, **Text.strip** — characters taken off one or both ends.
* **Text.bytes**, **Text.utf8Length** — the bytes of a text in UTF-8, and their number.
* **Text.before?** — what stands before a given end.
* **Text.dropBytes?** — the text behind a number of bytes.
-/

namespace HtmlViews

/-- The characters of a template, of a part of it, or of what it renders to. -/
abbrev Text := List Char

namespace Text

/-! ## Literal beginnings -/

/-- What follows `p` in a text that begins with `p`. -/
def after? : (p : Text) → Text → Option Text
  | [], s => some s
  | _ :: _, [] => none
  | d :: p, c :: s => if d = c then after? p s else none

/-- Every text begins with the empty one. -/
@[simp] theorem after?_nil (s : Text) : after? [] s = some s := by
  cases s <;> rfl

/-- A text has a rest after `p` exactly when it is `p` followed by that rest. -/
theorem after?_eq_some_iff {p s r : Text} : after? p s = some r ↔ s = p ++ r := by
  induction p generalizing s with
  | nil => simp [eq_comm]
  | cons d p ih =>
    cases s with
    | nil => simp [after?]
    | cons c s =>
      by_cases h : d = c
      · simp [after?, h, ih]
      · have h' : ¬ c = d := fun e => h e.symm
        simp [after?, h, h']

/-- What follows a beginning is shorter by that beginning. -/
theorem length_of_after? {p s r : Text} (h : after? p s = some r) :
    s.length = p.length + r.length := by
  rw [after?_eq_some_iff.mp h, List.length_append]

/-! ## First occurrences -/

/-- The text before and the text behind the first occurrence of `p`. -/
def cut? (p : Text) : Text → Option (Text × Text)
  | [] => (after? p []).map fun r => ([], r)
  | c :: s =>
    match after? p (c :: s) with
    | some r => some ([], r)
    | none => (cut? p s).map fun (front, r) => (c :: front, r)

/-- Cutting loses nothing but the pattern. -/
theorem eq_of_cut? {p s front r : Text} (h : cut? p s = some (front, r)) :
    s = front ++ p ++ r := by
  induction s generalizing front with
  | nil =>
    simp only [cut?, Option.map_eq_some_iff, Prod.mk.injEq] at h
    obtain ⟨a, ha, rfl, rfl⟩ := h
    simpa using after?_eq_some_iff.mp ha
  | cons c s ih =>
    rw [cut?] at h
    split at h
    · rename_i a ha
      simp only [Option.some.injEq, Prod.mk.injEq] at h
      obtain ⟨rfl, rfl⟩ := h
      simpa using after?_eq_some_iff.mp ha
    · simp only [Option.map_eq_some_iff, Prod.exists, Prod.mk.injEq] at h
      obtain ⟨f, a, hf, rfl, rfl⟩ := h
      simp [ih hf]

/-- A text is as long as what is before a mark, the mark and what is behind it. -/
theorem length_of_cut? {p s front r : Text} (h : cut? p s = some (front, r)) :
    s.length = front.length + p.length + r.length := by
  rw [eq_of_cut? h, List.length_append, List.length_append]

/-! ## Separators -/

/-- The parts of a text between the separators `sep`; there is always one more part than there are
separators. -/
def splitOn (sep : Char) : Text → List Text
  | [] => [[]]
  | c :: s =>
    if c = sep then [] :: splitOn sep s
    else
      match splitOn sep s with
      | [] => [[c]]
      | part :: parts => (c :: part) :: parts

/-- Texts joined with a separator between neighbours. -/
def joinWith (sep : Text) (parts : List Text) : Text :=
  (parts.intersperse sep).flatten

/-! ## Ends -/

/-- A text without the characters of its end that satisfy `p`. -/
def dropEnd (p : Char → Bool) (s : Text) : Text :=
  (s.reverse.dropWhile p).reverse

/-- A text without the characters of both ends that satisfy `p`. -/
def strip (p : Char → Bool) (s : Text) : Text :=
  dropEnd p (s.dropWhile p)

/-- What stands before `p` in a text that ends with `p`. -/
def before? (p : Text) (s : Text) : Option Text :=
  (after? p.reverse s.reverse).map List.reverse

/-- A text has a front before `p` exactly when it is that front followed by `p`. -/
theorem before?_eq_some_iff {p s r : Text} : before? p s = some r ↔ s = r ++ p := by
  simp only [before?, Option.map_eq_some_iff, after?_eq_some_iff]
  constructor
  · rintro ⟨a, ha, rfl⟩
    simpa using congrArg List.reverse ha
  · rintro rfl
    exact ⟨r.reverse, by simp, by simp⟩

/-! ## Bytes -/

/-- The bytes of a text in UTF-8. -/
def bytes (s : Text) : List UInt8 :=
  s.flatMap String.utf8EncodeChar

/-- The number of bytes a text takes in UTF-8. -/
def utf8Length : Text → Nat
  | [] => 0
  | c :: s => c.utf8Size + utf8Length s

/-- The length in UTF-8 is the number of bytes. -/
theorem length_bytes (s : Text) : s.bytes.length = s.utf8Length := by
  induction s with
  | nil => rfl
  | cons c s ih => simp [bytes, utf8Length, ← ih]

/-- The text behind the first `n` bytes, when a character begins there. -/
def dropBytes? : (n : Nat) → Text → Option Text
  | 0, s => some s
  | _ + 1, [] => none
  | n + 1, c :: s => if c.utf8Size ≤ n + 1 then dropBytes? (n + 1 - c.utf8Size) s else none

end Text

end HtmlViews
