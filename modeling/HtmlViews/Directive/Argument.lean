import HtmlViews.Text.Piece
import HtmlViews.Text.Quote

/-!
# Quoted arguments

Several directives take one quoted argument between parentheses: a quote, at least one character,
a quote and the closing parenthesis. The argument is the shortest one possible, and the two quotes
need not be equal.

The first character of an argument is taken whatever it is, even a quote, and the reading ends at
the first quote with a parenthesis right behind it. An empty argument is therefore not read as one:
the quote that should end it is its first character, and the reading goes on. Where the argument has
to end in its line, a line feed ends the reading without a result, and the directive is left in the
page.

Directives of this kind differ in the word they begin with and in the characters that they allow,
and in what is shown for them; the reading is the same definition for all.

* **quotedArgument?** — such an argument behind the opening parenthesis, and what follows it.
* **argumentReader** — the directive of such an argument.
-/

namespace HtmlViews

/-- The text up to the first quote that a closing parenthesis follows, and the text behind that
parenthesis; every character before must be allowed. -/
def untilQuoteEnd? (allowed : Char → Bool) : Text → Option (Text × Text)
  | [] => none
  | c :: s =>
    if isQuote c && s.head? = some ')' then some ([], s.tail)
    else if allowed c then (untilQuoteEnd? allowed s).map fun (t, r) => (c :: t, r)
    else none

/-- The quoted argument that a text behind an opening parenthesis begins with, and what follows its
closing parenthesis. The first character of the argument may itself be a quote. -/
def quotedArgument? (allowed : Char → Bool) (s : Text) : Option (Text × Text) :=
  match s with
  | q :: c :: s =>
    if isQuote q && allowed c then (untilQuoteEnd? allowed s).map fun (t, r) => (c :: t, r)
    else none
  | _ => none

/-- Whether a character may stand in an argument that has to end in its line. -/
def isInLine (c : Char) : Bool :=
  c ≠ '\n'

/-- Reading up to a quote makes the text shorter. -/
theorem length_of_untilQuoteEnd? {allowed : Char → Bool} {s t r : Text}
    (h : untilQuoteEnd? allowed s = some (t, r)) : r.length < s.length := by
  induction s generalizing t with
  | nil => simp [untilQuoteEnd?] at h
  | cons c s ih =>
    unfold untilQuoteEnd? at h
    split at h
    · simp only [Option.some.injEq, Prod.mk.injEq] at h
      obtain ⟨-, rfl⟩ := h
      simp only [List.length_tail, List.length_cons]
      omega
    · split at h
      · simp only [Option.map_eq_some_iff, Prod.exists, Prod.mk.injEq] at h
        obtain ⟨t', r', h', -, rfl⟩ := h
        have := ih h'
        simp only [List.length_cons]
        omega
      · simp at h

/-- Reading an argument between quotes makes the text shorter. -/
theorem length_of_quotedArgument? {allowed : Char → Bool} {s t r : Text}
    (h : quotedArgument? allowed s = some (t, r)) : r.length < s.length := by
  unfold quotedArgument? at h
  split at h
  · split at h
    · simp only [Option.map_eq_some_iff, Prod.exists, Prod.mk.injEq] at h
      obtain ⟨t', r', h', -, rfl⟩ := h
      have := length_of_untilQuoteEnd? h'
      simp only [List.length_cons]
      omega
    · simp at h
  · simp at h

/-- The reader of a directive that begins with `start`, an opening parenthesis included, and whose
argument ends in the same line. -/
def argumentReader (start : Text) : Reader Text where
  read s := (Text.after? start s).bind (quotedArgument? isInLine)
  shorter h := by
    simp only [Option.bind_eq_some_iff] at h
    obtain ⟨u, hu, h⟩ := h
    have := Text.length_of_after? hu
    have := length_of_quotedArgument? h
    omega

end HtmlViews
