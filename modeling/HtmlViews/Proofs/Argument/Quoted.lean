import HtmlViews.Directive.Argument
import HtmlViews.Proofs.Text.Search

/-!
# Quoted arguments that are written out

An argument is written between quotes, which need not be equal, with the closing parenthesis behind
them. If there is something between the quotes and no quote in it, it is read as it stands, whatever
follows. The empty argument is none: its second quote is read as the first character of an argument
that goes on behind the parenthesis.

A reader of such arguments looks for the first quote with a parenthesis behind it, from the second
character on. So what stands between the quotes is taken as a whole exactly if no earlier quote has
a parenthesis behind it, and to be sure of that it is asked here that there is no quote at all in an
argument. That the search begins at the second character is what makes the empty argument different
from all others: its closing quote is passed over.

* **quoted** — an argument as it is written.
* **QuotedArgument** — an argument that is read as it stands.
* **quotedArgument?_quoted** — what is read of an argument without quotes.
* **quotedArgument?_empty**, **quotedArgument?_empty_eq_none** — what is read of the empty one.
* **QuotedArgument.read_directive** — a directive with such an argument is read up to its end.
-/

namespace HtmlViews

/-- An argument between quotes, with the closing parenthesis. -/
def quoted (left : Char) (argument : Text) (right : Char) : Text :=
  left :: (argument ++ [right, ')'])

section Reading

variable {allowed : Char → Bool} {left right : Char} {argument : Text}

/-- The text before the first quote is read up to it, if a parenthesis follows. -/
theorem untilQuoteEnd?_append (hright : isQuote right = true)
    (hargument : ∀ c ∈ argument, isQuote c = false ∧ allowed c = true) (s : Text) :
    untilQuoteEnd? allowed (argument ++ right :: ')' :: s) = some (argument, s) := by
  induction argument with
  | nil =>
    rw [List.nil_append, untilQuoteEnd?, hright]
    rfl
  | cons c argument ih =>
    obtain ⟨⟨hquote, hallowed⟩, hargument⟩ := List.forall_mem_cons.mp hargument
    rw [List.cons_append, untilQuoteEnd?, hquote, ih hargument]
    simp [hallowed]

/-- An argument without quotes in it is read as it stands. -/
theorem quotedArgument?_quoted (hleft : isQuote left = true) (hright : isQuote right = true)
    (hne : argument ≠ []) (hargument : ∀ c ∈ argument, isQuote c = false ∧ allowed c = true)
    (s : Text) :
    quotedArgument? allowed (quoted left argument right ++ s) = some (argument, s) := by
  obtain ⟨c, argument, rfl⟩ := List.exists_cons_of_ne_nil hne
  obtain ⟨⟨-, hallowed⟩, hargument⟩ := List.forall_mem_cons.mp hargument
  have htext : quoted left (c :: argument) right ++ s =
      left :: c :: (argument ++ right :: ')' :: s) := by
    simp [quoted]
  rw [htext, quotedArgument?, hleft, hallowed, untilQuoteEnd?_append hright hargument]
  rfl

/-- The empty argument goes on up to the next quote with a parenthesis behind it. -/
theorem quotedArgument?_empty (hleft : isQuote left = true)
    (hallowed : allowed right = true ∧ allowed ')' = true) {front : Text}
    (hfront : ∀ c ∈ front, isQuote c = false ∧ allowed c = true) {q : Char}
    (hq : isQuote q = true) (s : Text) :
    quotedArgument? allowed (quoted left [] right ++ (front ++ q :: ')' :: s)) =
      some (right :: ')' :: front, s) := by
  have hclose : isQuote ')' = false ∧ allowed ')' = true := ⟨rfl, hallowed.2⟩
  have hread := untilQuoteEnd?_append hq (List.forall_mem_cons.mpr ⟨hclose, hfront⟩) s
  show (if (isQuote left && allowed right) = true then
    (untilQuoteEnd? allowed (')' :: front ++ q :: ')' :: s)).map _ else none) = _
  rw [hleft, hallowed.1, hread]
  rfl

/-- At the end of a text, the empty argument is none. -/
theorem quotedArgument?_empty_eq_none :
    quotedArgument? allowed (quoted left [] right) = none := by
  show (if (isQuote left && allowed right) = true then
    (untilQuoteEnd? allowed [')']).map _ else none) = none
  have hread : untilQuoteEnd? allowed [')'] = none := by
    rw [untilQuoteEnd?]
    simp [isQuote, untilQuoteEnd?]
  rw [hread]
  exact ite_self none

end Reading

/-- An argument that is read as it stands. -/
structure QuotedArgument (allowed : Char → Bool) where
  /-- The quote before the argument. -/
  left : Char
  /-- What stands between the quotes. -/
  argument : Text
  /-- The quote behind the argument. -/
  right : Char
  isQuote_left : isQuote left = true
  isQuote_right : isQuote right = true
  ne_nil : argument ≠ []
  plain : ∀ c ∈ argument, isQuote c = false ∧ allowed c = true

namespace QuotedArgument

variable {allowed : Char → Bool}

/-- The text that is written. -/
def text (q : QuotedArgument allowed) : Text :=
  quoted q.left q.argument q.right

/-- The argument as a name. -/
def name (q : QuotedArgument allowed) : String :=
  String.ofList q.argument

/-- An argument that is written is read, whatever follows. -/
theorem read_text (q : QuotedArgument allowed) (s : Text) :
    quotedArgument? allowed (q.text ++ s) = some (q.argument, s) :=
  quotedArgument?_quoted q.isQuote_left q.isQuote_right q.ne_nil q.plain s

end QuotedArgument

/-! ## Directives with an argument in their line -/

section Directives

variable {start s : Text}

/-- What the directive begins with is read before its argument. -/
theorem argumentReader_append (start s : Text) :
    (argumentReader start).read (start ++ s) = quotedArgument? isInLine s := by
  show (Text.after? start (start ++ s)).bind _ = _
  rw [Text.after?_append, Option.bind_some]

/-- Without what the directive begins with, nothing is read. -/
theorem argumentReader_eq_none (h : Text.after? start s = none) :
    (argumentReader start).read s = none :=
  bind_after?_eq_none h _

/-- A directive with an argument in its line, as it is written. -/
def QuotedArgument.directive (start : Text) (q : QuotedArgument isInLine) : Text :=
  start ++ q.text

/-- A directive that is written is read up to its end, whatever follows. -/
theorem QuotedArgument.read_directive (start : Text) (q : QuotedArgument isInLine) (s : Text) :
    (argumentReader start).read (q.directive start ++ s) = some (q.argument, s) := by
  rw [directive, List.append_assoc, argumentReader_append]
  exact q.read_text s

end Directives

end HtmlViews
