import HtmlViews.Value.Text

/-!
# Comparing values

The three operations are what the operators of conditions ask for. Across kinds, values are compared
by their truth beside a truth value or null, as numbers where both stand for one, and otherwise by
their texts in a page; that is never an error. An order asks for more: both sides have to stand for
numbers, or both have to be strings; other pairs have none.

Strings are ordered by the code points of their characters, with no language in mind, unless both of
them spell numbers.

* **Value.looselyEqual** — equality across kinds: by truth, by number or by text.
* **Value.identical** — equality of kind and content, where numbers of both kinds are one kind.
* **Value.compare** — the order of numbers, of texts that spell numbers, and of other texts.
* **Comparison** — the outcome of putting two values in order.
-/

namespace HtmlViews

/-- The outcome of putting two values in order. -/
inductive Comparison where
  /-- The values are in this order. -/
  | ordered (o : Ordering)
  /-- Both values are numbers, but one of them is no number in the numeric order. -/
  | unordered
  /-- The kinds of the values have no common order. -/
  | incomparable
deriving DecidableEq, Repr

namespace Comparison

/-- The outcome of comparing two numbers. -/
def ofNumbers (x y : Binary64) : Comparison :=
  match x.compare? y with
  | some o => .ordered o
  | none => .unordered

/-- The order of two strings by the code points of their characters. -/
def ofStrings (s t : String) : Comparison :=
  .ordered (if s < t then .lt else if s = t then .eq else .gt)

end Comparison

namespace Value

/-- Equality across kinds. A truth value compares with the truth of the other side, null equals
whatever does not count as true, two sides that stand for numbers compare as numbers, and all else
compares by its text in a page. -/
def looselyEqual : Value → Value → Bool
  | .bool b, y => b == y.truthy
  | x, .bool b => x.truthy == b
  | .null, y => !y.truthy
  | x, .null => !x.truthy
  | x, y =>
    match x.toBinary64?, y.toBinary64? with
    | some m, some n => m.same n
    | _, _ => x.render = y.render

/-- Equality of kind and content; all numbers are of one kind and compare numerically. -/
def identical : Value → Value → Bool
  | .number m, .number n => m.toBinary64.same n.toBinary64
  | x, y => x.same y

/-- How two values are ordered. Two strings that both spell numbers are ordered as numbers, other
strings by their characters; any other pair is ordered if both sides stand for numbers. -/
def compare (x y : Value) : Comparison :=
  match x.toBinary64?, y.toBinary64? with
  | some m, some n => .ofNumbers m n
  | _, _ =>
    match x, y with
    | .str s, .str t => .ofStrings s t
    | _, _ => .incomparable

end Value

end HtmlViews
