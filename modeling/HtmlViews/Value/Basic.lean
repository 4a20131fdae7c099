import HtmlViews.Dict
import HtmlViews.Numeric.Number

/-!
# Values

The data that a view is rendered with is JSON-like: null, truth values, numbers, strings, lists and
objects.

An object is a dictionary, so its fields ascend by name and each stands once; two objects that were
put together in different orders are the same value. Numbers keep whether they were written as
integers. Equality of content goes through both values at once, item by item and field by field, and
values of different kinds are never equal by it.

What counts as true is decided by the kind of value first: the string `"0"` counts as false, other
strings that spell zero count as true, and a collection counts as true as soon as it holds anything.

* **Value** — one such datum.
* **Value.same** — equality of content; an integer never equals a number with a fraction part.
* **Value.truthy** — whether a value counts as true in a condition.
* **Value.ofFields** — the object of a list of fields, of which the last under a name counts.
-/

namespace HtmlViews

/-- A datum that templates can show and conditions can test. -/
inductive Value where
  /-- The absent datum. -/
  | null
  /-- A truth value. -/
  | bool (b : Bool)
  /-- A number. -/
  | number (n : Number)
  /-- A string. -/
  | str (s : String)
  /-- A list of data. -/
  | array (items : List Value)
  /-- Data under names. -/
  | object (fields : Dict Value)
deriving Inhabited, Repr

namespace Value

/-- The object with the given fields. -/
def ofFields (fields : List (String × Value)) : Value :=
  .object (.ofList fields)

/-! ## Equality -/

mutual

/-- Whether two values have the same kind and the same content. -/
def same : Value → Value → Bool
  | .null, .null => true
  | .bool a, .bool b => a = b
  | .number m, .number n => m.same n
  | .str s, .str t => s = t
  | .array xs, .array ys => sameItems xs ys
  | .object ⟨es⟩, .object ⟨fs⟩ => sameFields es fs
  | _, _ => false

/-- Whether two lists have the same items in the same order. -/
def sameItems : List Value → List Value → Bool
  | [], [] => true
  | x :: xs, y :: ys => same x y && sameItems xs ys
  | _, _ => false

/-- Whether two rows of fields have the same names with the same values. -/
def sameFields {before before' : Option String} :
    Dict.Row Value before → Dict.Row Value before' → Bool
  | .nil, .nil => true
  | .cons k x _ es, .cons j y _ fs => (k = j && same x y) && sameFields es fs
  | _, _ => false

end

/-! ## Truth -/

/-- Whether a value counts as true: everything but null, `false`, zero, the empty string, `"0"` and
the empty collections. -/
def truthy : Value → Bool
  | .null => false
  | .bool b => b
  | .number n => !n.toBinary64.isZero
  | .str s => s ≠ "" && s ≠ "0"
  | .array items => !items.isEmpty
  | .object fields => !fields.isEmpty

end Value

end HtmlViews
