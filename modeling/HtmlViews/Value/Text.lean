import HtmlViews.Text.Blank
import HtmlViews.Value.Basic

/-!
# Values as text and as numbers

A value has two texts. In a page, a string stands without quotes and null leaves nothing; inside of
an object everything is JSON, strings in quotes and null by its name, since an object is shown as
data. A list is in between: it has brackets, and its items are written as they would stand in a
page. Neither text is escaped for HTML.

Which values stand for numbers is decided by what they spell: a string is read as a number without
the blanks around it, and it may also spell an infinity.

* **Value.compact** — a value written as JSON without any blanks.
* **Value.render** — the text that a value leaves in a page.
* **Value.toBinary64?** — the number that a value stands for in comparisons.
* **jsonString** — a string in quotes with its escapes.
-/

namespace HtmlViews

/-- One of the sixteen hexadecimal digits, in small letters. -/
def hexDigit (n : Nat) : Char :=
  Nat.digitChar (n % 16)

/-- A character inside a quoted JSON string: quotes, backslashes and control characters are
written as escapes. -/
def jsonChar (c : Char) : Text :=
  if c = '"' then ['\\', '"']
  else if c = '\\' then ['\\', '\\']
  else if c = '\x08' then ['\\', 'b']
  else if c = '\x0c' then ['\\', 'f']
  else if c = '\n' then ['\\', 'n']
  else if c = '\r' then ['\\', 'r']
  else if c = '\t' then ['\\', 't']
  else if c.toNat < 0x20 then ['\\', 'u', '0', '0', hexDigit (c.toNat / 16), hexDigit c.toNat]
  else [c]

/-- A string as a quoted JSON string. -/
def jsonString (s : String) : Text :=
  '"' :: s.toList.flatMap jsonChar ++ ['"']

/-- The text of a truth value. -/
def truthText (b : Bool) : Text :=
  if b then "true".toList else "false".toList

namespace Value

mutual

/-- A value as JSON without blanks; objects list their fields in the order of the names. -/
def compact : Value → Text
  | .null => "null".toList
  | .bool b => truthText b
  | .number n => n.text
  | .str s => jsonString s
  | .array items => '[' :: Text.joinWith [','] (compactItems items) ++ [']']
  | .object ⟨fields⟩ => '{' :: Text.joinWith [','] (compactFields fields) ++ ['}']

/-- The items of a list as JSON. -/
def compactItems : List Value → List Text
  | [] => []
  | x :: xs => compact x :: compactItems xs

/-- The fields of an object as JSON. -/
def compactFields {before : Option String} : Dict.Row Value before → List Text
  | .nil => []
  | .cons k x _ fields => (jsonString k ++ ':' :: compact x) :: compactFields fields

end

mutual

/-- The text of a value in a page: strings as they are, null as nothing, lists in brackets, objects
as JSON. -/
def render : Value → Text
  | .null => []
  | .bool b => truthText b
  | .number n => n.text
  | .str s => s.toList
  | .array items => '[' :: Text.joinWith [',', ' '] (renderItems items) ++ [']']
  | .object fields => compact (.object fields)

/-- The texts of the items of a list in a page. -/
def renderItems : List Value → List Text
  | [] => []
  | x :: xs => render x :: renderItems xs

end

/-- The number that a value stands for in a comparison: numbers themselves, strings that spell one,
truth values as `1` and `0`, null as `0`; collections stand for none. -/
def toBinary64? : Value → Option Binary64
  | .null => some (.zero false)
  | .bool b => some (.ofInt (if b then 1 else 0))
  | .number n => some n.toBinary64
  | .str s => Binary64.read? (Text.trim s.toList)
  | .array _ => none
  | .object _ => none

end Value

end HtmlViews
