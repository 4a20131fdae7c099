import HtmlViews.Text.Basic

/-!
# HTML escapes

Text that is put between tags or into an attribute is escaped: the characters that could end its
place are written as entities. The slash is among them because it helps to close a tag.

Six characters are escaped and all others stay as they are, so a text without them is its own
escape. Escaping is done character by character, also to the ampersands of what already looks like
an entity: escaping a second time would change the text again, if there is anything to escape,
and every text can be got back from its escape.

* **escape** — a text with its special characters as entities.
* **escapeChar** — one character, as it stands in an escaped text.
-/

namespace HtmlViews

/-- The entity of a character that is special in HTML, any other character as it is. -/
def escapeChar : Char → Text
  | '&' => "&amp;".toList
  | '<' => "&lt;".toList
  | '>' => "&gt;".toList
  | '"' => "&quot;".toList
  | '\'' => "&#x27;".toList
  | '/' => "&#x2F;".toList
  | c => [c]

/-- A text with every special character written as its entity. -/
def escape (s : Text) : Text :=
  s.flatMap escapeChar

end HtmlViews
