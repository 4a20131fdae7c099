import HtmlViews.Text.Blank

/-!
# Quotes

Both quotes count alike wherever a directive is read, and most directives do not ask that the two
around an argument be equal. To take quotes off the ends of a text is a matter of its ends only: it
takes all of them, in any number and mixture, whether or not they belong together.

* **isQuote** — the two characters that quote text in directives.
* **Text.unquote** — a text without the blanks and quotes around it.
-/

namespace HtmlViews

/-- Whether a character is a single or a double quote. -/
def isQuote (c : Char) : Bool :=
  c = '\'' || c = '"'

namespace Text

/-- A text without surrounding blanks, then without any quotes at both ends, then without the
blanks that stood inside those quotes. -/
def unquote (s : Text) : Text :=
  trim (strip isQuote (trim s))

end Text

end HtmlViews
