import HtmlViews.Text.Basic

/-!
# Blanks

The white space of templates is the Unicode property `White_Space`.

The property is a table of ranges: a character is a blank or it is not, whatever stands around it.
Line feeds, tabs and the separators beyond ASCII are among the blanks, zero-width characters are
not. Where directives allow gaps they allow any blanks; conditions, which have a grammar of their
own, allow only four of them.

* **isBlank** — membership in that property.
* **Text.dropBlanks**, **Text.trim**, **Text.trimEnd** — a text without the blanks of its ends.
-/

namespace HtmlViews

/-- The code point ranges of the Unicode property `White_Space`, ends included. -/
def blankRanges : List (Nat × Nat) :=
  [(0x9, 0xd), (0x20, 0x20), (0x85, 0x85), (0xa0, 0xa0), (0x1680, 0x1680), (0x2000, 0x200a),
   (0x2028, 0x2029), (0x202f, 0x202f), (0x205f, 0x205f), (0x3000, 0x3000)]

/-- Whether a character is white space. -/
def isBlank (c : Char) : Bool :=
  blankRanges.any fun (first, last) => first ≤ c.toNat && c.toNat ≤ last

namespace Text

/-- A text without its leading blanks. -/
def dropBlanks (s : Text) : Text :=
  s.dropWhile isBlank

/-- A text without its trailing blanks. -/
def trimEnd (s : Text) : Text :=
  dropEnd isBlank s

/-- A text without the blanks of both ends. -/
def trim (s : Text) : Text :=
  strip isBlank s

/-- Without the blanks in front a text is no longer. -/
theorem length_dropBlanks_le (s : Text) : (dropBlanks s).length ≤ s.length :=
  (List.dropWhile_suffix isBlank).length_le

end Text

end HtmlViews
