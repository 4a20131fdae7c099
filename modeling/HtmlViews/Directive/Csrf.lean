import HtmlViews.Session.CsrfToken
import HtmlViews.Text.Piece

/-!
# Token fields

`@csrf()` stands for the hidden form field with the current token.

All directives of one text get the same token. Asking for a token may issue a new one, so the search
comes first, and a text without directives does not ask. The token is escaped where the field is
written.

* **Csrf.expand** — a text with these directives replaced.
-/

namespace HtmlViews.Csrf

/-- The directive itself. -/
def directive : Text :=
  "@csrf()".toList

/-- A text with the token field in the place of its directives. The provider is asked once, and
only if there is a directive at all. -/
def expand (s : Text) : StateM CsrfProvider Text := fun provider =>
  if (Text.cut? directive s).isSome then
    let (token, provider) := provider.ask
    (Text.replaceAll directive (csrfField token) s, provider)
  else (s, provider)

end HtmlViews.Csrf
