import HtmlViews.Session.CsrfToken
import HtmlViews.Session.Store

/-!
# Sessions

A session is what one request hands on to the next: what waits for delivery, and the source of form
tokens. A render has one session and takes from it; to leave messages and errors for the next page
is up to whoever handles the request. What a session is shown as tells nothing of its content, since
tokens and messages are not for everyone.

* **Session** — what a visitor's pages may consume.
* **Session.new** — a session in which nothing waits.
* **Session.shown** — what a session is shown as.
-/

namespace HtmlViews

/-- What the pages of one visitor may consume. -/
structure Session where
  /-- The messages and errors that wait for the next page. -/
  store : Store
  /-- The source of tokens for forms. -/
  csrf : CsrfProvider

/-- A session in which nothing waits. -/
def Session.new (csrf : CsrfProvider) : Session :=
  { store := .empty, csrf }

/-- What a session is shown as: nothing of its content. -/
def Session.shown : String :=
  "Session"

end HtmlViews
