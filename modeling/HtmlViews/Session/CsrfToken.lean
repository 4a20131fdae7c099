import HtmlViews.Text.Basic
import HtmlViews.Text.Escape

/-!
# CSRF tokens

A form carries a token that a foreign site cannot know. A token lives for a while and is replaced
by a fresh one when it is asked for after that.

A text from a form is valid if it is the token and the token has not expired; at the very end of its
lifetime a token is still valid. To check a text changes nothing and issues no token. Whether it is
the token is decided on bytes, all of which are looked at. A fresh token takes the lifetime of the
one that it replaces.

Where tokens come from is left open: a provider is the row of its answers. Providers that keep one
token, or that count, are two cases of it.

* **CsrfToken** — an issued token with its lifetime.
* **CsrfToken.current** — the token to put into a form.
* **CsrfToken.validate** — whether a text that a form sent back is the current token.
* **CsrfProvider** — whatever answers requests for a token.
* **constantTimeEqual** — equality of bytes without an early end.
* **csrfField** — the hidden field with a token, escaped.

Times are given in milliseconds by the caller, and so are the random bytes of fresh tokens.
-/

namespace HtmlViews

/-- A token that was issued. -/
structure CsrfToken where
  /-- The text that forms carry. -/
  value : String
  /-- When the token was issued. -/
  issuedAt : Nat
  /-- For how long the token is valid. -/
  lifetime : Nat
deriving DecidableEq, Repr

/-- A byte as two hexadecimal digits, in small letters. -/
def byteText (b : UInt8) : Text :=
  [Nat.digitChar (b.toNat / 16), Nat.digitChar (b.toNat % 16)]

/-- Whether two rows of bytes are equal. The time that this takes depends on their lengths only:
the differences of all bytes are gathered before any is looked at. -/
def constantTimeEqual (a b : List UInt8) : Bool :=
  if a.length = b.length then
    (List.zipWith (fun x y => x ^^^ y) a b).foldl (fun gathered x => gathered ||| x) 0 == 0
  else false

namespace CsrfToken

/-- How long a token is valid unless said otherwise: ten minutes. -/
def defaultLifetime : Nat :=
  600000

/-- A fresh token of random bytes. -/
def issue (lifetime now : Nat) (bytes : List UInt8) : CsrfToken :=
  { value := String.ofList (bytes.flatMap byteText), issuedAt := now, lifetime }

/-- Whether a token is older than its lifetime. -/
def expired (t : CsrfToken) (now : Nat) : Bool :=
  t.lifetime < now - t.issuedAt

/-- The token to put into a form, replaced by one of fresh random bytes if it has expired. -/
def current (t : CsrfToken) (now : Nat) (fresh : List UInt8) : String × CsrfToken :=
  let t := if t.expired now then issue t.lifetime now fresh else t
  (t.value, t)

/-- Whether a text is the token and the token has not expired. -/
def validate (t : CsrfToken) (now : Nat) (candidate : String) : Bool :=
  !t.expired now
    && constantTimeEqual t.value.toUTF8.data.toList candidate.toUTF8.data.toList

end CsrfToken

/-! ## Providers -/

/-- Whatever answers requests for a token: the answer to each request in turn. -/
structure CsrfProvider where
  /-- The token that the request with this number gets; the first has the number `0`. -/
  token : Nat → String
  /-- The number of requests so far. -/
  asked : Nat := 0

namespace CsrfProvider

/-- The same token for every request. -/
def constant (token : String) : CsrfProvider :=
  { token := fun _ => token }

/-- A new token for every request: a prefix with the number of the request, counted from one. -/
def counting (start : String) : CsrfProvider :=
  { token := fun n => start ++ toString (n + 1) }

/-- The token for the next request. -/
def ask (p : CsrfProvider) : String × CsrfProvider :=
  (p.token p.asked, { p with asked := p.asked + 1 })

end CsrfProvider

/-! ## The form field -/

/-- The hidden form field that carries a token. -/
def csrfField (token : String) : Text :=
  "<input type=\"hidden\" name=\"csrf_token\" value=\"".toList ++ escape token.toList
    ++ "\" />".toList

end HtmlViews
