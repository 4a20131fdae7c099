import HtmlViews.Directive.Argument
import HtmlViews.Log
import HtmlViews.Session.Store
import HtmlViews.Text.Piece

/-!
# Errors of form fields

`@errors('field')` shows the first error that waits for a field. Showing it consumes all errors of
the field, so a second directive for the same field shows nothing.

The errors of a field wait in a list. The first one is shown, and the others are dropped with it. A
field for which nothing waits shows nothing, and this is not written to the log. The error is put in
as it is, without being escaped.

* **Validation.expand** — a text with these directives replaced.
-/

namespace HtmlViews.Validation

/-- The reader of these directives; it finds the field. -/
def reader : Reader Text :=
  argumentReader "@errors(".toList

/-- What the directive for a field shows, with the store that is left. -/
def showField (field : Text) : StateT Store Logged Text := fun store =>
  let name := String.ofList field
  match store.takeError name with
  | (some error, store) => do
    Logged.write (.consumedErrors name)
    pure (error.toList, store)
  | (none, store) => pure ([], store)

/-- A text with its error directives replaced; each consumes the errors of its field. -/
def expand : Text → StateT Store Logged Text :=
  Text.expandM reader showField

end HtmlViews.Validation
