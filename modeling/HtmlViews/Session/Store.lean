import HtmlViews.Dict

/-!
# One-shot stores

A session keeps what a former request left for the next page: messages under names, and errors of
form fields. Both are one-shot: taking them removes them.

A name without a message and a field without errors are not in the dictionaries, except that a field
can be left with an empty list, which is an entry without an error. Taking removes the entry whether
or not there was something to deliver, so a second taking finds nothing. Looking at something does
not take it.

* **Store** — the messages and errors that wait for delivery.
* **Store.flash**, **Store.putErrors**, **Store.addError** — leave something.
* **Store.takeMessage**, **Store.takeError** — deliver and remove it.
* **Store.peekMessage**, **Store.peekError** — look at what waits.
* **Store.hasErrors** — whether any field has an entry.
-/

namespace HtmlViews

/-- The messages and errors that wait for the next page. -/
structure Store where
  /-- The message under each name. -/
  messages : Dict String := .empty
  /-- The errors of each field, the first one first. -/
  errors : Dict (List String) := .empty
deriving Repr

namespace Store

/-- A store in which nothing waits. -/
def empty : Store :=
  {}

/-! ## Leaving messages and errors -/

/-- Leaves a message; one that waits under the same name is replaced. -/
def flash (s : Store) (name message : String) : Store :=
  { s with messages := s.messages.insert name message }

/-- Leaves the errors of a field in the place of those that wait. -/
def putErrors (s : Store) (field : String) (errors : List String) : Store :=
  { s with errors := s.errors.insert field errors }

/-- Leaves one more error of a field. -/
def addError (s : Store) (field error : String) : Store :=
  { s with errors := s.errors.insert field ((s.errors.find? field).getD [] ++ [error]) }

/-- Drops the errors of all fields. -/
def forgetErrors (s : Store) : Store :=
  { s with errors := .empty }

/-- Whether errors were left for any field. -/
def hasErrors (s : Store) : Bool :=
  !s.errors.isEmpty

/-! ## Delivering -/

/-- The message under a name, which goes on waiting. -/
def peekMessage (s : Store) (name : String) : Option String :=
  s.messages.find? name

/-- The message under a name, and the store without it. -/
def takeMessage (s : Store) (name : String) : Option String × Store :=
  (s.peekMessage name, { s with messages := s.messages.erase name })

/-- The first error of a field, which goes on waiting. -/
def peekError (s : Store) (field : String) : Option String :=
  (s.errors.find? field).bind List.head?

/-- The first error of a field, and the store without any error of that field. -/
def takeError (s : Store) (field : String) : Option String × Store :=
  (s.peekError field, { s with errors := s.errors.erase field })

end Store

end HtmlViews
