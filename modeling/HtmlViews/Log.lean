import HtmlViews.Failure

/-!
# The log

Whatever a render consumes, wraps or gives up is written to a log.

Lines are kept as events and become texts only where they are shown, so what a render writes can be
stated without its wording. A computation that writes has its lines as a part of its result, and the
lines of a second computation stand behind those of the first. Warnings tell of what was given up,
the other lines of what was done.

* **LogEntry** — one line of the log, as the event that it reports.
* **LogEntry.text** — its wording.
* **Logged** — a result with the lines written while it was computed.
* **LogEntry.level** — how important a line is.
* **Logged.write** — one line, written.
-/

namespace HtmlViews

/-- How important a line of the log is. -/
inductive LogLevel where
  /-- Something in a template or in its data is wrong. -/
  | warning
  /-- Something happened that helps to follow a render. -/
  | debug
deriving DecidableEq, Repr

/-- A line of the log. -/
inductive LogEntry where
  /-- A failure that is shown in the page, or for which a directive was left as it stands. -/
  | failed (f : Failure)
  /-- A failure inside the template with the given name. -/
  | failedIn (f : Failure) (template : String)
  /-- A condition without a truth value, taken to be false. -/
  | takenAsFalse (condition : String) (f : Failure)
  /-- A message was delivered and is gone. -/
  | consumedMessage (name : String)
  /-- The errors of a field were delivered and are gone. -/
  | consumedErrors (field : String)
  /-- A view is rendered. -/
  | view (name : String)
  /-- A component is rendered; `trace` names the templates that it stands in. -/
  | component (name trace : String)
  /-- A view is put into a layout. -/
  | layout (name : String)
  /-- Templates were read from files. -/
  | loaded (count : Nat) (pattern : String)
deriving DecidableEq, Repr

namespace LogEntry

/-- The importance of a line. -/
def level : LogEntry → LogLevel
  | .failed _ | .failedIn _ _ | .takenAsFalse _ _ => .warning
  | .consumedMessage _ | .consumedErrors _ | .view _ | .component _ _ | .layout _ | .loaded _ _ =>
    .debug

/-- The wording of a line. -/
def text : LogEntry → String
  | .failed f => f.message
  | .failedIn f template => f.message ++ " (while rendering `" ++ template ++ "`)"
  | .takenAsFalse condition f =>
    "Condition `" ++ condition ++ "` treated as false: " ++ f.message
  | .consumedMessage name => "Consumed flash message `" ++ name ++ "`"
  | .consumedErrors field => "Consumed validation error of `" ++ field ++ "`"
  | .view name => "Rendering view `" ++ name ++ "`"
  | .component name trace => "Rendering component `" ++ name ++ "` (" ++ trace ++ ")"
  | .layout name => "Wrapping view in layout `" ++ name ++ "`"
  | .loaded count pattern => "Loaded " ++ toString count ++ " templates from `" ++ pattern ++ "`"

end LogEntry

/-- A result with the lines that were written while it was computed. -/
structure Logged (α : Type) where
  /-- The result. -/
  value : α
  /-- The lines, the earliest first. -/
  log : List LogEntry
deriving Repr

namespace Logged

/-- A result for which nothing was written. -/
protected def pure {α : Type} (a : α) : Logged α :=
  ⟨a, []⟩

/-- A computation that goes on with a result; its lines follow. -/
protected def bind {α β : Type} (x : Logged α) (f : α → Logged β) : Logged β :=
  ⟨(f x.value).value, x.log ++ (f x.value).log⟩

instance : Monad Logged where
  pure := Logged.pure
  bind := Logged.bind

/-- A line that is written. -/
def write (e : LogEntry) : Logged Unit :=
  ⟨(), [e]⟩

/-- A value alone is its own value. -/
@[simp] theorem value_pure {α : Type} (a : α) : (pure a : Logged α).value = a :=
  rfl

/-- A value alone writes nothing. -/
@[simp] theorem log_pure {α : Type} (a : α) : (pure a : Logged α).log = [] :=
  rfl

/-- The value of two computations in a row is that of the second one. -/
@[simp] theorem value_bind {α β : Type} (x : Logged α) (f : α → Logged β) :
    (x >>= f).value = (f x.value).value :=
  rfl

/-- Two computations in a row write their lines in this order. -/
@[simp] theorem log_bind {α β : Type} (x : Logged α) (f : α → Logged β) :
    (x >>= f).log = x.log ++ (f x.value).log :=
  rfl

/-- Writing a line writes this line. -/
@[simp] theorem log_write (e : LogEntry) : (write e).log = [e] :=
  rfl

end Logged

end HtmlViews
