/-!
# Failures

What can go wrong while a page is put together, as causes; the wording is in one place.

Of the failures of a render, only nesting too deeply is fatal. It ends the render, because a
component that contains itself would otherwise be shown in every one of its copies; any other
failure is shown in the place of what failed, or is only reported, and the render goes on.

A failure may stand on others, which are kept as texts: nothing but the wording depends on them. Of
the reports of the operating system, not every one can arise from the trees of files that are used
here, in which every file may be read.

* **IoKind** — what the operating system reported about a file.
* **Cause** — what went wrong.
* **Failure** — a cause with the texts of the failures behind it.
* **Failure.message** — the sentence that describes a cause.
* **Failure.isFatal** — whether a failure ends the whole render.
-/

namespace HtmlViews

/-- What the operating system reports about a file that cannot be read. -/
inductive IoKind where
  /-- There is no such file. -/
  | notFound
  /-- The file may not be read. -/
  | permissionDenied
  /-- A directory stands in the place of the file. -/
  | isADirectory
  /-- A file stands in the place of a directory. -/
  | notADirectory
  /-- The content is no UTF-8 text. -/
  | invalidData
  /-- The path holds a character that no path can hold. -/
  | invalidInput
  /-- The path or a name in it is too long. -/
  | invalidFilename
deriving DecidableEq, Repr

/-- The name of a report. -/
def IoKind.name : IoKind → String
  | .notFound => "NotFound"
  | .permissionDenied => "PermissionDenied"
  | .isADirectory => "IsADirectory"
  | .notADirectory => "NotADirectory"
  | .invalidData => "InvalidData"
  | .invalidInput => "InvalidInput"
  | .invalidFilename => "InvalidFilename"

/-- What went wrong. -/
inductive Cause where
  /-- Anything that has no cause of its own below. -/
  | other (text : String)
  /-- A template was asked for that is not loaded. -/
  | templateNotFound (name : String)
  /-- A directive names a component that is not loaded. -/
  | componentNotFound (name : String)
  /-- A layout was asked for that is not loaded. -/
  | layoutNotFound (name : String)
  /-- A directive cannot be read. -/
  | malformedDirective (directive reason : String)
  /-- A condition cannot be read or has no truth value. -/
  | condition (text : String)
  /-- Components are nested more deeply than allowed. -/
  | recursionLimit (name : String) (limit : Nat)
  /-- A file cannot be read. -/
  | io (path : String) (kind : IoKind)
deriving DecidableEq, Repr, Inhabited

/-- A cause, with the texts of the failures that led to it, the nearest first. -/
structure Failure where
  /-- What went wrong. -/
  cause : Cause
  /-- The texts of the failures behind the cause. -/
  sources : List String := []
deriving DecidableEq, Repr, Inhabited

namespace Failure

/-- A failure described by its text alone. -/
def other (text : String) : Failure :=
  { cause := .other text }

/-- A failure described by its text, with the failure behind it. -/
def chain (text source : String) (deeper : List String) : Failure :=
  { cause := .other text, sources := source :: deeper }

/-- The failure of a template that is not loaded. -/
def templateNotFound (name : String) : Failure :=
  { cause := .templateNotFound name }

/-- The failure of a component that is not loaded. -/
def componentNotFound (name : String) : Failure :=
  { cause := .componentNotFound name }

/-- The failure of a layout that is not loaded. -/
def layoutNotFound (name : String) : Failure :=
  { cause := .layoutNotFound name }

/-- The failure of a directive that cannot be read. -/
def malformedDirective (directive reason : String) : Failure :=
  { cause := .malformedDirective directive reason }

/-- The failure of a condition without a truth value. -/
def condition (text : String) : Failure :=
  { cause := .condition text }

/-- The failure of components that are nested more deeply than allowed. -/
def recursionLimit (name : String) (limit : Nat) : Failure :=
  { cause := .recursionLimit name limit }

/-- A file that cannot be read, with the report of the operating system. -/
def io (path : String) (kind : IoKind) (report : String) : Failure :=
  { cause := .io path kind, sources := [report] }

/-- The sentence that describes a failure. -/
def message (f : Failure) : String :=
  match f.cause with
  | .other text => text
  | .templateNotFound name => "Template '" ++ name ++ "' not found"
  | .componentNotFound name => "Component '" ++ name ++ "' not found"
  | .layoutNotFound name => "Layout '" ++ name ++ "' not found"
  | .malformedDirective directive reason =>
    "Malformed directive `@" ++ directive ++ "`: " ++ reason
  | .condition text => "Failed to evaluate condition: " ++ text
  | .recursionLimit name limit =>
    "Rendering component '" ++ name ++ "' would exceed the maximum nesting depth of "
      ++ toString limit
  | .io path kind => "Couldn't read '" ++ path ++ "' (" ++ kind.name ++ ")"

/-- The short name of the kind of failure. -/
def kindName (f : Failure) : String :=
  match f.cause with
  | .other _ => "error"
  | .templateNotFound _ => "template-not-found"
  | .componentNotFound _ => "component-not-found"
  | .layoutNotFound _ => "layout-not-found"
  | .malformedDirective _ _ => "malformed-directive"
  | .condition _ => "expression-evaluation"
  | .recursionLimit _ _ => "recursion-limit-exceeded"
  | .io _ _ => "io"

/-- Whether a failure ends the render; any other is shown in the place where it arose. -/
def isFatal (f : Failure) : Bool :=
  match f.cause with
  | .recursionLimit _ _ => true
  | _ => false

end Failure

end HtmlViews
