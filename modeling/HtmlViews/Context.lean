import HtmlViews.Failure
import HtmlViews.Value.Text

/-!
# Contexts

A view is rendered in a context: values under names.

A context is a dictionary of values and nothing more: names are looked up as they are, without paths
into values. Directives read it and never change it, so one context serves a whole pass of a render;
a component has its parameters as its context and sees nothing of the one around it.

Data that are no object have no names and make no context. Keys of data may be values of other
kinds; those that have a text become that name, of two keys with one text the later counts, and any
other key is an error.

* **Context** — the values of a render.
* **Context.ofValue** — the fields of an object as a context.
* **Value.ofKeyed** — the object of data whose keys are values, which are turned into names.
-/

namespace HtmlViews

/-- The values that a view is rendered with. -/
abbrev Context := Dict Value

namespace Context

/-- The failure of data that are no object. -/
def notAnObject : Failure :=
  .other "Creating a Context from a Value/Serialize requires it being a JSON object"

/-- The fields of an object as a context; only objects have any. -/
def ofValue : Value → Except Failure Context
  | .object fields => .ok fields
  | _ => .error notAnObject

/-- The text that a context is shown as. -/
def compact (c : Context) : Text :=
  Value.compact (.object c)

/-- Whether two contexts hold the same values under the same names. -/
def same (c d : Context) : Bool :=
  Value.same (.object c) (.object d)

end Context

/-! ## Keys that are values -/

/-- The failure of data with a key that cannot be a name. -/
def keyFailure : Failure :=
  .chain "Failed to convert a value to JSON" "key must be a string" []

/-- The name that a key stands for: strings, numbers and truth values have one. -/
def Value.keyName? : Value → Option String
  | .str s => some s
  | .number n => some (String.ofList n.text)
  | .bool b => some (String.ofList (truthText b))
  | _ => none

/-- The object of a list of entries, of which the last under a name counts. -/
def Value.ofKeyed (entries : List (Value × Value)) : Except Failure Value := do
  let fields ← entries.mapM fun (key, value) =>
    match key.keyName? with
    | some name => .ok (name, value)
    | none => .error keyFailure
  pure (.ofFields fields)

end HtmlViews
