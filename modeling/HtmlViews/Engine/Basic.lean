import HtmlViews.Config
import HtmlViews.Dict
import HtmlViews.Failure
import HtmlViews.Template

/-!
# Engines

An engine holds the templates by their names and the settings that directives read.

Views, layouts and components are templates alike and lie in one dictionary; a component is the
template of its name below the folder of the components. A template has a file, or it was given as a
text, and a reload drops those with a file. Changing an engine changes the templates and settings of
later renders only, because a render has the engine as a value.

How deeply components may be nested is set at the engine and handed to every call stack that a
render begins with. It is thirty-two unless it is set.

* **Engine** — templates, settings, and how deeply components may be nested.
* **Engine.template?**, **Engine.component?** — a template looked up.
* **Engine.add**, **Engine.addAll** — templates given as texts.
* **Engine.get** — the same, with the failure that there is none.
* **Engine.setConfig**, **Engine.setMaxDepth** — other settings, another limit.
-/

namespace HtmlViews

/-- The templates of a site with its settings. -/
structure Engine where
  /-- The pattern of the files that the templates were read from, if they were. -/
  glob : Option Text := none
  /-- The templates under their names. -/
  templates : Dict Template := .empty
  /-- The settings. -/
  config : Config := .empty
  /-- How many components may be nested. -/
  maxDepth : Nat := 32

namespace Engine

/-- The engine without templates and settings. -/
def empty : Engine :=
  {}

instance : Inhabited Engine :=
  ⟨empty⟩

/-! ## Looking up -/

/-- The template with a name. -/
def template? (e : Engine) (name : String) : Option Template :=
  e.templates.find? name

/-- The template of the component with a name. -/
def component? (e : Engine) (name : Text) : Option Template :=
  e.template? (String.ofList (componentTemplate name))

/-- The template with a name, or the failure that there is none. -/
def get (e : Engine) (name : String) : Except Failure Template :=
  match e.template? name with
  | some t => .ok t
  | none => .error (.templateNotFound name)

/-- The names of all templates, ascending. -/
def names (e : Engine) : List String :=
  e.templates.keys

/-! ## Changing -/

/-- The engine with a template that has no file, in the place of one with the same name. -/
def add (e : Engine) (name source : String) : Engine :=
  { e with templates := e.templates.insert name { name, path := none, source } }

/-- The engine with several such templates put in one after the other. -/
def addAll (e : Engine) (sources : List (String × String)) : Engine :=
  sources.foldl (fun e (name, source) => e.add name source) e

/-- The engine with other settings. -/
def setConfig (e : Engine) (config : Config) : Engine :=
  { e with config }

/-- The engine with another limit to nesting. -/
def setMaxDepth (e : Engine) (maxDepth : Nat) : Engine :=
  { e with maxDepth }

end Engine

end HtmlViews
