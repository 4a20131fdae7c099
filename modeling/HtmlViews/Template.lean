import HtmlViews.Text.Basic

/-!
# Templates

Names are made from paths in one way on all systems: backslashes count as slashes, a beginning that
means the working directory or the top is left out, and so is the ending of HTML files; other
endings stay. Components are templates below a folder of their own, and directives name them without
that folder.

* **Template** — the text of a view, a layout or a component.
* **templateName** — the name that a template has by the path of its file.
* **componentTemplate** — the name of the template of a component.
* **Template.isComponent** — whether components can name it.
-/

namespace HtmlViews

/-- The text of a view, a layout or a component. -/
structure Template where
  /-- The name that the template is asked for by. -/
  name : String
  /-- The path of the file that the text comes from, if there is one. -/
  path : Option String
  /-- The text with its directives. -/
  source : String
deriving DecidableEq, Repr

/-- What the names of component templates begin with. -/
def componentsFolder : Text :=
  "components/".toList

/-- Whether a template is one that components can name. -/
def Template.isComponent (t : Template) : Bool :=
  (Text.after? componentsFolder t.name.toList).isSome

/-- A path without any `./` at its beginning. -/
def dropHere : Text → Text
  | '.' :: '/' :: s => dropHere s
  | s => s

/-- A path without any slash at its beginning. -/
def dropSlashes (s : Text) : Text :=
  s.dropWhile (· = '/')

/-- The name of the template in the file at a path: the path with slashes between its parts,
relative, and without the extension. -/
def templateName (path : Text) : Text :=
  let path := path.map fun c => if c = '\\' then '/' else c
  let path := dropSlashes (dropHere path)
  (Text.before? ".html".toList path).getD path

/-- The name of the template of a component. -/
def componentTemplate (component : Text) : Text :=
  componentsFolder ++ dropSlashes component

end HtmlViews
