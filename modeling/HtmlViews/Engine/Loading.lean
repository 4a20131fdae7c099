import HtmlViews.Engine.Basic
import HtmlViews.Files.Glob
import HtmlViews.Log

/-!
# Loading templates

Templates that have a file are dropped before anything is read, and those that were given as texts
stay, unless a file has the same name. If a file cannot be read, the others are loaded all the same,
and the failure tells of every file that could not. The engine is then left with what could be read:
a load that fails is not undone.

A template is named by the path of its file below the folder of the glob. The ending of HTML files
is no part of the name, so two files can have one name; the one that is found last counts.

* **Engine.addFile** — a template from one file.
* **Engine.load** — the templates of all files that a glob describes.
* **Engine.new** — an engine with these templates.
* **Engine.reload** — an engine whose templates are read once more.
* **Engine.dropFiles**, **Engine.addMatch** — how a load begins, and what one file adds to it.

Files that cannot be read do not keep the others from being loaded, but the loading fails.
-/

namespace HtmlViews.Engine

/-- The engine with the template in a file. Unless a name is given, the template is named by the
path. -/
def addFile (e : Engine) (files : Files) (name : Option String) (path : Text) :
    Except Failure Engine := do
  let source ← files.read path
  let name := name.getD (String.ofList (templateName path))
  pure { e with
    templates := e.templates.insert name { name, path := some (String.ofList path), source } }

/-- The engine without the templates that have a file. -/
def dropFiles (e : Engine) : Engine :=
  { e with templates := e.templates.filter fun _ t => t.path.isNone }

/-- A line for a file that cannot be read, and one for each failure behind that. -/
def problem (f : Failure) : String :=
  f.sources.foldl (fun text source => text ++ "\n" ++ source) ("\n* " ++ f.message)

/-- The engine with the template in a file that a glob describes, and the lines about the files
that cannot be read. -/
def addMatch (files : Files) (state : Engine × String) (m : Glob.Match) : Engine × String :=
  let (e, problems) := state
  match e.addFile files (some (String.ofList (templateName m.below))) m.path with
  | .ok e => (e, problems)
  | .error f => (e, problems ++ problem f)

/-- The failure of a text that describes no files. -/
def noStar (glob : Text) : Failure :=
  .other ("Engine expects a glob as input, no * were found in `" ++ String.ofList glob ++ "`")

/-- The failure of a glob whose pattern spells none. -/
def invalidGlob (glob : Text) (fault : Pattern.Fault) (pattern : Text) : Failure :=
  .chain ("Invalid glob `" ++ String.ofList glob ++ "`")
    ("error parsing glob '" ++ String.ofList (Pattern.lineOf pattern) ++ "': " ++ fault.message) []

/-- The engine with the templates of all files that a glob describes, in the place of those that
have a file. What was loaded before a failure stays. -/
def load (e : Engine) (files : Files) (text : Text) : Logged (Except Failure Unit × Engine) :=
  let e := e.dropFiles
  match Glob.ofText? text with
  | none => pure (.error (noStar text), e)
  | some glob =>
    match glob.find files with
    | .error fault => pure (.error (invalidGlob text fault (glob.search files).pattern), e)
    | .ok found => do
      let (e, problems) := found.foldl (addMatch files) (e, "")
      if problems = "" then do
        Logged.write (.loaded e.templates.size (String.ofList text))
        pure (.ok (), e)
      else pure (.error (.other problems), e)

/-- The engine with the templates of all files that a glob describes. -/
def new (files : Files) (glob : Text) : Logged (Except Failure Engine) := do
  let (result, e) ← { empty with glob := some glob }.load files glob
  pure (result.map fun _ => e)

/-- The failure of an engine that was not made with a glob. -/
def noGlob : Failure :=
  .other "Reloading is only available if you are using a glob"

/-- The engine with the templates of its glob read once more. -/
def reload (e : Engine) (files : Files) : Logged (Except Failure Unit × Engine) :=
  match e.glob with
  | none => pure (.error noGlob, e)
  | some glob => e.load files glob

end HtmlViews.Engine
