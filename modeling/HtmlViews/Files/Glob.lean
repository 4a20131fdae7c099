import HtmlViews.Files
import HtmlViews.Files.Pattern

/-!
# Globs

A glob describes the files that hold templates: the path of a folder, and from the first star on a
pattern of the paths below it.

What is found are files, never folders, and the names of each are matched as one path below the
folder that is searched. The name of a template is the path below the folder of the glob, which can
be another one, if the search began above it; then the names of that folder are taken off again.

The walk through the folders and the matching follow what the library for this documents. Results
about engines do not depend on them: they hold for whatever a search finds.

* **Glob** — a folder with a pattern.
* **Glob.Search** — the folder that is searched for a glob, and the pattern of what is looked for.
* **Glob.find** — the files that a glob describes.
* **Glob.ofText?** — the glob that a text with a star describes.
* **Glob.search** — the search for a glob, given the files.

A folder that exists is taken by its direct absolute path. Braces in a path belong to the pattern as
stars do, so the search begins above the first of them; a relative path that leads nowhere is a
pattern as a whole.
-/

namespace HtmlViews

/-- A folder with a pattern of the paths below it. -/
structure Glob where
  /-- The path of the folder. -/
  base : Text
  /-- The pattern, which begins with a star. -/
  pattern : Text
deriving DecidableEq, Repr

namespace Glob

/-- The glob that a text with a star describes. -/
def ofText? (s : Text) : Option Glob :=
  (Text.cut? ['*'] s).map fun (base, r) => { base, pattern := '*' :: r }

/-! ## Paths -/

/-- A path with another one behind it. -/
def joined (path more : Text) : Text :=
  if path = [] || path.getLast? = some '/' then path ++ more else path ++ '/' :: more

/-- The names of a path. A dot at its beginning is kept. -/
def namesOf (path : Text) : List Text :=
  match Text.splitOn '/' path with
  | ['.'] :: steps => ['.'] :: steps.filter fun s => !staysHere s
  | steps => steps.filter fun s => !staysHere s

/-- A path without the names of another one that it begins with; a path that does not begin with
them stays as it is. -/
def pathBelow (base path : Text) : Text :=
  match (namesOf base).isPrefixOf? (namesOf path) with
  | some names => Text.joinWith ['/'] names
  | none => path

/-! ## Searching -/

/-- Where to search, and what for. -/
structure Search where
  /-- The path of the folder that is searched. -/
  folder : Text
  /-- The pattern of paths below that folder. -/
  pattern : Text
deriving DecidableEq, Repr

/-- Whether a step of a path is a pattern rather than a name. -/
def isPattern (step : Text) : Bool :=
  step.any fun c => c = '*' || c = '{' || c = '}'

/-- The search for a whole path with a pattern in it. -/
def Search.ofPath (path : Text) : Search :=
  if path.head? = some '/' then
    let steps := namesOf path
    { folder := absolutePath (steps.takeWhile fun s => !isPattern s)
      pattern := Text.joinWith ['/'] (steps.dropWhile fun s => !isPattern s) }
  else { folder := ['.'], pattern := path }

/-- The path of the folder: the direct one if there is something, otherwise as it is written. -/
def directBase (g : Glob) (files : Files) : Text :=
  match files.resolve g.base with
  | .ok names => absolutePath names
  | .error _ => g.base

/-- The search for a glob. -/
def search (g : Glob) (files : Files) : Search :=
  .ofPath (joined (g.directBase files) g.pattern)

/-- A file that a glob describes. -/
structure Match where
  /-- The path by which the file is read. -/
  path : Text
  /-- The path below the folder of the glob. -/
  below : Text
deriving DecidableEq, Repr

/-- The files that a glob describes, in the order of their names. Without a folder to search nothing
is found. -/
def find (g : Glob) (files : Files) : Except Pattern.Fault (List Match) := do
  let search := g.search files
  let pattern ← Pattern.parse search.pattern
  match files.find search.folder with
  | .error _ => .ok []
  | .ok (.file _) => .ok []
  | .ok (.folder entries) =>
    .ok (((FileTree.folder entries).files.filter pattern.describes).map fun names =>
      let path := joined search.folder (Text.joinWith ['/'] names)
      { path, below := pathBelow (g.directBase files) path })

end Glob

end HtmlViews
