import HtmlViews.Failure
import HtmlViews.Files.Tree

/-!
# Files

Templates and settings are read from files. A path is followed step by step, from the top if it
begins with a slash and from the working directory otherwise; every step must lead through a folder.

A path is followed like the operating system does it: a dot stays, two dots lead back to the folder
above and not above the top, and to go on behind a file is an error even if the next step is a dot.
Names and paths have the usual greatest lengths, in bytes. A path is checked as a whole before the
first step, for being empty, too long, or unable to be a path at all.

Every file may be read, every folder may be searched, names are texts, and nothing is a link to
something else; so a file is unreadable for want of its name, of a folder on the way, or of text in
it. A write that cannot be done changes no file, but the folders that were made for it stay, as they
do when the folders are made before the file is written.

* **Files** — all files, with the place of the working directory.
* **Files.resolve** — the names on the direct way to what a path leads to.
* **Files.read** — the text of a file.
* **Files.write**, **Files.remove** — a file put in place or taken away.
* **Files.find**, **Files.contentAt** — what a path leads to, and the text in it or why there is
  none.
-/

namespace HtmlViews

/-- What the operating system says about a file that cannot be read. -/
def IoKind.report : IoKind → String
  | .notFound => "No such file or directory (os error 2)"
  | .permissionDenied => "Permission denied (os error 13)"
  | .isADirectory => "Is a directory (os error 21)"
  | .notADirectory => "Not a directory (os error 20)"
  | .invalidData => "stream did not contain valid UTF-8"
  | .invalidInput => "file name contained an unexpected NUL byte"
  | .invalidFilename => "File name too long (os error 36)"

/-! ## Steps of paths -/

/-- Whether a step of a path stays where it is. -/
def staysHere (step : Text) : Bool :=
  step = [] || step = ['.']

/-- Whether a step of a path leads back to the folder above. -/
def leadsBack (step : Text) : Bool :=
  step = ['.', '.']

/-- Whether a step of a path is the name of an entry. -/
def isName (step : Text) : Bool :=
  !staysHere step && !leadsBack step

/-- The longest name that an entry can have, in bytes. -/
def longestName : Nat :=
  255

/-- The length that a path must stay below, in bytes. -/
def pathBound : Nat :=
  4096

/-- Why a path leads nowhere, whatever files there are; none for a path that may lead somewhere. -/
def pathFault? (path : Text) : Option IoKind :=
  if path.contains '\x00' then some .invalidInput
  else if path = [] then some .notFound
  else if pathBound ≤ Text.utf8Length path then some .invalidFilename
  else none

/-- The absolute path of the names from the top. -/
def absolutePath (names : List Text) : Text :=
  '/' :: Text.joinWith ['/'] names

/-- All files, with the place of the working directory. -/
structure Files where
  /-- The names on the way from the top to the working directory. -/
  working : List Text
  /-- The folder at the top. -/
  tree : FileTree

namespace Files

/-- A working directory in which there is nothing. -/
def new (working : List Text) : Files :=
  { working, tree := .put .nothing working .nothing }

/-! ## Following paths -/

/-- The names of the folder in which a path begins. -/
def start (files : Files) (path : Text) : List Text :=
  if path.head? = some '/' then [] else files.working

/-- The names of the place that one step leads to. There is nothing above the top. -/
def step (files : Files) (names : List Text) (step : Text) : Except IoKind (List Text) :=
  match files.tree.find? names with
  | none => .error .notFound
  | some (.file _) => .error .notADirectory
  | some (.folder entries) =>
    if staysHere step then .ok names
    else if leadsBack step then .ok names.dropLast
    else if longestName < Text.utf8Length step then .error .invalidFilename
    else if entries.contains (String.ofList step) then .ok (names ++ [step])
    else .error .notFound

/-- The names on the direct way to what a path leads to. -/
def resolve (files : Files) (path : Text) : Except IoKind (List Text) :=
  match pathFault? path with
  | some kind => .error kind
  | none => (Text.splitOn '/' path).foldlM files.step (files.start path)

/-- What a path leads to. -/
def find (files : Files) (path : Text) : Except IoKind FileTree := do
  let names ← files.resolve path
  match files.tree.find? names with
  | some t => .ok t
  | none => .error .notFound

/-! ## Reading -/

/-- The text of the file at a path, or why it cannot be read. -/
def contentAt (files : Files) (path : Text) : Except IoKind String := do
  match ← files.find path with
  | .folder _ => .error .isADirectory
  | .file bytes =>
    match String.fromUTF8? bytes with
    | none => .error .invalidData
    | some s => .ok s

/-- The text of the file at a path, or the failure to read it. -/
def read (files : Files) (path : Text) : Except Failure String :=
  (files.contentAt path).mapError fun kind =>
    .io (String.ofList path) kind kind.report

/-! ## Changing -/

/-- The files with every folder on the way from `names` along some steps, and the names at the end
of that way. Missing folders are made; where something else stands in the way there is no end, but
the folders that were made before stay. -/
def makeWay (files : Files) (names : List Text) : (steps : List Text) → Files × Option (List Text)
  | [] =>
    match files.tree.find? names with
    | some (.folder _) => (files, some names)
    | _ => (files, none)
  | s :: steps =>
    match files.step names s with
    | .ok names => makeWay files names steps
    | .error .notFound =>
      let names := names ++ [s]
      makeWay { files with tree := .put .nothing names files.tree } names steps
    | .error _ => (files, none)

/-- The files with one at a path, in the place of a file that stands there. Missing folders on the
way are made. A path that does not end with a name, or that ends at a folder, changes no file. -/
def write (files : Files) (path : Text) (bytes : ByteArray) : Files :=
  let steps := Text.splitOn '/' path
  let name := steps.getLastD []
  if (pathFault? path).isSome then files
  else
    let way := (steps.filter fun s => !staysHere s).dropLast
    match files.makeWay (files.start path) way with
    | (files, none) => files
    | (files, some names) =>
      if !isName name || longestName < Text.utf8Length name then files
      else
        match files.tree.find? (names ++ [name]) with
        | some (.folder _) => files
        | _ => { files with tree := .put (.file bytes) (names ++ [name]) files.tree }

/-- The files without the one at a path. A path that does not end with a name, or that ends at a
folder, changes nothing. -/
def remove (files : Files) (path : Text) : Files :=
  if !isName ((Text.splitOn '/' path).getLastD []) then files
  else
    match files.resolve path with
    | .error _ => files
    | .ok names =>
      match files.tree.find? names with
      | some (.file _) => { files with tree := files.tree.erase names }
      | _ => files

end Files

end HtmlViews
