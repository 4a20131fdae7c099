import HtmlViews.Dict
import HtmlViews.Text.Basic

/-!
# Trees of files

A folder is a dictionary of entries, so names in it ascend and stand once, and the files of a tree
are listed in one order, whatever order they were put in. A file holds bytes, which need not be a
text. There are no permissions, links or times. Rows of names lead from the folder at the top to a
place; steps that stay or lead back are resolved before.

* **FileTree** — a file, or a folder with what is in it.
* **FileTree.find?** — what stands at the end of a row of names.
* **FileTree.put**, **FileTree.erase** — an entry put in place or taken away.
* **FileTree.files** — all files of a tree.
-/

namespace HtmlViews

/-- What stands at a place: a file or a folder. -/
inductive FileTree where
  /-- A file with its content. -/
  | file (bytes : ByteArray)
  /-- A folder with what is in it. -/
  | folder (entries : Dict FileTree)

namespace FileTree

/-- A folder in which there is nothing. -/
def nothing : FileTree :=
  .folder .empty

/-! ## Looking up -/

/-- What stands at the end of a row of names, if every name is there. -/
def find? : (names : List Text) → FileTree → Option FileTree
  | [], t => some t
  | _ :: _, .file _ => none
  | name :: names, .folder entries =>
    match entries.find? (String.ofList name) with
    | none => none
    | some t => find? names t

/-! ## Changing -/

/-- A tree with another one at the end of a row of names. Missing folders are made. -/
def put (new : FileTree) : (names : List Text) → FileTree → FileTree
  | [], _ => new
  | name :: names, t =>
    let entries : Dict FileTree := match t with
      | .file _ => .empty
      | .folder entries => entries
    let name := String.ofList name
    .folder (entries.insert name (put new names ((entries.find? name).getD nothing)))

/-- A tree without what stands at the end of a row of names. The folders on the way stay. -/
def erase : (names : List Text) → FileTree → FileTree
  | _, .file bytes => .file bytes
  | [], .folder entries => .folder entries
  | name :: names, .folder entries =>
    let name := String.ofList name
    match entries.find? name with
    | none => .folder entries
    | some t =>
      .folder (if names = [] then entries.erase name else entries.insert name (erase names t))

/-! ## Listing -/

mutual

/-- The names on the way to every file of a tree, in the order of the names. -/
def files : FileTree → List (List Text)
  | .file _ => [[]]
  | .folder ⟨entries⟩ => filesOf entries

/-- The names on the way to every file in the entries of a folder. -/
def filesOf {before : Option String} : Dict.Row FileTree before → List (List Text)
  | .nil => []
  | .cons name t _ entries => (files t).map (name.toList :: ·) ++ filesOf entries

end

end FileTree

end HtmlViews
