import HtmlViews.Proofs.Engine.Loading

/-!
# Engines that can come about

An engine begins empty or with the templates that a glob describes, and is changed from then on:
templates are added as texts or from files, settings are replaced, and templates are read once more,
each time from the files as they are then. An engine whose glob describes no files cannot be made,
and no change replaces the glob, so the glob of every engine that can come about describes files
(**Engine.Reachable.glob**). That the names of the templates ascend and stand once needs no such
argument, since their dictionary cannot be otherwise.

The proof is an induction on the changes, and for each change it is shown alone that it leaves the
glob as it was. A change that fails, a file that cannot be read or a reload that stops half-way,
leaves an engine as well.

* **Engine.Change** — what can be done to an engine.
* **Engine.Reachable** — the engines that can come about.
* **Engine.Change.glob_apply** — a change leaves the glob as it is.
* **Engine.Reachable.glob** — if there is a glob, it describes files.
-/

namespace HtmlViews.Engine

/-- What can be done to an engine. -/
inductive Change where
  /-- A template is added as a text. -/
  | add (name source : String)
  /-- Several templates are added as texts. -/
  | addAll (sources : List (String × String))
  /-- A template is added from a file. -/
  | addFile (files : Files) (name : Option String) (path : Text)
  /-- The settings are replaced. -/
  | setConfig (config : Config)
  /-- The limit to nesting is replaced. -/
  | setMaxDepth (maxDepth : Nat)
  /-- The templates of the glob are read once more. -/
  | reload (files : Files)

/-- An engine after a change. A file that cannot be read changes nothing; a reload leaves what it
has done, also if it fails. -/
def Change.apply (e : Engine) : Change → Engine
  | .add name source => e.add name source
  | .addAll sources => e.addAll sources
  | .addFile files name path =>
    match e.addFile files name path with
    | .ok e' => e'
    | .error _ => e
  | .setConfig config => e.setConfig config
  | .setMaxDepth maxDepth => e.setMaxDepth maxDepth
  | .reload files => (e.reload files).value.2

/-- The engines that can come about. -/
inductive Reachable : Engine → Prop where
  /-- An engine without templates. -/
  | empty : Reachable .empty
  /-- An engine with the templates of a glob. -/
  | new {files : Files} {glob : Text} {e : Engine}
    (h : (Engine.new files glob).value = .ok e) : Reachable e
  /-- An engine that was changed. -/
  | change {e : Engine} (h : Reachable e) (c : Change) : Reachable (c.apply e)

/-! ## The glob -/

variable {e : Engine}

/-- Whatever comes of loading, the glob stays. -/
theorem glob_load (e : Engine) (files : Files) (text : Text) :
    (e.load files text).value.2.glob = e.glob := by
  cases htext : Glob.ofText? text with
  | none =>
    unfold load
    rw [htext]
    rfl
  | some glob =>
    cases hfound : glob.find files with
    | error fault =>
      rw [load_of_fault htext hfound]
      rfl
    | ok found =>
      rw [(load_of_found htext hfound).1]
      rfl

/-- A reload reads the glob and does not change it. -/
theorem glob_reload (e : Engine) (files : Files) :
    (e.reload files).value.2.glob = e.glob := by
  unfold reload
  split
  case h_1 => rfl
  case h_2 => exact glob_load e files _

/-- Templates that are added as texts come with no glob. -/
theorem glob_addAll (e : Engine) (sources : List (String × String)) :
    (e.addAll sources).glob = e.glob := by
  induction sources generalizing e with
  | nil => rfl
  | cons source sources ih => exact ih (e.add source.1 source.2)

/-- A template that is added from a file comes with no glob. -/
theorem glob_addFile {files : Files} {name : Option String} {path : Text} {e' : Engine}
    (h : e.addFile files name path = .ok e') : e'.glob = e.glob := by
  unfold addFile at h
  cases hread : files.read path with
  | error f =>
    rw [hread] at h
    cases h
  | ok source =>
    rw [hread] at h
    cases h
    rfl

/-- No change replaces the glob. -/
theorem Change.glob_apply (c : Change) (e : Engine) : (c.apply e).glob = e.glob := by
  cases c with
  | add name source => rfl
  | addAll sources => exact glob_addAll e sources
  | addFile files name path =>
    cases hadd : e.addFile files name path with
    | ok e' =>
      simp only [Change.apply, hadd]
      exact glob_addFile hadd
    | error f => simp only [Change.apply, hadd]
  | setConfig config => rfl
  | setMaxDepth maxDepth => rfl
  | reload files => exact glob_reload e files

/-- If an engine that can come about has a glob, it describes files. -/
theorem Reachable.glob (h : Reachable e) :
    e.glob = none ∨ ∃ glob, e.glob.bind Glob.ofText? = some glob := by
  induction h with
  | empty => exact .inl rfl
  | new h =>
    obtain ⟨glob, found, htext, -, -, rfl⟩ := new_eq_ok h
    exact .inr ⟨glob, htext⟩
  | change _ c ih =>
    rw [c.glob_apply]
    exact ih

end HtmlViews.Engine
