import HtmlViews.Directive.Loop
import HtmlViews.Directive.Message
import HtmlViews.Directive.Url
import HtmlViews.Directive.Validation
import HtmlViews.Proofs.Crash.Basic
import HtmlViews.Proofs.Log
import HtmlViews.Proofs.Text.Search

/-!
# Finds taken apart without crashing

Most stages take the parts of what they find by number: the groups of a pattern, in the order of
their parentheses. A number that the pattern does not have, or that of a group which takes no part
in a find, has no text, and to take it crashes. No stage does that.

The readers of these stages give what they find as a record of named parts. Here each reader is
taken with the list of its groups instead (**Reader.capturing**), and the stage takes its parts out
of that list by number. The list is made where the find is made, so the proof has to show only that
the numbers which the stage uses are within it; then the stage does what it does with the record
(**Crashing.expandM_capturing**).

* **Captures** — a find with its groups.
* **Reader.capturing** — a reader of finds with their groups.
* **Crashing.expandM_capturing** — a text whose finds are safely replaced is safely expanded.
* **Variable.checkedSubstitute**, **Loop.checkedExpand**, **Message.checkedExpand**,
  **Url.checkedExpand**, **Validation.checkedExpand** — the stages of this kind.
-/

namespace HtmlViews

/-! ## Groups -/

/-- A find of a pattern. -/
structure Captures where
  /-- Its whole text. -/
  whole : Text
  /-- The texts of its groups; one that takes no part in the find has none. -/
  groups : List (Option Text)

namespace Captures

/-- The text of a group, if it has one. Groups count from one; zero is the whole find. -/
def get? (caps : Captures) : Nat → Option Text
  | 0 => some caps.whole
  | i + 1 => caps.groups[i]?.join

/-- The text of a group that has to have one. -/
def get (caps : Captures) (i : Nat) : Checked Text :=
  Checked.unwrap (caps.get? i)

/-- A group that takes part in a find is taken. -/
theorem get_succ {whole t : Text} {groups : List (Option Text)} {i : Nat}
    (h : groups[i]? = some (some t)) : get ⟨whole, groups⟩ (i + 1) = .ok t := by
  rw [get, get?, h]
  rfl

/-- Neither a group that takes no part nor one that the pattern does not have can be taken. -/
example : get ⟨[], [some ['a'], none]⟩ 1 = .ok ['a'] ∧
    get ⟨[], [some ['a'], none]⟩ 2 = .error .missing ∧
    get ⟨[], [some ['a'], none]⟩ 3 = .error .missing :=
  ⟨rfl, rfl, rfl⟩

end Captures

section Readers

variable {α : Type}

/-- The reader of the same finds with their groups. -/
def Reader.capturing (reader : Reader α) (groups : α → List (Option Text)) : Reader Captures where
  read s := (reader.read s).map fun (a, r) => (⟨s.take (s.length - r.length), groups a⟩, r)
  shorter h := by
    simp only [Option.map_eq_some_iff, Prod.exists, Prod.mk.injEq] at h
    obtain ⟨a, r, h, -, rfl⟩ := h
    exact reader.shorter h

variable {m : Type → Type} [Monad m] [LawfulMonad m] {reader : Reader α}
  {groups : α → List (Option Text)}

/-- A text whose finds are safely replaced by their groups is safely expanded. -/
theorem Crashing.expandM_capturing {f : Captures → Crashing m Text} {g : α → m Text}
    (h : ∀ whole a, f ⟨whole, groups a⟩ = safely (g a)) (s : Text) :
    Text.expandM (reader.capturing groups) f s = safely (Text.expandM reader g s) := by
  fun_induction Text.pieces reader s with
  | case1 => simp
  | case2 c s a r hread ih =>
    have hcapturing : (reader.capturing groups).read (c :: s) =
        some (⟨(c :: s).take ((c :: s).length - r.length), groups a⟩, r) := by
      simp only [Reader.capturing, hread, Option.map_some]
    rw [Text.expandM_of_some hcapturing, Text.expandM_of_some hread, h, ih]
    simp
  | case3 c s hread ih =>
    have hcapturing : (reader.capturing groups).read (c :: s) = none := by
      simp only [Reader.capturing, hread, Option.map_none]
    rw [Text.expandM_cons_of_none hcapturing, Text.expandM_cons_of_none hread, ih, safely_map]

/-- A text whose finds are safely replaced without effects is expanded without effects. -/
theorem Crashing.expandM_capturing_pure {f : Captures → Crashing m Text} {g : α → Text}
    (h : ∀ whole a, f ⟨whole, groups a⟩ = pure (g a)) (s : Text) :
    Text.expandM (reader.capturing groups) f s = pure (Text.expand reader g s) := by
  have hsafe : ∀ whole a, f ⟨whole, groups a⟩ = safely (pure (g a)) := by
    intro whole a
    rw [h, safely_pure]
  rw [expandM_capturing hsafe, Text.expandM_pure, safely_pure]

end Readers

open Crashing

/-! ## Stages without effects -/

section Pure

variable {m : Type → Type} [Monad m]

namespace Variable

/-- The text of the value whose name is the first group, or `absent` when there is none. -/
def checkedTextOf (context : Context) (absent : Text) (caps : Captures) : Crashing m Text := do
  let name ← check (caps.get 1)
  pure (textOf context absent name)

/-- A text with every placeholder replaced by the value of its name, or by nothing. -/
def checkedSubstitute (context : Context) : Text → Crashing m Text :=
  Text.expandM (placeholderReader.capturing fun name => [some name]) (checkedTextOf context [])

/-- A text with every dollar name replaced by its value, or by `null`. -/
def checkedSubstituteSigils (context : Context) : Text → Crashing m Text :=
  Text.expandM (sigilReader.capturing fun name => [some name])
    (checkedTextOf context "null".toList)

/-- The group of a placeholder is there, so its text is what the stage puts in. -/
theorem checkedTextOf_eq [LawfulMonad m] (context : Context) (absent whole name : Text) :
    (checkedTextOf context absent ⟨whole, [some name]⟩ : Crashing m Text) =
      pure (textOf context absent name) := by
  rw [checkedTextOf, Captures.get_succ rfl, check_ok, pure_bind]

/-- Values are put in for placeholders without a crash. -/
theorem checkedSubstitute_eq [LawfulMonad m] (context : Context) (s : Text) :
    (checkedSubstitute context s : Crashing m Text) = pure (substitute context s) :=
  expandM_capturing_pure (checkedTextOf_eq context []) s

/-- Values are put in for names with a dollar sign without a crash. -/
theorem checkedSubstituteSigils_eq [LawfulMonad m] (context : Context) (s : Text) :
    (checkedSubstituteSigils context s : Crashing m Text) = pure (substituteSigils context s) :=
  expandM_capturing_pure (checkedTextOf_eq context _) s

end Variable

namespace Loop

/-- The groups of a loop. -/
def groups (b : Block) : List (Option Text) :=
  [some b.collection, some b.item, some b.body]

/-- What a loop leaves in the page. -/
def checkedRender (context : Context) (caps : Captures) : Crashing m Text := do
  let item ← check (caps.get 2)
  let body ← check (caps.get 3)
  let collection ← check (caps.get 1)
  pure (Block.render context ⟨collection, item, body⟩)

/-- A text with its loops replaced. -/
def checkedExpand (context : Context) : Text → Crashing m Text :=
  Text.expandM (reader.capturing groups) (checkedRender context)

/-- The three groups of a loop are there, so the loop is what the stage makes of it. -/
theorem checkedRender_eq [LawfulMonad m] (context : Context) (whole : Text) (b : Block) :
    (checkedRender context ⟨whole, groups b⟩ : Crashing m Text) = pure (b.render context) := by
  have hitem : Captures.get ⟨whole, groups b⟩ 2 = .ok b.item := Captures.get_succ rfl
  have hbody : Captures.get ⟨whole, groups b⟩ 3 = .ok b.body := Captures.get_succ rfl
  have hcollection : Captures.get ⟨whole, groups b⟩ 1 = .ok b.collection := Captures.get_succ rfl
  simp only [checkedRender, hitem, hbody, hcollection, check_ok, pure_bind]

/-- Loops are replaced without a crash. -/
theorem checkedExpand_eq [LawfulMonad m] (context : Context) (s : Text) :
    (checkedExpand context s : Crashing m Text) = pure (expand context s) :=
  expandM_capturing_pure (checkedRender_eq context) s

end Loop

namespace Url

/-- The URL of the file whose path is the first group. -/
def checkedResolve (base folder : Text) (caps : Captures) : Crashing m Text := do
  let path ← check (caps.get 1)
  pure (resolve base folder path)

/-- A text with the URLs of files in the place of the directives that begin with `start`. -/
def checkedExpand (start base folder : Text) : Text → Crashing m Text :=
  Text.expandM ((argumentReader start).capturing fun path => [some path])
    (checkedResolve base folder)

/-- The group of a path is there, so the address is the one that the stage makes. -/
theorem checkedResolve_eq [LawfulMonad m] (base folder whole path : Text) :
    (checkedResolve base folder ⟨whole, [some path]⟩ : Crashing m Text) =
      pure (resolve base folder path) := by
  rw [checkedResolve, Captures.get_succ rfl, check_ok, pure_bind]

/-- Paths are replaced by addresses without a crash. -/
theorem checkedExpand_eq [LawfulMonad m] (start base folder s : Text) :
    (checkedExpand start base folder s : Crashing m Text) =
      pure (Text.expand (argumentReader start) (resolve base folder) s) :=
  expandM_capturing_pure (checkedResolve_eq base folder) s

end Url

end Pure

/-! ## Stages that consume -/

namespace Message

/-- The message under a name, if one waits there; it is consumed. -/
def take (name : Text) : StateT Store Logged (Option String) := fun store =>
  pure (store.takeMessage (String.ofList name))

/-- What a block shows, with the store that is left. The body is taken only if there is a message.
-/
def checkedShow (caps : Captures) : Crashing (StateT Store Logged) Text := do
  let name ← check (caps.get 1)
  match ← safely (take name) with
  | none => pure []
  | some message => do
    let consumed ← check (caps.get 1)
    safely (StateT.lift (Logged.write (.consumedMessage (String.ofList consumed))))
    let body ← check (caps.get 2)
    pure (Block.fill ⟨name, body⟩ message)

/-- A text with its message blocks replaced; each consumes its message. -/
def checkedExpand : Text → Crashing (StateT Store Logged) Text :=
  Text.expandM (reader.capturing fun b => [some b.name, some b.body]) checkedShow

/-- A block of a message takes the message, and writes a line if there is one. -/
theorem show_eq (b : Block) :
    b.show = (do
      match ← take b.name with
      | none => pure []
      | some message => do
        StateT.lift (Logged.write (.consumedMessage (String.ofList b.name)))
        pure (b.fill message)) := by
  funext store
  dsimp only [Block.show, take, bind, StateT.bind]
  cases store.takeMessage (String.ofList b.name) with
  | mk taken left => cases taken <;> rfl

/-- Both groups of a block are there, so it shows what the stage shows. -/
theorem checkedShow_eq (whole : Text) (b : Block) :
    checkedShow ⟨whole, [some b.name, some b.body]⟩ = safely b.show := by
  have hname : Captures.get ⟨whole, [some b.name, some b.body]⟩ 1 = .ok b.name :=
    Captures.get_succ rfl
  have hbody : Captures.get ⟨whole, [some b.name, some b.body]⟩ 2 = .ok b.body :=
    Captures.get_succ rfl
  simp only [checkedShow, hname, hbody, check_ok, pure_bind]
  rw [show_eq, safely_bind]
  refine bind_congr fun taken => ?_
  cases taken with
  | none => exact (safely_pure []).symm
  | some message => simp

/-- Blocks of messages are replaced without a crash. -/
theorem checkedExpand_eq (s : Text) : checkedExpand s = safely (expand s) :=
  expandM_capturing checkedShow_eq s

end Message

namespace Validation

/-- The first error of a field, if there is one; all errors of the field are consumed. -/
def take (field : Text) : StateT Store Logged (Option String) := fun store =>
  pure (store.takeError (String.ofList field))

/-- What the directive for a field shows, with the store that is left. -/
def checkedShow (caps : Captures) : Crashing (StateT Store Logged) Text := do
  let field ← check (caps.get 1)
  match ← safely (take field) with
  | none => pure []
  | some error => do
    let consumed ← check (caps.get 1)
    safely (StateT.lift (Logged.write (.consumedErrors (String.ofList consumed))))
    pure error.toList

/-- A text with its error directives replaced; each consumes the errors of its field. -/
def checkedExpand : Text → Crashing (StateT Store Logged) Text :=
  Text.expandM (reader.capturing fun field => [some field]) checkedShow

/-- The directive of a field takes its errors, and writes a line if there is a first one. -/
theorem showField_eq (field : Text) :
    showField field = (do
      match ← take field with
      | none => pure []
      | some error => do
        StateT.lift (Logged.write (.consumedErrors (String.ofList field)))
        pure error.toList) := by
  funext store
  dsimp only [showField, take, bind, StateT.bind]
  cases store.takeError (String.ofList field) with
  | mk taken left => cases taken <;> rfl

/-- The group of a field is there, so the directive shows what the stage shows. -/
theorem checkedShow_eq (whole field : Text) :
    checkedShow ⟨whole, [some field]⟩ = safely (showField field) := by
  have hfield : Captures.get ⟨whole, [some field]⟩ 1 = .ok field := Captures.get_succ rfl
  simp only [checkedShow, hfield, check_ok, pure_bind]
  rw [showField_eq, safely_bind]
  refine bind_congr fun taken => ?_
  cases taken with
  | none => exact (safely_pure []).symm
  | some error => simp

/-- Directives of fields are replaced without a crash. -/
theorem checkedExpand_eq (s : Text) : checkedExpand s = safely (expand s) :=
  expandM_capturing checkedShow_eq s

end Validation

end HtmlViews
