import HtmlViews.Directive.Message
import HtmlViews.Proofs.Argument.Quoted
import HtmlViews.Proofs.Session.Taking
import HtmlViews.Proofs.Variable.Placeholder

/-!
# Message blocks that are written out

A block shows its body with the message of its name in the places of the placeholders, and takes the
message. So in a page with many blocks the first one of a name shows the message, if there is one,
and the other blocks of that name are gone like those without a message. What is shown is not
searched, whatever the message contains.

What a block shows depends on the store, and the store on the blocks before it. So the page is
computed from left to right with the store that is left behind each block
(**Interleaved.run_expandM_of_mark**): behind some blocks it is the store without the messages of
their names. A block then finds its message if none of those blocks had the same name, whether they
found something or not.

* **Message.Directive** — a block as it is written.
* **Message.Directive.read_text** — a block is read up to its end mark.
* **Message.Block.show_value** — what a block shows and takes.
* **Message.filled_fill** — a body with its message.
* **Message.expand_messages** — a page with its blocks replaced, and the store that is left.
-/

namespace HtmlViews.Message

/-! ## Blocks -/

/-- What a block begins with. -/
def opening : Text :=
  "@message(".toList

/-- The mark that ends a block. -/
def endMark : Text :=
  "@endmessage".toList

/-- A block as it is written. -/
structure Directive where
  /-- The name of the message, between its quotes. -/
  quoted : QuotedArgument fun _ => true
  /-- The body. -/
  body : Text
  endMark_not_infix : ¬ endMark <:+: body

namespace Directive

/-- The text that is written. -/
def text (d : Directive) : Text :=
  opening ++ (d.quoted.text ++ (d.body ++ endMark))

/-- The block that is read. -/
def block (d : Directive) : Block :=
  { name := d.quoted.argument, body := d.body }

/-- The name that the message waits under. -/
def name (d : Directive) : String :=
  d.quoted.name

/-- A block that is written is read up to its end, whatever follows. -/
theorem read_text (d : Directive) (s : Text) : reader.read (d.text ++ s) = some (d.block, s) := by
  have hcut : Text.cut? endMark (d.body ++ (endMark ++ s)) = some (d.body, s) :=
    Text.cut?_of_not_infix rfl (by decide) d.endMark_not_infix s
  have htext : d.text ++ s = opening ++ (d.quoted.text ++ (d.body ++ (endMark ++ s))) := by
    simp only [text, List.append_assoc]
  show Block.read? (d.text ++ s) = _
  rw [htext, Block.read?]
  show (Text.after? opening _).bind _ = _
  rw [Text.after?_append]
  show (quotedArgument? _ _).bind _ = _
  rw [d.quoted.read_text]
  show (Text.cut? endMark _).bind _ = _
  rw [hcut]
  rfl

end Directive

/-- The message takes the places of all its placeholders in a body, as it is, and nothing else of
the body is changed. -/
theorem filled_fill (b : Block) (message : String) :
    Filled (fun m : Marker "message".toList => m.text) (fun _ => message.toList) b.body
      (b.fill message) :=
  ((recognises_marker "message".toList).filled_iff fun _ => message.toList).mpr rfl

/-! ## Delivery -/

/-- A block whose message waits shows its body with it, and reports that it is gone. -/
theorem Block.show_of_some {block : Block} {store : Store} {message : String}
    (h : store.peekMessage (String.ofList block.name) = some message) :
    block.show store = ⟨(block.fill message, (store.takeMessage (String.ofList block.name)).2),
      [.consumedMessage (String.ofList block.name)]⟩ := by
  simp only [Block.show, Store.takeMessage, h]
  rfl

/-- A block whose message is not there shows nothing and writes nothing. -/
theorem Block.show_of_none {block : Block} {store : Store}
    (h : store.peekMessage (String.ofList block.name) = none) :
    block.show store = ⟨([], (store.takeMessage (String.ofList block.name)).2), []⟩ := by
  simp only [Block.show, Store.takeMessage, h]
  rfl

/-- A block shows the message that it takes, or nothing. -/
theorem Block.show_value (block : Block) (store : Store) :
    (block.show store).value =
      ((store.takeMessage (String.ofList block.name)).1.elim [] block.fill,
        (store.takeMessage (String.ofList block.name)).2) := by
  show _ = ((store.peekMessage (String.ofList block.name)).elim [] block.fill, _)
  cases h : store.peekMessage (String.ofList block.name) with
  | none => rw [show_of_none h, Option.elim_none]
  | some message => rw [show_of_some h, Option.elim_some]

/-! ## Pages -/

/-- A page of blocks and texts without the beginning of one. -/
abbrev Page : Type :=
  Interleaved (fun t => ¬ opening <:+: t) Directive

/-- The message for a block behind other blocks: the one that waits under its name, if none of those
has the same name. -/
def message? (store : Store) (earlier : List Directive) (d : Directive) : Option String :=
  if d.name ∈ earlier.map Directive.name then none else store.peekMessage d.name

/-- What a block shows behind other blocks: its body with its message, or nothing. -/
def shown (store : Store) (earlier : List Directive) (d : Directive) : Text :=
  (message? store earlier d).elim [] d.block.fill

/-- What a block shows and leaves behind other blocks. -/
theorem show_behind (store : Store) (earlier : List Directive) (d : Directive) :
    ((d.block.show).run (store.withoutMessages (earlier.map Directive.name))).value =
      (shown store earlier d, store.withoutMessages ((earlier ++ [d]).map Directive.name)) := by
  show (d.block.show (store.withoutMessages (earlier.map Directive.name))).value = _
  rw [Block.show_value, Store.takeMessage_withoutMessages, List.map_append]
  rfl

/-- **Expanding a page keeps its texts and delivers each message once**: the first block of each
name shows its body with the message that waits under this name, as it is in the places of all
placeholders, and every block without a message shows nothing. Afterwards the messages under the
names of all blocks are gone from the store, and nothing else is. -/
theorem expand_messages (p : Page) (store : Store) :
    ((expand (p.text Directive.text)).run store).value =
        (p.textBehind (shown store), store.withoutMessages (p.directives.map Directive.name)) ∧
      ∀ (b : Block) (message : String),
        Filled (fun m : Marker "message".toList => m.text) (fun _ => message.toList) b.body
          (b.fill message) := by
  have hnone : ∀ s, Text.after? opening s = none → reader.read s = none :=
    fun _ hs => bind_after?_eq_none hs _
  have hbegins : ∀ d : Directive, opening <+: d.text := fun d => List.prefix_append _ _
  have hrun := p.run_expandM_of_mark rfl (by decide) hnone hbegins Directive.read_text
    (show_behind store)
  rw [List.map_nil, Store.withoutMessages_nil] at hrun
  exact ⟨hrun, filled_fill⟩

end HtmlViews.Message
