import HtmlViews.Directive.Argument
import HtmlViews.Directive.Variable
import HtmlViews.Log
import HtmlViews.Session.Store

/-!
# Messages

`@message('name') … @endmessage` shows its body if a message waits under that name. The message is
consumed; it stands in the place of the placeholder `message` in the body.

What a block shows is not searched for message blocks again; the message is put in as it is. A block
whose message does not wait leaves nothing, and its body is lost with it. Taking a message is
written to the log; a search for one that does not wait is not.

The name may be of any characters, also of several lines, and the two quotes around it need not be
equal.

* **Message.Block** — the name and the body of such a directive.
* **Message.expand** — a text with these directives replaced.
-/

namespace HtmlViews.Message

/-- A directive with the name of its message and its body. -/
structure Block where
  /-- The name that the message waits under. -/
  name : Text
  /-- What is shown if it does. -/
  body : Text
deriving DecidableEq, Repr

/-- The block that a text begins with, and what follows it. Its body ends at the first end mark. -/
def Block.read? (s : Text) : Option (Block × Text) := do
  let s ← Text.after? "@message(".toList s
  let (name, s) ← quotedArgument? (fun _ => true) s
  let (body, r) ← Text.cut? "@endmessage".toList s
  pure (⟨name, body⟩, r)

/-- The reader of message blocks. -/
def reader : Reader Block where
  read := Block.read?
  shorter h := by
    simp only [Block.read?, Option.bind_eq_bind, Option.bind_eq_some_iff, Option.pure_def,
      Option.some.injEq, Prod.exists, Prod.mk.injEq] at h
    obtain ⟨a, ha, n, b, hb, t, c, hc, -, rfl⟩ := h
    have := Text.length_of_after? ha
    have := length_of_quotedArgument? hb
    have := Text.length_of_cut? hc
    omega

/-- The body of a block with its message in place. -/
def Block.fill (b : Block) (message : String) : Text :=
  Text.expand (markerReader "message".toList) (fun _ => message.toList) b.body

/-- What a block shows, with the store that is left. -/
def Block.show (b : Block) : StateT Store Logged Text := fun store =>
  let name := String.ofList b.name
  match store.takeMessage name with
  | (some message, store) => do
    Logged.write (.consumedMessage name)
    pure (b.fill message, store)
  | (none, store) => pure ([], store)

/-- A text with its message blocks replaced; each consumes its message. -/
def expand : Text → StateT Store Logged Text :=
  Text.expandM reader Block.show

end HtmlViews.Message
