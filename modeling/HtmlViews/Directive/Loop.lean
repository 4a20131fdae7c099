import HtmlViews.Directive.Variable

/-!
# Loops

`@foreach collection as item … @endforeach` repeats its body for every element of a collection: the
items of a list in their order, or the values of an object in the order of its keys. In the body,
`item.key` between double braces and single spaces stands for a field of an element that is an
object, and `item.value` for any other element.

A loop does not nest: its body ends at the first end mark, whatever stands in between. The body is
repeated as a text, and further directives in it are left to the later stages, which see the
repetitions one after the other. What is no collection, and a name without a value, has no elements,
and the loop leaves nothing.

For an object the fields are put in one after the other, each in the text that the ones before it
have left, so a value that spells the placeholder of a later field is filled in turn. The
placeholders of fields that the element does not have stay in the page.

* **Loop.Block** — a loop with its names and its body.
* **Loop.expand** — a text with its loops replaced.
* **Loop.fillFields** — a body with fields put in one after the other.
-/

namespace HtmlViews.Loop

/-- A loop. -/
structure Block where
  /-- The name of the collection. -/
  collection : Text
  /-- The name of the current element in the body. -/
  item : Text
  /-- What is repeated. -/
  body : Text
deriving DecidableEq, Repr

/-- What follows the blanks that a text begins with, when there are any. -/
def afterBlanks? (s : Text) : Option Text :=
  match s with
  | [] => none
  | c :: r => if isBlank c then some (Text.dropBlanks r) else none

/-- The loop that a text begins with, and what follows it. Its body ends at the first end mark. -/
def Block.read? (s : Text) : Option (Block × Text) := do
  let s ← Text.after? "@foreach".toList s
  let s ← afterBlanks? s
  let (collection, s) ← Text.word? s
  let s ← afterBlanks? s
  let s ← Text.after? ['a', 's'] s
  let s ← afterBlanks? s
  let (item, s) ← Text.word? s
  let (body, r) ← Text.cut? "@endforeach".toList s
  pure (⟨collection, item, body⟩, r)

/-- Reading blanks makes the text shorter. -/
theorem length_of_afterBlanks? {s r : Text} (h : afterBlanks? s = some r) :
    r.length < s.length := by
  unfold afterBlanks? at h
  split at h
  · simp at h
  · rename_i c t
    split at h
    · simp only [Option.some.injEq] at h
      have := Text.length_dropBlanks_le t
      rw [← h, List.length_cons]
      omega
    · simp at h

/-- The reader of loops. -/
def reader : Reader Block where
  read := Block.read?
  shorter h := by
    simp only [Block.read?, Option.bind_eq_bind, Option.bind_eq_some_iff, Option.pure_def,
      Option.some.injEq, Prod.exists, Prod.mk.injEq] at h
    obtain ⟨a, ha, b, hb, w, c, hc, d, hd, e, he, f, hf, v, g, hg, body, r, hr, -, rfl⟩ := h
    have := Text.length_of_after? ha
    have := length_of_afterBlanks? hb
    have := Text.length_of_word? hc
    have := length_of_afterBlanks? hd
    have := Text.length_of_after? he
    have := length_of_afterBlanks? hf
    have := Text.length_of_word? hg
    have := Text.length_of_cut? hr
    omega

/-- The spelling of the placeholder of a field of the current element. -/
def fieldMark (item key : Text) : Text :=
  openBraces ++ ' ' :: item ++ '.' :: key ++ ' ' :: closeBraces

/-- The body of a loop with fields put in one after the other. -/
def fillFields (item : Text) (fields : List (String × Value)) (body : Text) : Text :=
  fields.foldl (fun out (key, v) => Text.replaceAll (fieldMark item key.toList) v.render out) body

/-- The body of a loop for one element. The fields of an object are put in in the order of their
names. -/
def renderItem (body item : Text) : Value → Text
  | .object fields => fillFields item fields.entries body
  | v => Text.replaceAll (fieldMark item "value".toList) v.render body

/-- The elements that a loop runs over. -/
def elements (context : Context) (collection : Text) : List Value :=
  match context.find? (String.ofList collection) with
  | some (.array items) => items
  | some (.object fields) => fields.values
  | _ => []

/-- What a loop leaves in the page. -/
def Block.render (context : Context) (b : Block) : Text :=
  (elements context b.collection).flatMap (renderItem b.body b.item)

/-- A text with its loops replaced. -/
def expand (context : Context) : Text → Text :=
  Text.expand reader (Block.render context)

end HtmlViews.Loop
