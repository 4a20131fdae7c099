import HtmlViews.Directive.Validation
import HtmlViews.Proofs.Argument.Quoted
import HtmlViews.Proofs.Session.Taking

/-!
# Error directives that are written out

A directive shows the first error of its field and takes all errors of the field. So in a page with
many directives the first one of a field shows an error, if there is one, and the other directives
of that field show nothing. Errors that spell directives are not searched.

The page is computed from left to right, with the store that is left behind each directive, as a
page of message blocks is. There is one difference to messages: a field can have an entry without
errors. Then the directive shows nothing and no line is written, but the entry is gone all the same;
so the store behind some directives is the one without the errors of their fields, whatever was
there.

* **Validation.Page** — a page with error directives.
* **Validation.showField_value** — what a directive shows and takes.
* **Validation.expand_errors** — a page with its directives replaced, and the store that is left.
-/

namespace HtmlViews.Validation

/-- What a directive begins with. -/
def opening : Text :=
  "@errors(".toList

/-! ## Delivery -/

/-- A field with an error shows the first one, and reports that all of them are gone. -/
theorem showField_of_some {field : Text} {store : Store} {error : String}
    (h : store.peekError (String.ofList field) = some error) :
    showField field store = ⟨(error.toList, (store.takeError (String.ofList field)).2),
      [.consumedErrors (String.ofList field)]⟩ := by
  simp only [showField, Store.takeError, h]
  rfl

/-- A field without errors shows nothing and writes nothing. -/
theorem showField_of_none {field : Text} {store : Store}
    (h : store.peekError (String.ofList field) = none) :
    showField field store = ⟨([], (store.takeError (String.ofList field)).2), []⟩ := by
  simp only [showField, Store.takeError, h]
  rfl

/-- A directive shows the error that it takes, or nothing. -/
theorem showField_value (field : Text) (store : Store) :
    (showField field store).value =
      ((store.takeError (String.ofList field)).1.elim [] String.toList,
        (store.takeError (String.ofList field)).2) := by
  show _ = ((store.peekError (String.ofList field)).elim [] String.toList, _)
  cases h : store.peekError (String.ofList field) with
  | none => rw [showField_of_none h, Option.elim_none]
  | some error => rw [showField_of_some h, Option.elim_some]

/-! ## Pages -/

/-- A page of directives, each with its field, and texts without the beginning of one. -/
abbrev Page : Type :=
  Interleaved (fun t => ¬ opening <:+: t) (QuotedArgument isInLine)

variable {allowed : Char → Bool}

/-- The error for a directive behind others: the first one of its field, if none of those has the
same field. -/
def error? (store : Store) (earlier : List (QuotedArgument allowed)) (q : QuotedArgument allowed) :
    Option String :=
  if q.name ∈ earlier.map QuotedArgument.name then none else store.peekError q.name

/-- What a directive shows behind others: its error, or nothing. -/
def shown (store : Store) (earlier : List (QuotedArgument allowed)) (q : QuotedArgument allowed) :
    Text :=
  (error? store earlier q).elim [] String.toList

/-- What a directive shows and leaves behind others. -/
theorem showField_behind (store : Store) (earlier : List (QuotedArgument allowed))
    (q : QuotedArgument allowed) :
    ((showField q.argument).run
        (store.withoutErrors (earlier.map QuotedArgument.name))).value =
      (shown store earlier q,
        store.withoutErrors ((earlier ++ [q]).map QuotedArgument.name)) := by
  show (showField q.argument (store.withoutErrors (earlier.map QuotedArgument.name))).value = _
  rw [showField_value, Store.takeError_withoutErrors, List.map_append]
  rfl

/-- **Expanding a page keeps its texts and shows each error once**: the first directive of each
field shows the first error of the field as it is, and every directive without an error shows
nothing. Afterwards the errors of all these fields are gone from the store, and nothing else is. -/
theorem expand_errors (p : Page) (store : Store) :
    ((expand (p.text (QuotedArgument.directive opening))).run store).value =
      (p.textBehind (shown store),
        store.withoutErrors (p.directives.map QuotedArgument.name)) := by
  have hbegins : ∀ q : QuotedArgument isInLine, opening <+: q.directive opening :=
    fun q => List.prefix_append _ _
  have hrun := p.run_expandM_of_mark rfl (by decide) (fun _ => argumentReader_eq_none) hbegins
    (QuotedArgument.read_directive opening) (showField_behind store)
  rw [List.map_nil, Store.withoutErrors_nil] at hrun
  exact hrun

end HtmlViews.Validation
