import HtmlViews.Proofs.Variable.Placeholder

/-!
# Pages with placeholders

A page gets the values of variables in the places of its placeholders, and nothing else in it
changes. A value may spell a placeholder, or become one together with the braces that stand next to
it in the page; it is put in as it is all the same.

Every text is such a page, because placeholders are recognised and do not overlap
(**Reader.Recognises.exists_text_eq**); so the result is one about all texts, and the page is only a
way to name the places. Whether a value spells something makes no difference, since the search goes
on behind the placeholder and not in the value.

* **Variable.Page** — placeholders, and texts without any.
* **Placeholder.shown** — what stands in the place of a placeholder.
* **Variable.substitute_page** — a page with its placeholders replaced, and that any text is a page.
-/

namespace HtmlViews

/-- What stands in the place of a placeholder: the text of the value under its name, or nothing. -/
def Placeholder.shown (context : Context) (p : Placeholder) : Text :=
  (context.find? (String.ofList p.name.text)).elim [] Value.render

namespace Variable

/-- A page of placeholders and texts in which none occurs. The texts may begin and end with any
braces. -/
abbrev Page : Type :=
  Interleaved (Without Placeholder.text) Placeholder

/-- The value of a name is the text that is put in. -/
theorem textOf_name (context : Context) (p : Placeholder) :
    textOf context [] p.name.text = p.shown context := by
  unfold textOf Placeholder.shown
  cases context.find? (String.ofList p.name.text) with
  | none => rfl
  | some v => rfl

/-- **Substituting variables in a page keeps its texts and puts the value of its name into the place
of each placeholder**, as it is, or nothing where there is no value. No placeholder is found across
the ends of a text or in a value that was put in. Every text is a page. -/
theorem substitute_page (context : Context) :
    (∀ p : Page, substitute context (p.text Placeholder.text) =
        p.text (Placeholder.shown context)) ∧
      ∀ s : Text, ∃ p : Page, p.text Placeholder.text = s := by
  refine ⟨fun p => ?_, recognises_placeholder.exists_text_eq⟩
  have hexpand := recognises_placeholder.expand_text p (textOf context [])
  simp only [textOf_name] at hexpand
  exact hexpand

/-- A value that makes a placeholder with the braces around it is not looked at again. -/
example :
    substitute (Dict.ofList [("a", .str "\x7b b \x7d"), ("b", .bool true)])
      "\x7b\x7b\x7ba\x7d\x7d\x7d".toList = "\x7b\x7b b \x7d\x7d".toList := by
  decide +kernel

end Variable

end HtmlViews
