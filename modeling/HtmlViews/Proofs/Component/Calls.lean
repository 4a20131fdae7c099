import HtmlViews.Proofs.Render.Stages
import HtmlViews.Proofs.Text.Balance

/-!
# Texts of calls

A text that spells a call of a component is read as that call whatever follows it, if its arguments
are balanced. The stages before that of components pass over it, if neither a directive nor a
placeholder begins in its arguments.

What has to be known of the arguments of a call is put into one property (**Component.Inert**): the
search for the closing parenthesis passes over them, no message block and no placeholder begins in
them. It is kept when texts are put together, so the arguments of a call are shown to be inert part
by part, a name here and parameters where they are written out.

* **Component.Inert** — that a text can stand in the arguments of a call.
* **Component.IsCall** — that a text is read as a call and as nothing else.
* **Component.isCall_calling** — a text with inert arguments is.
* **Component.naming**, **Component.isCall_naming** — the call of a component by its name alone.
-/

namespace HtmlViews.Component

/-! ## Quoted words -/

/-- Names of components have no quotes in them. -/
theorem isNamePart_of_isQuote {c : Char} (h : isQuote c = true) : isNamePart c = false := by
  rcases isQuote_iff.mp h with rfl | rfl <;> decide +kernel

/-- Quotes are no blanks. -/
theorem isBlank_of_isQuote {c : Char} (h : isQuote c = true) : isBlank c = false := by
  rcases isQuote_iff.mp h with rfl | rfl <;> decide

/-- A word between quotes is read up to the quote behind it. -/
theorem quotedWord?_quoted {isPart : Char → Bool} {q q' : Char} {w : Text} (hq : isQuote q = true)
    (hq' : isQuote q' = true) (hpart : isPart q' = false) (hne : w ≠ [])
    (hw : ∀ c ∈ w, isPart c = true) (r : Text) :
    quotedWord? isPart (q :: (w ++ q' :: r)) = some (w, r) := by
  have hend : ∀ c ∈ (q' :: r).head?, isPart c = false := by
    intro c hc
    rw [← Option.some.inj hc]
    exact hpart
  rw [quotedWord?, if_pos hq, Text.takeWhile_run hw hend, Text.dropWhile_run hw hend]
  cases w with
  | nil => exact absurd rfl hne
  | cons c w => exact if_pos hq'

/-- A text that begins with a quote has no blanks at its beginning. -/
theorem dropBlanks_of_isQuote {q : Char} (hq : isQuote q = true) (s : Text) :
    Text.dropBlanks (q :: s) = q :: s :=
  List.dropWhile_cons_of_neg (by simp [isBlank_of_isQuote hq])

/-! ## Arguments -/

/-- A single brace begins no placeholder. -/
theorem passes_placeholder {p s : Text} (hp : ¬ openBraces <:+: p)
    (hs : ∀ c ∈ s.head?, c ≠ '{') : Passes placeholderReader.read p s := by
  induction p with
  | nil => trivial
  | cons c p ih =>
    refine ⟨?_, ih fun h => hp (h.trans (List.suffix_cons c p).isInfix)⟩
    have hnot : ¬ openBraces <+: c :: (p ++ s) := by
      intro h
      obtain ⟨rfl, hsecond⟩ := List.cons_prefix_cons.mp h
      cases p with
      | nil =>
        cases s with
        | nil => exact absurd hsecond.length_le (by decide)
        | cons d s => exact hs d rfl (List.cons_prefix_cons.mp hsecond).1.symm
      | cons d p =>
        obtain ⟨hd, -⟩ := List.cons_prefix_cons.mp hsecond
        exact hp ⟨[], p, by rw [← hd]; rfl⟩
    show placeholder? (c :: (p ++ s)) = none
    rw [placeholder?, Text.after?_eq_none_iff.mpr hnot]
    rfl

/-- Whether a text can stand in the arguments of a call: the search for the closing parenthesis
passes over it, and neither a directive nor a placeholder begins in it. -/
structure Inert (p : Text) : Prop where
  balanced : p.Balanced
  noDirective : '@' ∉ p
  noPlaceholder : ∀ r, Passes placeholderReader.read p r

namespace Inert

variable {p q : Text}

/-- The empty text is inert. -/
theorem nil : Inert [] :=
  ⟨.nil, List.not_mem_nil, fun _ => trivial⟩

/-- Inert texts one behind the other are inert. -/
theorem append (hp : Inert p) (hq : Inert q) : Inert (p ++ q) where
  balanced := hp.balanced.append hq.balanced
  noDirective := by simp [hp.noDirective, hq.noDirective]
  noPlaceholder r := (hp.noPlaceholder _).append (hq.noPlaceholder r)

/-- A text without quotes, parentheses, directives and braces. -/
theorem of_neutral (hneutral : p.all isNeutral = true) (hat : '@' ∉ p) (hbrace : '{' ∉ p) :
    Inert p :=
  ⟨.of_neutral (List.all_eq_true.mp hneutral), hat, beginsWith_placeholder.passes hbrace⟩

/-- A string between quotes. -/
theorem quoted {quote : Char} {body : Text} (hquote : isQuote quote = true)
    (hbody : quote ∉ body) (hat : '@' ∉ body) (hbraces : ¬ openBraces <:+: body) :
    Inert (quote :: body ++ [quote]) where
  balanced := .quoted hquote hbody
  noDirective := by
    simp [hat, (ne_of_isQuote hquote (c := '@') rfl).symm]
  noPlaceholder r := by
    have hne : quote ≠ '{' := ne_of_isQuote hquote rfl
    have hend : ∀ c ∈ (quote :: r).head?, c ≠ '{' := by
      intro c hc
      rw [← Option.some.inj hc]
      exact hne
    refine ⟨beginsWith_placeholder _ _ hne, ?_⟩
    apply Passes.append (passes_placeholder hbraces hend)
    exact ⟨beginsWith_placeholder _ _ hne, trivial⟩

end Inert

/-! ## Calls -/

/-- The text of a call with the given arguments. -/
def calling (arguments : Text) : Text :=
  opening ++ (arguments ++ [')'])

/-- Whether a text is read as a call, whatever follows it, and nothing in it is read by the stages
before that of components. -/
structure IsCall (w : Text) (c : Call) : Prop where
  read : ∀ r, Found.read? (w ++ r) = some (.call c, r)
  messages : ∀ r, Passes Message.reader.read w r
  placeholders : ∀ r, Passes placeholderReader.read w r

/-- A directive with its arguments is read up to the parenthesis that closes them. -/
theorem read_calling {arguments : Text} (h : Text.IsArgument arguments) (s : Text) :
    reader.read (calling arguments ++ s) =
      some ((Call.ofArguments? arguments).elim (.malformed arguments) .call, s) := by
  have htext : calling arguments ++ s = opening ++ (arguments ++ ')' :: s) := by
    simp [calling]
  show Found.read? (calling arguments ++ s) = _
  rw [htext, Found.read?, Text.after?_append]
  simp only [Option.map_some, h.closing?]
  cases Call.ofArguments? arguments <;> rfl

/-- A text with inert arguments is the call that they make. -/
theorem isCall_calling {arguments : Text} {c : Call} (hinert : Inert arguments)
    (hcall : Call.ofArguments? arguments = some c) : IsCall (calling arguments) c where
  read r := by
    have hread := read_calling hinert.balanced.argument r
    rw [hcall] at hread
    exact hread
  messages r := by
    have hrest : '@' ∉ "component(".toList ++ (arguments ++ [')']) := by
      simp only [List.mem_append, not_or]
      exact ⟨by decide, hinert.noDirective, by decide⟩
    have hcalling : calling arguments = '@' :: ("component(".toList ++ (arguments ++ [')'])) := by
      rfl
    rw [hcalling]
    exact ⟨rfl, beginsWith_message.passes hrest r⟩
  placeholders r := by
    have hopening : '{' ∉ opening := by decide
    have hclosing : '{' ∉ [')'] := by decide
    apply Passes.append (beginsWith_placeholder.passes hopening _)
    exact (hinert.noPlaceholder _).append (beginsWith_placeholder.passes hclosing r)

/-! ## Names -/

/-- A name between quotes is inert. -/
theorem inert_name {name : Text} (hname : ∀ c ∈ name, isNamePart c = true) {quote : Char}
    (hquote : isQuote quote = true) : Inert (quote :: name ++ [quote]) := by
  apply Inert.quoted hquote
  · exact Text.not_mem_of_forall hname (isNamePart_of_isQuote hquote)
  · exact Text.not_mem_of_forall hname (by decide +kernel)
  · intro h
    exact Text.not_mem_of_forall hname (by decide +kernel) (h.subset List.mem_cons_self)

/-- The text of a call of a component by its name alone. -/
def naming (name : Text) : Text :=
  calling ('\'' :: name ++ ['\''])

/-- A call that only names a component is a call without parameters. -/
theorem isCall_naming {name : Text} (hne : name ≠ []) (hname : ∀ c ∈ name, isNamePart c = true) :
    IsCall (naming name) ⟨name, .empty⟩ := by
  have hquote : isQuote '\'' = true := rfl
  apply isCall_calling (inert_name hname hquote)
  have hword := quotedWord?_quoted hquote hquote (isNamePart_of_isQuote hquote) hne hname []
  rw [Call.ofArguments?, List.cons_append, dropBlanks_of_isQuote hquote, hword]
  rfl

end HtmlViews.Component
