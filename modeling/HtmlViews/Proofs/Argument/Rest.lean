import HtmlViews.Directive.Url
import HtmlViews.Directive.Validation
import HtmlViews.Proofs.Argument.Quoted
import HtmlViews.Proofs.Log

/-!
# What follows a quoted argument

A directive with a quoted argument ends at its parenthesis: what follows it in the page is expanded
as it would be alone. This holds of every argument with something in it. With the empty argument the
directive is left as it stands at the end of a page, but where a later quote stands before a
parenthesis in its line, it goes on up to there, and the text between is lost.

That an expansion keeps what follows a directive is said as an equation between computations
(**KeepsRest**), in which the effects of the directive come before those of the rest. For an
argument with something in it the equation is that of a search which reads the directive up to its
end. For the empty argument a rest is given for which it fails, a quote and a parenthesis: alone it
is kept as it is, behind the directive it is taken for the end of the argument.

Both are proved for any stage that reads such an argument behind a fixed beginning, and used for
errors, assets and images.

* **KeepsRest** — that an expansion makes of what follows a directive what it makes of that alone.
* **KeepsRest.unique** — what is shown for such a directive is decided by the directive alone.
* **keepsRest_quoted** — an argument with something in it keeps what follows.
* **not_keepsRest_empty** — the empty argument does not.
* **keepsRest_iff** — both for errors and for the URLs of assets and images.
-/

namespace HtmlViews

/-- Whether an expansion makes of a directive what is shown for it, and behind that of whatever
follows the directive what it makes of that alone. -/
def KeepsRest {m : Type → Type} [Monad m] (expand : Text → m Text) (directive : Text)
    (shown : m Text) : Prop :=
  ∀ s, expand (directive ++ s) = do
    let front ← shown
    let rest ← expand s
    pure (front ++ rest)

section Effects

variable {m : Type → Type} [Monad m] [LawfulMonad m] {expand : Text → m Text} {directive : Text}

/-- What is shown is what the directive is expanded to alone. -/
theorem KeepsRest.shown_eq {shown : m Text} (h : KeepsRest expand directive shown)
    (hnil : expand [] = pure []) : shown = expand directive := by
  have halone := h []
  simp only [List.append_nil, hnil, pure_bind, bind_pure] at halone
  exact halone.symm

/-- There is one thing at most that can be shown for a directive. -/
theorem KeepsRest.unique {shown shown' : m Text} (h : KeepsRest expand directive shown)
    (h' : KeepsRest expand directive shown') (hnil : expand [] = pure []) : shown = shown' :=
  (h.shown_eq hnil).trans (h'.shown_eq hnil).symm

variable {start argument : Text} {left right : Char} (hleft : isQuote left = true)
  (hright : isQuote right = true)

include hleft hright

/-- An argument with something in it keeps what follows. -/
theorem keepsRest_quoted (hne : argument ≠ [])
    (hargument : ∀ c ∈ argument, isQuote c = false ∧ isInLine c = true) (make : Text → m Text) :
    KeepsRest (Text.expandM (argumentReader start) make) (start ++ quoted left argument right)
      (make argument) := by
  intro s
  have hread : (argumentReader start).read (start ++ quoted left argument right ++ s) =
      some (argument, s) := by
    rw [List.append_assoc, argumentReader_append]
    exact quotedArgument?_quoted hleft hright hne hargument s
  rw [Text.expandM_of_some hread]
  simp only [map_eq_pure_bind]

/-- In front of a quote with a parenthesis, the empty argument takes all text up to there. -/
theorem expandM_empty {front : Text} {q : Char}
    (hfront : ∀ c ∈ front, isQuote c = false ∧ isInLine c = true) (hq : isQuote q = true)
    (make : Text → m Text) (s : Text) :
    Text.expandM (argumentReader start) make
        (start ++ quoted left [] right ++ (front ++ q :: ')' :: s)) = (do
      let shown ← make (right :: ')' :: front)
      (shown ++ ·) <$> Text.expandM (argumentReader start) make s) := by
  have hinLine : isInLine right = true := by
    rcases isQuote_iff.mp hright with rfl | rfl <;> rfl
  apply Text.expandM_of_some
  rw [List.append_assoc, argumentReader_append]
  exact quotedArgument?_empty hleft ⟨hinLine, rfl⟩ hfront hq s

section Marks

variable (hhead : start.head? = some '@') (htail : '@' ∉ start.tail)

include hhead htail

/-- At the end of a page, the directive with the empty argument is left as it stands. -/
theorem expandM_empty_alone (make : Text → m Text) :
    Text.expandM (argumentReader start) make (start ++ quoted left [] right) =
      pure (start ++ quoted left [] right) := by
  have hbegins : BeginsWith (argumentReader start).read '@' := beginsWith_bind hhead _
  have hread : (argumentReader start).read (start ++ quoted left [] right) = none := by
    rw [argumentReader_append]
    exact quotedArgument?_empty_eq_none
  obtain ⟨tail, rfl⟩ := List.head?_eq_some_iff.mp hhead
  have hmem : '@' ∉ tail ++ quoted left [] right := by
    have hquotes : '@' ≠ left ∧ '@' ≠ right :=
      ⟨(ne_of_isQuote hleft rfl).symm, (ne_of_isQuote hright rfl).symm⟩
    simpa [quoted, hquotes] using htail
  refine Text.expandM_of_passes (p := '@' :: (tail ++ quoted left [] right)) ⟨?_, ?_⟩ make
  · rw [List.append_nil]
    exact hread
  · exact hbegins.passes hmem []

/-- So the empty argument does not keep what follows, unless what it takes from there is shown like
the directive itself with that. -/
theorem not_keepsRest_empty {make : Text → m Text} (hmake : make [right, ')'] ≠
      pure (start ++ quoted left [] right ++ [right, ')'])) (shown : m Text) :
    ¬ KeepsRest (Text.expandM (argumentReader start) make) (start ++ quoted left [] right)
      shown := by
  intro h
  have hshown := h.shown_eq (Text.expandM_nil make)
  rw [expandM_empty_alone hleft hright hhead htail] at hshown
  have hquote : Text.expandM (argumentReader start) make [right, ')'] = pure [right, ')'] := by
    have hmem : '@' ∉ [right, ')'] := by
      have hne : '@' ≠ right := (ne_of_isQuote hright rfl).symm
      simp [hne]
    exact Text.expandM_of_passes ((beginsWith_bind hhead _).passes hmem []) make
  have htaken : Text.expandM (argumentReader start) make
      (start ++ quoted left [] right ++ [right, ')']) = make [right, ')'] := by
    have hfront : ∀ c ∈ ([] : Text), isQuote c = false ∧ isInLine c = true :=
      fun _ hc => absurd hc List.not_mem_nil
    refine (expandM_empty hleft hright hfront hright make []).trans ?_
    simp
  rw [h [right, ')'], hshown, hquote, pure_bind, pure_bind] at htaken
  exact hmake htaken.symm

/-- What follows an argument is kept exactly if there is something in the argument, and then the
argument decides what is shown. -/
theorem keepsRest_expandM_iff
    (hargument : ∀ c ∈ argument, isQuote c = false ∧ isInLine c = true) {make : Text → m Text}
    (hmake : make [right, ')'] ≠ pure (start ++ quoted left [] right ++ [right, ')']))
    (shown : m Text) :
    KeepsRest (Text.expandM (argumentReader start) make) (start ++ quoted left argument right)
      shown ↔ argument ≠ [] ∧ shown = make argument := by
  constructor
  · intro h
    have hne : argument ≠ [] := by
      rintro rfl
      exact not_keepsRest_empty hleft hright hhead htail hmake shown h
    exact ⟨hne, h.unique (keepsRest_quoted hleft hright hne hargument make)
      (Text.expandM_nil make)⟩
  · rintro ⟨hne, rfl⟩
    exact keepsRest_quoted hleft hright hne hargument make

end Marks

end Effects

/-! ## Errors and URLs -/

section Stages

variable {argument : Text} {left right : Char} (hleft : isQuote left = true)
  (hright : isQuote right = true)
  (hargument : ∀ c ∈ argument, isQuote c = false ∧ isInLine c = true)

include hleft hright hargument

/-- With URLs in the place of directives, what follows an argument is kept exactly if there is
something in the argument: a URL has a slash in it, which the empty argument and its parenthesis do
not have. -/
theorem Url.keepsRest_resolve_iff {start : Text} (hhead : start.head? = some '@')
    (htail : '@' ∉ start.tail) (hslash : '/' ∉ start) (base folder url : Text) :
    (∀ s, Text.expand (argumentReader start) (resolve base folder)
        (start ++ quoted left argument right ++ s) =
      url ++ Text.expand (argumentReader start) (resolve base folder) s) ↔
      argument ≠ [] ∧ url = resolve base folder argument := by
  have hmake : resolve base folder [right, ')'] ≠
      start ++ quoted left [] right ++ [right, ')'] := by
    have hmem : '/' ∈ resolve base folder [right, ')'] := by
      unfold resolve
      split <;> simp
    have hquotes : '/' ≠ left ∧ '/' ≠ right :=
      ⟨(ne_of_isQuote hleft rfl).symm, (ne_of_isQuote hright rfl).symm⟩
    intro heq
    rw [heq] at hmem
    simp [quoted, hslash, hquotes] at hmem
  have hiff : KeepsRest
        (Text.expandM (argumentReader start) fun path => (pure (resolve base folder path) : Id Text))
        (start ++ quoted left argument right) url ↔
      argument ≠ [] ∧ url = (pure (resolve base folder argument) : Id Text) :=
    keepsRest_expandM_iff (m := Id) hleft hright hhead htail hargument hmake url
  unfold KeepsRest at hiff
  simp only [Text.expandM_pure] at hiff
  exact hiff

/-- **What follows a quoted argument is kept exactly if the argument is not empty**: then the
directive shows what its argument stands for, the error of a field or the URL of a file, and what
follows is expanded as it would be alone. For the empty argument there is nothing that could be
shown so that what follows would be kept. -/
theorem keepsRest_iff (config : Config) :
    (∀ shown, KeepsRest Validation.expand ("@errors(".toList ++ quoted left argument right) shown ↔
        argument ≠ [] ∧ shown = Validation.showField argument) ∧
      (∀ url, (∀ s, Url.expandAssets config
          ("@assets(".toList ++ quoted left argument right ++ s) =
            url ++ Url.expandAssets config s) ↔
        argument ≠ [] ∧ url = Url.resolve config.baseUrl config.publicPath argument) ∧
      ∀ url, (∀ s, Url.expandImages config
          ("@images(".toList ++ quoted left argument right ++ s) =
            url ++ Url.expandImages config s) ↔
        argument ≠ [] ∧ url = Url.resolve config.baseUrl config.imagesPath argument := by
  have hmake : Validation.showField [right, ')'] ≠
      pure ("@errors(".toList ++ quoted left [] right ++ [right, ')']) := by
    -- In a store without errors nothing is shown.
    intro heq
    have hshown : [] = "@errors(".toList ++ quoted left [] right ++ [right, ')'] :=
      congrArg (fun x => (x.run Store.empty).value.1) heq
    exact absurd hshown (by simp)
  refine ⟨fun shown => ?_, fun url => ?_, fun url => ?_⟩
  · exact keepsRest_expandM_iff hleft hright rfl (by decide) hargument hmake shown
  · exact Url.keepsRest_resolve_iff hleft hright hargument rfl (by decide) (by decide) _ _ url
  · exact Url.keepsRest_resolve_iff hleft hright hargument rfl (by decide) (by decide) _ _ url

end Stages

/-- Quotes that are not equal, and the empty argument. -/
theorem keepsRest_iff_email :
    (isQuote '"' = true ∧ isQuote '\'' = true ∧
        ∀ c ∈ "email".toList, isQuote c = false ∧ isInLine c = true) ∧
      KeepsRest Validation.expand "@errors(\"email')".toList
        (Validation.showField "email".toList) ∧
      ∀ shown, ¬ KeepsRest Validation.expand "@errors('')".toList shown := by
  have hdouble : isQuote '"' = true := rfl
  have hsingle : isQuote '\'' = true := rfl
  have hargument : ∀ c ∈ "email".toList, isQuote c = false ∧ isInLine c = true := by
    simp [isQuote, isInLine]
  have hempty : ∀ c ∈ ([] : Text), isQuote c = false ∧ isInLine c = true := by
    simp
  refine ⟨⟨hdouble, hsingle, hargument⟩, ?_, fun shown h => ?_⟩
  · exact ((keepsRest_iff hdouble hsingle hargument .empty).1 _).mpr ⟨by decide, rfl⟩
  · exact (((keepsRest_iff hsingle hsingle hempty .empty).1 shown).mp h).1 rfl

/-- With an empty argument, the text behind it and the next directive may be lost. -/
theorem not_forall_keepsRest :
    ¬ ∀ argument : Text,
      (∀ c ∈ argument, isQuote c = false ∧ c ≠ '(' ∧ c ≠ ')' ∧ c ≠ '\n') →
      ∀ store : Store, ∃ (shown : Text) (left : Store), ∀ s,
        ((Validation.expand ("@errors(".toList ++ quoted '\'' argument '\'' ++ s)).run
            store).value.1 =
          shown ++ ((Validation.expand s).run left).value.1 := by
  intro h
  obtain ⟨shown, left, hshown⟩ := h [] (by simp) Store.empty
  have halone : Validation.expand ("@errors(".toList ++ quoted '\'' [] '\'' ++ []) =
      pure "@errors('')".toList :=
    expandM_empty_alone rfl rfl rfl (by decide) Validation.showField
  have hend : Validation.expand [] = pure [] :=
    Text.expandM_nil Validation.showField
  have hlost : ((Validation.expand "@errors('') kept @errors('email')".toList).run
      Store.empty).value.1 = [] := by
    decide +kernel
  have hfront : "@errors('')".toList = shown ++ [] := by
    have := hshown []
    rw [halone, hend] at this
    exact this
  have hboth : [] = shown ++ ((Validation.expand " kept @errors('email')".toList).run
      left).value.1 :=
    hlost.symm.trans (hshown " kept @errors('email')".toList)
  obtain ⟨rfl, -⟩ := List.append_eq_nil_iff.mp hboth.symm
  exact absurd hfront (by decide)

end HtmlViews
