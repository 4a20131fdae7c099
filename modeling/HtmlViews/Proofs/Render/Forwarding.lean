import HtmlViews.Proofs.Component.Parameters
import HtmlViews.Proofs.Engine.Request
import HtmlViews.Proofs.Render.Calls
import HtmlViews.Proofs.Text.Word

/-!
# Values forwarded to components

The parameters of a call may be placeholders: their values are put into the text of the call before
that is read. So a value is forwarded as it is as long as the quote that it is put between does not
occur in it; a value with that quote ends the string early, and what it goes on with is read as a
part of the call.

When values are put into a text, they are put in without regard to where they stand, and calls are
read afterwards. So the text of the call, with the value in it, is taken apart around the string
(**Component.calling_arguments_string**): if the value does not contain the quote, the string is the
value and the call ends where it was written to end, whatever else the value contains. The component
that is called is rendered with the value as its parameter, which its stage of variables puts in
without looking at it again.

For a value with the quote in it the call that is read is another one, or none; one such value is
given.

* **Variable.placeholder**, **placeholder?_placeholder** — a name between double braces.
* **Component.calling_arguments_string** — a call with one string, taken apart around the string.
* **Component.forwarding**, **Render.text_forwarding** — a call whose parameter is a placeholder.
* **Render.exec_component_showing** — a component that shows one of its parameters.
* **Engine.greeting_forwarded** — the value of a variable, forwarded to a component that shows it.
-/

namespace HtmlViews

/-! ## Placeholders -/

/-- The placeholder of a name, as it is usually written. -/
def Variable.placeholder (name : Text) : Text :=
  openBraces ++ (' ' :: name ++ ' ' :: closeBraces)

/-- The placeholder of a word is read whatever follows it. -/
theorem placeholder?_placeholder {name : Text} (hne : name ≠ [])
    (hword : ∀ c ∈ name, isWord c = true) (hblank : ∀ c ∈ name.head?, isBlank c = false)
    (s : Text) : placeholder? (Variable.placeholder name ++ s) = some (name, s) := by
  have htext : Variable.placeholder name ++ s =
      openBraces ++ (' ' :: (name ++ ' ' :: (closeBraces ++ s))) := by
    simp [Variable.placeholder]
  have hspaces : ∀ c ∈ [' '], isBlank c = true := List.all_eq_true.mp rfl
  have hfront : Text.dropBlanks (' ' :: (name ++ ' ' :: (closeBraces ++ s))) =
      name ++ ' ' :: (closeBraces ++ s) := by
    have hhead : ∀ c ∈ (name ++ ' ' :: (closeBraces ++ s)).head?, isBlank c = false := by
      rwa [List.head?_append_of_ne_nil _ hne]
    exact Text.dropWhile_run hspaces hhead
  have hback : Text.dropBlanks (' ' :: (closeBraces ++ s)) = closeBraces ++ s := by
    rfl
  have hend : ∀ c ∈ (' ' :: (closeBraces ++ s)).head?, isWord c = false := by
    intro c hc
    rw [← Option.some.inj hc]
    decide +kernel
  have hname : Text.word? (name ++ ' ' :: (closeBraces ++ s)) =
      some (name, ' ' :: (closeBraces ++ s)) :=
    (⟨name, hne, hword⟩ : Word).word?_append hend
  rw [htext, placeholder?, Text.after?_append]
  simp only [Option.bind_eq_bind, Option.bind_some, hfront, hname, hback, Text.after?_append]
  rfl

/-- The value of a placeholder is put in between parts in which no placeholder begins. -/
theorem Variable.substitute_placeholder {name front back : Text} (hne : name ≠ [])
    (hword : ∀ c ∈ name, isWord c = true) (hblank : ∀ c ∈ name.head?, isBlank c = false)
    (hfront : Passes placeholderReader.read front (placeholder name ++ back))
    (hback : Passes placeholderReader.read back []) (context : Context) :
    substitute context (front ++ (placeholder name ++ back)) =
      front ++ (textOf context [] name ++ back) := by
  have hread : placeholderReader.read (placeholder name ++ back) = some (name, back) :=
    placeholder?_placeholder hne hword hblank back
  have hend : Text.expand placeholderReader (textOf context []) back = back :=
    Text.expand_of_passes hback _
  rw [substitute, Text.expand_append hfront, Text.expand, Text.pieces_of_some hread,
    List.flatMap_cons]
  exact congrArg (fun t => front ++ (textOf context [] name ++ t)) hend

namespace Component

/-! ## Calls with one string -/

/-- What stands in a call before the string that is its only parameter. -/
def beforeString (name : Text) (key : Key) (quote : Char) : Text :=
  opening ++ ('\'' :: name ++ ['\''] ++ separator) ++
    '{' :: (key.quote :: key.word ++ [key.quote] ++ [':', ' ', quote])

/-- What stands in a call behind that string. -/
def behindString (quote : Char) : Text :=
  [quote, '}', ')']

/-- A call with one string, taken apart around the string. -/
theorem calling_arguments_string (name : Text) (key : Key) (s : Literal) (h : s.quote ∉ s.body) :
    calling (arguments name [⟨key, .string s h⟩]) =
      beforeString name key s.quote ++ (s.body ++ behindString s.quote) := by
  simp [calling, arguments, settings, Setting.text, Printed.text, Literal.text, beforeString,
    behindString]

/-- Before the string no placeholder begins: behind the brace there stands a quote. -/
theorem passes_beforeString {name : Text} (hname : ∀ c ∈ name, isNamePart c = true) (key : Key)
    {quote : Char} (hquote : isQuote quote = true) (s : Text) :
    Passes placeholderReader.read (beforeString name key quote) s := by
  have hne : ∀ {c : Char}, isQuote c = true → '{' ≠ c :=
    fun hc => (ne_of_isQuote hc rfl).symm
  have hword : '{' ∉ key.word := Text.not_mem_of_forall key.isWord_word (by decide +kernel)
  have hbraceName : '{' ∉ name := Text.not_mem_of_forall hname (by decide +kernel)
  have hfront : '{' ∉ opening ++ ('\'' :: name ++ ['\''] ++ separator) := by
    have hopening : '{' ∉ opening := by decide
    have hclosing : '{' ∉ separator := by decide
    simp [hopening, hclosing, hbraceName]
  have hback : '{' ∉ key.quote :: key.word ++ [key.quote] ++ [':', ' ', quote] := by
    simp [hword, hne key.isQuote_quote, hne hquote]
  have hbrace : ¬ openBraces <:+: ['{'] := by decide
  apply Passes.append (beginsWith_placeholder.passes hfront _)
  apply Passes.append (p := ['{']) (passes_placeholder hbrace _)
    (beginsWith_placeholder.passes hback s)
  intro c hc
  rw [← Option.some.inj hc]
  exact (hne key.isQuote_quote).symm

/-! ## Calls with a placeholder -/

/-- A call whose only parameter is the placeholder of a variable, between quotes. -/
def forwarding (name : Text) (key : Key) (quote : Char) (user : Text) : Text :=
  beforeString name key quote ++ (Variable.placeholder user ++ behindString quote)

section Forwarding

variable {name user : Text} (hname : ∀ c ∈ name, isNamePart c = true) (key : Key)
  (hword : ∀ c ∈ user, isWord c = true) {quote : Char} (hquote : isQuote quote = true)

include hname hword hquote

/-- No message begins in such a call. -/
theorem passes_forwarding : Passes Message.reader.read (forwarding name key quote user) [] := by
  have hatName : '@' ∉ name := Text.not_mem_of_forall hname (by decide +kernel)
  have hatKey : '@' ∉ key.word := Text.not_mem_of_forall key.isWord_word (by decide +kernel)
  have hatUser : '@' ∉ user := Text.not_mem_of_forall hword (by decide +kernel)
  have hatQuote : ∀ {c : Char}, isQuote c = true → '@' ≠ c :=
    fun hc => (ne_of_isQuote hc rfl).symm
  have htail : '@' ∉ "component(".toList ++ ('\'' :: name ++ ['\''] ++ separator) ++
      '{' :: (key.quote :: key.word ++ [key.quote] ++ [':', ' ', quote]) ++
        (Variable.placeholder user ++ behindString quote) := by
    have hseparator : '@' ∉ separator := by decide
    simp [hseparator, Variable.placeholder, openBraces, closeBraces, behindString, hatName, hatKey,
      hatUser, hatQuote key.isQuote_quote, hatQuote hquote]
  exact ⟨rfl, beginsWith_message.passes htail []⟩

/-- The value is put between the quotes, and makes a call with one string if it does not contain
the quote. -/
theorem substitute_forwarding (huser : user ≠ [])
    (hblank : ∀ c ∈ user.head?, isBlank c = false) {context : Context} {v : Value}
    (hvalue : context.find? (String.ofList user) = some v) (hv : quote ∉ v.render) :
    Variable.substitute context (forwarding name key quote user) =
      calling (arguments name [⟨key, .string ⟨quote, v.render, hquote⟩ hv⟩]) := by
  have hback : Passes placeholderReader.read (behindString quote) [] := by
    apply beginsWith_placeholder.passes
    have hne : '{' ≠ quote := (ne_of_isQuote hquote rfl).symm
    simp [behindString, hne]
  rw [forwarding, Variable.substitute_placeholder huser hword hblank
    (passes_beforeString hname key hquote _) hback, Variable.textOf, hvalue,
    calling_arguments_string]

end Forwarding

/-- A call with one string is read as what it is. -/
theorem read_calling_string {name : Text} (hne : name ≠ [])
    (hname : ∀ c ∈ name, isNamePart c = true) (key : Key) (s : Literal) (h : s.quote ∉ s.body) :
    reader.read (calling (arguments name [⟨key, .string s h⟩])) =
      some (.call ⟨name, .ofList [(key.name, s.value)]⟩, []) := by
  have hbalanced : ∀ p ∈ [(⟨key, .string s h⟩ : Setting)], p.value.text.Balanced := by
    intro p hp
    rw [List.mem_singleton.mp hp]
    exact .quoted s.isQuote_quote h
  have hcalling := read_calling (isArgument_arguments hname hbalanced) []
  rw [ofArguments?_arguments hne hname, List.append_nil] at hcalling
  exact hcalling

end Component

/-! ## Forwarding -/

namespace Render

/-- A call whose only parameter is the placeholder of a variable shows the component with the text
of the value, if the quote that the placeholder is put between does not occur in that text. -/
theorem text_forwarding {name user : Text} (hne : name ≠ [])
    (hname : ∀ c ∈ name, Component.isNamePart c = true) (key : Component.Key) (huser : user ≠ [])
    (hword : ∀ c ∈ user, isWord c = true) (hblank : ∀ c ∈ user.head?, isBlank c = false)
    {quote : Char} (hquote : isQuote quote = true) {context : Context} {v : Value}
    (hvalue : context.find? (String.ofList user) = some v) (hv : quote ∉ v.render)
    (engine : Engine) :
    text engine context (Component.forwarding name key quote user) = (do
      let shown ← component engine (text engine)
        ⟨name, .ofList [(key.name, .str (String.ofList v.render))]⟩
      through (stagesBehind engine context) shown) := by
  have hmessages := Component.passes_forwarding hname key hword hquote
  have hvalues := Component.substitute_forwarding hname key hword hquote huser hblank hvalue hv
  have hread := Component.read_calling_string hne hname key ⟨quote, v.render, hquote⟩ hv
  exact text_of_substitute hmessages hvalues hread engine

/-- A component that shows one of its parameters between literal texts, where there is room for
it. -/
theorem exec_component_showing {engine : Engine} {c : Component.Call} {t : Template}
    (h : engine.component? c.name = some t) {key front back : Text} (hne : key ≠ [])
    (hword : ∀ d ∈ key, isWord d = true) (hblank : ∀ d ∈ key.head?, isBlank d = false)
    (hsource : t.source.toList = front ++ (Variable.placeholder key ++ back))
    (hfront : '@' ∉ front ∧ '{' ∉ front) (hback : '@' ∉ back ∧ '{' ∉ back) {v : Value}
    (hvalue : c.params.find? (String.ofList key) = some v) (hat : '@' ∉ v.render)
    {st : RenderState} (hroom : st.stack.depth < st.stack.limit) :
    ∃ log, (component engine (text engine) c).exec st =
      (.ok (front ++ (v.render ++ back)), { st with visit.log := log }) := by
  have hpush := CallStack.push_eq_ok_iff.mpr
    (⟨hroom, rfl⟩ : _ ∧ _ = { st.stack with
      above := ⟨.component, String.ofList (componentTemplate c.name)⟩ :: st.stack.above })
  have hsubstituted : Variable.substitute c.params t.source.toList =
      front ++ (v.render ++ back) := by
    rw [hsource, Variable.substitute_placeholder hne hword hblank
      (beginsWith_placeholder.passes hfront.2 _) (beginsWith_placeholder.passes hback.2 []),
      Variable.textOf, hvalue]
  have hatKey : '@' ∉ key := Text.not_mem_of_forall hword (by decide +kernel)
  have hatSource : '@' ∉ t.source.toList := by
    rw [hsource]
    simp [Variable.placeholder, openBraces, closeBraces, hfront.1, hback.1, hatKey]
  have hatShown : '@' ∉ Variable.substitute c.params t.source.toList := by
    rw [hsubstituted]
    simp [hfront.1, hback.1, hat]
  have hinner : ∀ st, (text engine c.params t.source.toList).exec st =
      (.ok (front ++ (v.render ++ back)), st) := by
    intro st
    rw [text_of_values hatSource hatShown, hsubstituted, exec_pure]
  exact ⟨_, exec_component_of_entered h hpush (hinner _)⟩

end Render

namespace Engine

/-- A page that forwards the user to the component of greetings. -/
def greetingPage : Text :=
  "@component('greet', \x7b'name': '\x7b\x7b user \x7d\x7d'\x7d)".toList

/-- The template of that component. -/
def greetingSource : String :=
  "Hi \x7b\x7b name \x7d\x7d"

/-- The first name below is a word. -/
theorem isWord_of_mem_user : ∀ c ∈ "user".toList, isWord c = true :=
  List.all_eq_true.mp (by decide)

/-- The second name below is a word. -/
theorem isWord_of_mem_name : ∀ c ∈ "name".toList, isWord c = true :=
  List.all_eq_true.mp (by decide)

/-- The page, rendered where there is room for a component. -/
theorem exec_text_greeting {e : Engine} {t : Template}
    (hgreet : e.component? "greet".toList = some t) (hsource : t.source = greetingSource)
    {context : Context} {v : Value} (hvalue : context.find? "user" = some v)
    (hat : '@' ∉ v.render) (hquote : '\'' ∉ v.render) {st : RenderState}
    (hroom : st.stack.depth < st.stack.limit) :
    ∃ log, (Render.text e context greetingPage).exec st =
      (.ok ("Hi ".toList ++ v.render), { st with visit.log := log }) := by
  let key : Component.Key := ⟨'\'', "name".toList, rfl, by decide, isWord_of_mem_name⟩
  let shown : Value := .str (String.ofList v.render)
  have hrender : shown.render = v.render := String.toList_ofList
  have hname : ∀ c ∈ "greet".toList, Component.isNamePart c = true :=
    List.all_eq_true.mp (by decide)
  let call : Component.Call := ⟨"greet".toList, .ofList [(key.name, shown)]⟩
  have hparam : call.params.find? (String.ofList "name".toList) = some shown :=
    Dict.find?_ofList _ _
  have hshown : t.source.toList =
      "Hi ".toList ++ (Variable.placeholder "name".toList ++ []) := by
    rw [hsource]
    decide
  obtain ⟨log, hlog⟩ := Render.exec_component_showing (c := call) hgreet (by decide)
    isWord_of_mem_name (by rintro _ ⟨⟩; rfl) hshown (by decide) (by decide) hparam
    (by rwa [hrender]) hroom
  rw [List.append_nil, hrender] at hlog
  have hpage : greetingPage =
      Component.forwarding "greet".toList key '\'' "user".toList := by
    decide
  have hhi : '@' ∉ "Hi ".toList ++ v.render := by
    simp [hat]
  refine ⟨log, ?_⟩
  rw [hpage, Render.text_forwarding (by decide) hname key (by decide) isWord_of_mem_user
    (by rintro _ ⟨⟩; rfl) rfl hvalue hquote, Render.exec_bind_of_ok hlog,
    Render.through_of_not_mem hhi, Render.exec_pure]

/-- **A value is forwarded to a component as it is** when the quote that it is put between does not
occur in it, whatever other quotes, commas, braces and parentheses do: the page shows just the
component with that value, as a text and as a template, and leaves the session as it was. -/
theorem greeting_forwarded {e : Engine} (hdepth : 0 < e.maxDepth) {t : Template}
    (hgreet : e.component? "greet".toList = some t) (hsource : t.source = greetingSource)
    {v : String} (hat : '@' ∉ v.toList) (hquote : '\'' ∉ v.toList) {context : Context}
    (hvalue : context.find? "user" = some (.str v)) (visit : Visit) :
    (((e.oneOff greetingPage context).exec visit).1 = .ok ("Hi ".toList ++ v.toList) ∧
        ((e.oneOff greetingPage context).exec visit).2.session = visit.session) ∧
      ∀ name u, e.template? name = some u → u.source.toList = greetingPage →
        ((e.view name context).exec visit).1 = .ok ⟨"Hi ".toList ++ v.toList, .rendered⟩ ∧
          ((e.view name context).exec visit).2.session = visit.session := by
  have hroom : ∀ name, (e.stack .origin name).depth < (e.stack .origin name).limit :=
    fun _ => hdepth
  have hshown : ∀ st : RenderState, st.stack.depth < st.stack.limit →
      ∃ log, (Render.text e context greetingPage).exec st =
        (.ok ("Hi ".toList ++ v.toList), { st with visit.log := log }) :=
    fun _ => exec_text_greeting hgreet hsource hvalue hat hquote
  refine ⟨?_, ?_⟩
  · obtain ⟨log, hlog⟩ := hshown ⟨visit, e.stack .origin oneOffName⟩ (hroom _)
    rw [oneOff, Request.exec_run, hlog]
    exact ⟨rfl, rfl⟩
  · intro name u hu hpage
    obtain ⟨log, hlog⟩ :=
      hshown ⟨{ visit with log := visit.log ++ [.view name] }, e.stack .origin name⟩ (hroom _)
    have hrun := Request.exec_run (e.stack .origin name) (Render.text e context greetingPage)
      { visit with log := visit.log ++ [.view name] }
    rw [hlog] at hrun
    rw [exec_view hu, hpage, Request.exec_bind_of_ok hrun, Request.exec_pure]
    exact ⟨rfl, rfl⟩

/-- A value that looks like the rest of the call with another parameter, in the other quotes. -/
theorem greeting_forwarded_lookalike :
    let e := (empty.add (String.ofList (componentTemplate "greet".toList)) greetingSource).add
      "page" (String.ofList greetingPage)
    let v := "\", \"name\": \"x\"\x7d) [a, \x7b\x7b name"
    let context := Dict.empty.insert "user" (.str v)
    let visit : Visit := { session := { store := .empty, csrf := .constant "t" } }
    (0 < e.maxDepth ∧ '@' ∉ v.toList ∧ '\'' ∉ v.toList) ∧
      ((e.oneOff greetingPage context).exec visit).1 = .ok ("Hi ".toList ++ v.toList) ∧
      ((e.view "page" context).exec visit).1 = .ok ⟨"Hi ".toList ++ v.toList, .rendered⟩ := by
  intro e v context visit
  have hdepth : 0 < e.maxDepth := by decide
  have hat : '@' ∉ v.toList := by decide
  have hquote : '\'' ∉ v.toList := by decide
  have huser : context.find? "user" = some (.str v) := rfl
  obtain ⟨⟨hoff, -⟩, hview⟩ :=
    greeting_forwarded (e := e) hdepth rfl rfl hat hquote huser visit
  exact ⟨⟨hdepth, hat, hquote⟩, hoff, (hview "page" _ rfl String.toList_ofList).1⟩

/-- With the quote of the call in it, a value ends the string, and the call goes on without an end:
it is left in the page as a text. And without room, no component is shown. -/
theorem not_forall_greeting_forwarded :
    (¬ ∀ (e : Engine) (t : Template) (v : String) (visit : Visit),
      0 < e.maxDepth → e.component? "greet".toList = some t → t.source = greetingSource →
      '@' ∉ v.toList →
      ((e.oneOff greetingPage (Dict.empty.insert "user" (.str v))).exec visit).1.toOption =
        some ("Hi ".toList ++ v.toList)) ∧
    ¬ ∀ (e : Engine) (t : Template) (v : String) (visit : Visit),
      e.component? "greet".toList = some t → t.source = greetingSource →
      '@' ∉ v.toList → '\'' ∉ v.toList →
      ((e.oneOff greetingPage (Dict.empty.insert "user" (.str v))).exec visit).1.toOption =
        some ("Hi ".toList ++ v.toList) := by
  let e := empty.add (String.ofList (componentTemplate "greet".toList)) greetingSource
  let visit : Visit := { session := { store := .empty, csrf := .constant "t" } }
  refine ⟨?_, ?_⟩
  · intro h
    have hresult := h e _ "O'Brien" visit (by decide) rfl rfl (by decide)
    exact absurd hresult (by decide +kernel)
  · intro h
    have hresult := h (e.setMaxDepth 0) _ "O" visit rfl rfl (by decide) (by decide)
    exact absurd hresult (by decide +kernel)

end Engine

end HtmlViews
