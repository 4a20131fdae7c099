import HtmlViews.Proofs.Component.Parameters

/-!
# Calls written out

A call of a component is written out with its parameters between braces, as strings and lists of
strings under quoted keys. When neither a directive nor a placeholder begins in the strings, the
call stands in a text as it is written: it is read back with the parameters that were written,
whichever quotes were chosen.

Parameters that are written out differ from those that are printed in one point: nothing that the
stages before would read begins in their strings. So what is read of them is a case of what is read
of printed parameters, and what is left to prove is that they are inert, part by part: strings,
lists, keys, and the braces around all of them.

Which parameters can be written is said of the dictionary that they make (**Component.Writable**),
and for each such dictionary there is a way to write it (**Component.Writable.exists_paramsOf**).

* **Component.Quoted**, **Component.Item** — a string between quotes, alone or in a list.
* **Component.Written**, **Component.Param** — a value as it is written, and its key.
* **Component.Writable** — that parameters can be written.
* **Component.map_entry_setting** — what is read of parameters that are written out.
* **Component.isCall_writing** — a call that is written out is read back, with its parameters.
-/

namespace HtmlViews.Component

/-! ## Strings -/

/-- A string between quotes that do not occur in it, in which neither a directive nor a placeholder
begins. -/
structure Quoted where
  /-- The quote before and behind it. -/
  quote : Char
  /-- The string. -/
  body : Text
  isQuote_quote : isQuote quote = true
  quote_not_mem : quote ∉ body
  at_not_mem : '@' ∉ body
  noBraces : ¬ openBraces <:+: body

namespace Quoted

/-- The string with its quotes. -/
def text (q : Quoted) : Text :=
  q.quote :: q.body ++ [q.quote]

/-- The value that it stands for. -/
def value (q : Quoted) : Value :=
  .str (String.ofList q.body)

/-- A string between its quotes is inert. -/
theorem inert (q : Quoted) : Inert q.text :=
  .quoted q.isQuote_quote q.quote_not_mem q.at_not_mem q.noBraces

/-- The string without regard to what begins in it. -/
def literal (q : Quoted) : Literal where
  quote := q.quote
  body := q.body
  isQuote_quote := q.isQuote_quote

end Quoted

/-- A string that can stand in a list: it is not empty, separates nothing, and does not begin or end
with what is stripped from the items of a list. -/
structure Item extends Quoted where
  body_ne_nil : body ≠ []
  comma_not_mem : ',' ∉ body
  bracket_not_mem : ']' ∉ body
  first : ∀ c ∈ body.head?, isItemEdge c = false
  last : ∀ c ∈ body.getLast?, isItemEdge c = false

/-- What is written as an item is read as one. -/
theorem Item.isItem (i : Item) : i.literal.IsItem :=
  ⟨i.body_ne_nil, i.comma_not_mem, i.first, i.last⟩

/-! ## Lists -/

/-- The comma and the blank between two settings are inert. -/
theorem inert_separator : Inert separator :=
  .of_neutral rfl (by decide) (by decide)

/-- The items of a list, without its brackets. -/
def listed (items : List Item) : Text :=
  Text.joinWith separator (items.map fun i => i.text)

/-- A list between its brackets is inert. -/
theorem inert_listed (items : List Item) : Inert (listed items) := by
  apply Text.joinWith_induction .nil .append inert_separator
  intro p hp
  obtain ⟨i, -, rfl⟩ := List.mem_map.mp hp
  exact i.inert

/-! ## Values -/

/-- A value as it is written. -/
inductive Written where
  /-- A string. -/
  | string (s : Quoted)
  /-- A list of strings. -/
  | list (items : List Item)

namespace Written

/-- The text that is written. -/
def text : Written → Text
  | .string s => s.text
  | .list items => '[' :: listed items ++ [']']

/-- The value that it stands for. -/
def value : Written → Value
  | .string s => s.value
  | .list items => .array (items.map fun i => i.value)

/-- A written value is inert. -/
theorem inert (v : Written) : Inert v.text := by
  cases v with
  | string s => exact s.inert
  | list items =>
    have hopening : Inert ['['] := .of_neutral rfl (by decide) (by decide)
    have hclosing : Inert [']'] := .of_neutral rfl (by decide) (by decide)
    exact (hopening.append (inert_listed items)).append hclosing

/-- The value without regard to what begins in its strings. -/
def printed : Written → Printed
  | .string s => .string s.literal s.quote_not_mem
  | .list items =>
    .list (items.map fun i => i.literal) <| by
      intro l hl
      obtain ⟨i, -, rfl⟩ := List.mem_map.mp hl
      exact i.bracket_not_mem

/-- A written value has the same text as it is printed. -/
theorem text_printed (v : Written) : v.printed.text = v.text := by
  cases v with
  | string s => rfl
  | list items =>
    have hlisted : enumerated (items.map fun i => i.literal) = listed items := by
      rw [enumerated, List.map_map]
      rfl
    rw [printed, Printed.text, hlisted, text]

/-- What is written is read. -/
theorem read_printed (v : Written) : v.printed.read = v.value := by
  have hplain : v.printed.IsPlain := by
    cases v with
    | string s => trivial
    | list items =>
      intro l hl
      obtain ⟨i, -, rfl⟩ := List.mem_map.mp hl
      exact i.isItem
  rw [hplain.read_eq]
  cases v with
  | string s => rfl
  | list items =>
    rw [printed, Printed.value, List.map_map]
    rfl

end Written

/-! ## Parameters -/

/-- A parameter as it is written: a key that is a word between quotes, and a value. -/
structure Param where
  /-- The quote before and behind the key. -/
  quote : Char
  /-- The key. -/
  key : Text
  /-- The value. -/
  value : Written
  isQuote_quote : isQuote quote = true
  key_ne_nil : key ≠ []
  isWord_key : ∀ c ∈ key, isWord c = true

namespace Param

/-- The text that is written. -/
def text (p : Param) : Text :=
  p.quote :: p.key ++ [p.quote] ++ ([':', ' '] ++ p.value.text)

/-- The entry of the parameters that it stands for. -/
def entry (p : Param) : String × Value :=
  (String.ofList p.key, p.value.value)

/-- The key of a parameter consists of the characters of names. -/
theorem isNamePart_key (p : Param) : ∀ c ∈ p.key, isNamePart c = true := by
  intro c hc
  simp [isNamePart, p.isWord_key c hc]

/-- A written parameter is inert. -/
theorem inert (p : Param) : Inert p.text := by
  have hcolon : Inert [':', ' '] := .of_neutral rfl (by decide) (by decide)
  exact (inert_name p.isNamePart_key p.isQuote_quote).append (hcolon.append p.value.inert)

/-- The parameter without regard to what begins in its strings. -/
def setting (p : Param) : Setting where
  key := ⟨p.quote, p.key, p.isQuote_quote, p.key_ne_nil, p.isWord_key⟩
  value := p.value.printed

/-- A written parameter is a setting with the same text. -/
theorem text_setting (p : Param) : p.setting.text = p.text := by
  rw [Setting.text, setting, p.value.text_printed, text]

/-- It makes the same entry. -/
theorem entry_setting (p : Param) : p.setting.entry = p.entry := by
  rw [Setting.entry, setting, p.value.read_printed, entry]
  rfl

end Param

/-- Parameters between braces. -/
def writtenParams (ps : List Param) : Text :=
  '{' :: Text.joinWith separator (ps.map Param.text) ++ ['}']

/-- The parameters that are written; of two with one key the later counts. -/
def paramsOf (ps : List Param) : Context :=
  .ofList (ps.map Param.entry)

/-- Whether parameters can be written: their keys are words, and their values are strings or lists
of strings that can be put between quotes. -/
def Writable (params : Context) : Prop :=
  ∀ e ∈ params.entries, (e.1 ≠ "" ∧ ∀ c ∈ e.1.toList, isWord c = true) ∧
    ∃ v : Written, v.value = e.2

/-- Parameters that can be written are those of some list of written parameters. -/
theorem Writable.exists_paramsOf {params : Context} (h : Writable params) :
    ∃ ps, paramsOf ps = params := by
  have hentry : ∀ e ∈ params.entries, ∃ p : Param, p.entry = e := by
    intro e he
    obtain ⟨⟨hne, hword⟩, v, hv⟩ := h e he
    refine ⟨⟨'\'', e.1.toList, v, rfl, mt String.toList_eq_nil_iff.mp hne, hword⟩, ?_⟩
    exact Prod.ext String.ofList_toList hv
  have hentries : ∃ ps : List Param, ps.map Param.entry = params.entries := by
    generalize params.entries = es at hentry
    induction es with
    | nil => exact ⟨[], rfl⟩
    | cons e es ih =>
      obtain ⟨⟨p, hp⟩, hrest⟩ := List.forall_mem_cons.mp hentry
      obtain ⟨ps, hps⟩ := ih hrest
      exact ⟨p :: ps, by rw [List.map_cons, hp, hps]⟩
  obtain ⟨ps, hps⟩ := hentries
  refine ⟨ps, ?_⟩
  rw [paramsOf, hps, Dict.ofList_entries]

/-! ## Reading what is written -/

/-- Written parameters are settings with the same text. -/
theorem settings_map_setting (ps : List Param) :
    settings (ps.map Param.setting) = writtenParams ps := by
  rw [settings, List.map_map, writtenParams]
  exact congrArg (fun text => '{' :: Text.joinWith separator (ps.map text) ++ ['}'])
    (funext Param.text_setting)

/-- What is read of parameters that are written out are these parameters. -/
theorem map_entry_setting (ps : List Param) :
    (ps.map Param.setting).map Setting.entry = ps.map Param.entry := by
  rw [List.map_map]
  exact congrArg (ps.map ·) (funext Param.entry_setting)

/-- The braces of a list of parameters begin no placeholder: behind the first one stands a quote. -/
theorem inert_writtenParams (ps : List Param) : Inert (writtenParams ps) := by
  have hjoined : Inert (Text.joinWith separator (ps.map Param.text)) := by
    apply Text.joinWith_induction .nil .append inert_separator
    intro s hs
    obtain ⟨p, -, rfl⟩ := List.mem_map.mp hs
    exact p.inert
  have hclosing : Inert ['}'] := .of_neutral rfl (by decide) (by decide)
  have hrest := hjoined.append hclosing
  have hfirst : ∀ r, ∀ c ∈ (Text.joinWith separator (ps.map Param.text) ++ ['}'] ++ r).head?,
      c ≠ '{' := by
    intro r c hc
    cases ps with
    | nil =>
      rw [← Option.some.inj hc]
      decide
    | cons p ps =>
      have hquote : p.quote = c := by
        cases ps <;> exact Option.some.inj hc
      rintro rfl
      have := p.isQuote_quote
      rw [hquote] at this
      cases this
  have hbrace : Text.Balanced ['{'] := .neutral rfl
  refine ⟨hbrace.append hrest.balanced, ?_, ?_⟩
  · exact not_or.mpr ⟨by decide, hrest.noDirective⟩ ∘ List.mem_cons.mp
  · intro r
    have hsingle : ¬ openBraces <:+: ['{'] := by decide
    exact (passes_placeholder hsingle (hfirst r)).append (hrest.noPlaceholder r)

/-- The text of a call of a component with parameters. -/
def writing (name : Text) (ps : List Param) : Text :=
  calling ('\'' :: name ++ ['\''] ++ (separator ++ writtenParams ps))

/-- A call that is written out is read back, with its parameters. -/
theorem isCall_writing {name : Text} (hne : name ≠ []) (hname : ∀ c ∈ name, isNamePart c = true)
    (ps : List Param) : IsCall (writing name ps) ⟨name, paramsOf ps⟩ := by
  have hquote : isQuote '\'' = true := rfl
  have hinert := inert_separator.append (inert_writtenParams ps)
  apply isCall_calling ((inert_name hname hquote).append hinert)
  have hcall := ofArguments?_arguments hne hname (ps.map Param.setting)
  rwa [arguments, settings_map_setting, map_entry_setting] at hcall

end HtmlViews.Component
