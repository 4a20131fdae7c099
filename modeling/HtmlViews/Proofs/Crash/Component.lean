import HtmlViews.Proofs.Component.Writing
import HtmlViews.Proofs.Crash.Capture
import HtmlViews.Proofs.Crash.Directive
import Mathlib.Data.List.TakeWhile

/-!
# Component calls without crashing

The arguments of a call are taken apart by two patterns, one for the call and one for its
parameters. The value of a parameter is what the pattern leaves for it, which may be empty, a single
quote or a quote that is never closed; only what has two ends of its own loses them.

The pattern for parameters leaves an argument as a run of characters and nothing more, and the value
is made of these afterwards. So the proof shows that the characters which an argument was read from
have the value that was read (**Component.checkedValue_rawArgument**), in the three cases that
reading knows (**Component.Argument.read_cases**). The third is the delicate one: an argument that
opens a quote or a bracket and does not close it must not lose its last character. It does not,
since what would close it is not in it.

For the calls themselves the proof follows the search from one directive to the next, by induction
on the length of what is left.

* **Value.convert** — the value that data are converted to when they are put into a context.
* **Component.checkedValue** — the value of a parameter by its characters.
* **Component.checkedParams_eq** — reading parameters never crashes.
* **Component.checkedExpand_eq** — expanding calls crashes only where a component does.
-/

namespace HtmlViews

/-! ## Conversion -/

namespace Value

mutual

/-- The value that data are converted to when they are put into a context. -/
def convert : Value → Except Failure Value
  | .array items => do
    let items ← convertItems items
    pure (.array items)
  | .object ⟨fields⟩ => do
    let fields ← convertFields fields
    ofKeyed fields
  | v => .ok v

/-- The items of a list converted one after the other. -/
def convertItems : List Value → Except Failure (List Value)
  | [] => .ok []
  | v :: vs => do
    let w ← convert v
    let ws ← convertItems vs
    pure (w :: ws)

/-- The fields of an object converted one after the other; their names are keys. -/
def convertFields {before : Option String} :
    Dict.Row Value before → Except Failure (List (Value × Value))
  | .nil => .ok []
  | .cons k v _ fields => do
    let w ← convert v
    let ws ← convertFields fields
    pure ((.str k, w) :: ws)

end

/-- A list of strings is converted to itself. -/
theorem convert_array_strings (strings : List String) :
    convert (.array (strings.map .str)) = .ok (.array (strings.map .str)) := by
  have hitems : convertItems (strings.map .str) = .ok (strings.map .str) := by
    induction strings with
    | nil => rfl
    | cons s strings ih =>
      rw [List.map_cons, convertItems, ih]
      rfl
  rw [convert, hitems]
  rfl

end Value

namespace Text

variable {α : Type}

/-- What a reader finds in a text, in the order of the text. -/
def finds (reader : Reader α) (s : Text) : List α :=
  (pieces reader s).filterMap fun
    | .plain _ => none
    | .found a => some a

/-- In the empty text nothing is found. -/
@[simp] theorem finds_nil (reader : Reader α) : finds reader [] = [] := by
  simp [finds]

/-- Where nothing is read, the finds are those behind the next character. -/
theorem finds_cons_of_none {reader : Reader α} {c : Char} {s : Text}
    (h : reader.read (c :: s) = none) : finds reader (c :: s) = finds reader s := by
  rw [finds, pieces_cons_of_none h]
  rfl

/-- What is read is found first. -/
theorem finds_of_some {reader : Reader α} {s r : Text} {a : α}
    (h : reader.read s = some (a, r)) : finds reader s = a :: finds reader r := by
  rw [finds, pieces_of_some h]
  rfl

/-- A text without a character is not cut at that character. -/
theorem not_mem_of_cut?_eq_none {d : Char} {s : Text} (h : cut? [d] s = none) : d ∉ s := by
  intro hd
  obtain ⟨front, r, rfl, hfront⟩ := List.eq_append_cons_of_mem hd
  rw [cut?_run hfront] at h
  cases h

/-- A text that begins with a character that stays keeps it when its end is dropped. -/
theorem exists_dropEnd_cons {p : Char → Bool} {c : Char} (hc : p c = false) (s : Text) :
    ∃ s', dropEnd p (c :: s) = c :: s' ∧ s' <+: s :=
  ⟨dropEnd p s, dropEnd_append_cons hc [] s, dropEnd_isPrefix p s⟩

/-- A text without the blanks at its beginning begins with no blank. -/
theorem head?_dropBlanks (s : Text) : ∀ c ∈ (dropBlanks s).head?, isBlank c = false := by
  intro c hc
  have hhead := List.head?_dropWhile_not isBlank s
  rw [show (s.dropWhile isBlank).head? = some c from hc] at hhead
  exact hhead

end Text

namespace Component

/-! ## Values -/

/-- Whether a text begins with one character and ends with another one, which may be the same. -/
def HasEnds (first last : Char) (t : Text) : Prop :=
  t.head? = some first ∧ t.getLast? = some last

instance (first last : Char) : DecidablePred (HasEnds first last) := fun t =>
  inferInstanceAs (Decidable (t.head? = some first ∧ t.getLast? = some last))

/-- The value of a parameter by its characters. -/
def checkedValue (raw : Text) : Checked Value :=
  let raw := Text.trim raw
  if HasEnds '[' ']' raw then do
    let t ← raw.withoutEnds
    pure (.array (itemsOf t))
  else if 2 ≤ raw.utf8Length ∧ (HasEnds '\'' '\'' raw ∨ HasEnds '"' '"' raw) then do
    let t ← raw.withoutEnds
    pure (.str (String.ofList t))
  else .ok (.str "")

/-- A text between two characters has these at its ends. -/
theorem hasEnds (first last : Char) (t : Text) : HasEnds first last (first :: t ++ [last]) :=
  ⟨rfl, List.getLast?_concat⟩

/-- A text between brackets is a list. -/
theorem checkedValue_items (t : Text) :
    checkedValue ('[' :: t ++ [']']) = .ok (.array (itemsOf t)) := by
  have hopening : isBlank '[' = false := by decide
  have hclosing : isBlank ']' = false := by decide
  simp only [checkedValue, Text.trim, Text.strip_between hopening hclosing]
  rw [if_pos (hasEnds _ _ t), Text.withoutEnds_eq rfl rfl]
  rfl

/-- A text between quotes is a string. -/
theorem checkedValue_quoted {q : Char} (hq : isQuote q = true) (t : Text) :
    checkedValue (q :: t ++ [q]) = .ok (.str (String.ofList t)) := by
  have hblank := isBlank_of_isQuote hq
  have hsize := Text.utf8Size_of_isQuote hq
  have hbracket : ¬ HasEnds '[' ']' (q :: t ++ [q]) := by
    rintro ⟨hhead, -⟩
    obtain rfl : q = '[' := Option.some.inj hhead
    cases hq
  have hquotes : HasEnds '\'' '\'' (q :: t ++ [q]) ∨ HasEnds '"' '"' (q :: t ++ [q]) := by
    rcases isQuote_iff.mp hq with rfl | rfl
    · exact .inl (hasEnds _ _ t)
    · exact .inr (hasEnds _ _ t)
  have hlength : 2 ≤ Text.utf8Length (q :: t ++ [q]) := by
    rw [Text.utf8Length_append, Text.utf8Length_cons, Text.utf8Length_cons, hsize]
    omega
  simp only [checkedValue, Text.trim, Text.strip_between hblank hblank]
  rw [if_neg hbracket, if_pos ⟨hlength, hquotes⟩, Text.withoutEnds_eq hsize hsize]
  rfl

/-- What is only opened has no ends: the bracket or the quote that it begins with does not stand in
it again. -/
theorem checkedValue_bare {raw : Text} (hblank : ∀ c ∈ raw.head?, isBlank c = false)
    (hbracket : ∀ u, raw = '[' :: u → ']' ∉ u)
    (hquote : ∀ q u, isQuote q = true → raw = q :: u → q ∉ u) :
    checkedValue raw = .ok (.str "") := by
  cases raw with
  | nil => rfl
  | cons c u =>
    obtain ⟨u', htrim, hbegins⟩ := Text.exists_dropEnd_cons (hblank c rfl) u
    have hkept : Text.trim (c :: u) = c :: u' := by
      rw [Text.trim, Text.strip, List.dropWhile_cons_of_neg (by simp [hblank c rfl]), htrim]
    have hends : ∀ {first last}, HasEnds first last (c :: u') →
        c = first ∧ ((u' = [] ∧ c = last) ∨ last ∈ u) := by
      rintro first last ⟨hhead, hlast⟩
      refine ⟨Option.some.inj hhead, ?_⟩
      cases u' with
      | nil => exact .inl ⟨rfl, Option.some.inj hlast⟩
      | cons d v =>
        rw [List.getLast?_cons_cons] at hlast
        exact .inr (hbegins.subset (List.mem_of_getLast? hlast))
    have hlist : ¬ HasEnds '[' ']' (c :: u') := by
      intro h
      obtain ⟨rfl, ⟨-, hlast⟩ | hmem⟩ := hends h
      · exact absurd hlast (by decide)
      · exact hbracket u rfl hmem
    have hstring : ∀ q, isQuote q = true → 2 ≤ Text.utf8Length (c :: u') →
        ¬ HasEnds q q (c :: u') := by
      intro q hq hlength h
      obtain ⟨rfl, ⟨rfl, -⟩ | hmem⟩ := hends h
      · rw [Text.utf8Length_cons, Text.utf8Size_of_isQuote hq] at hlength
        exact absurd hlength (by decide)
      · exact hquote c u hq rfl hmem
    simp only [checkedValue, hkept]
    rw [if_neg hlist, if_neg]
    rintro ⟨hlength, h | h⟩
    · exact hstring _ rfl hlength h
    · exact hstring _ rfl hlength h

/-! ## Parameters -/

/-- The characters of the argument that a text begins with. -/
def rawArgument (s : Text) : Text :=
  s.take (s.length - (Argument.read s).2.length)

/-- Whether a character can stand in an argument that is neither a list nor a string. -/
def isBarePart (c : Char) : Bool :=
  c ≠ ',' && c ≠ '}'

/-- An argument is a list or a string that is closed, or what it begins with is not closed and it
goes up to the next comma or brace. -/
theorem Argument.read_cases (c : Char) (u : Text) :
    (∃ t r, c = '[' ∧ u = t ++ ']' :: r ∧ Argument.read (c :: u) = (.items t, r)) ∨
    (∃ t r, isQuote c = true ∧ u = t ++ c :: r ∧ Argument.read (c :: u) = (.quoted t, r)) ∨
    ((c = '[' → ']' ∉ u) ∧ (isQuote c = true → c ∉ u) ∧
      Argument.read (c :: u) = (.bare, (c :: u).dropWhile isBarePart)) := by
  by_cases hbracket : c = '['
  · subst hbracket
    cases hcut : Text.cut? [']'] u with
    | some cut =>
      obtain ⟨t, r⟩ := cut
      exact .inl ⟨t, r, rfl, by simpa using Text.eq_of_cut? hcut, by simp [Argument.read, hcut]⟩
    | none =>
      refine .inr (.inr ⟨fun _ => Text.not_mem_of_cut?_eq_none hcut,
        (absurd · Bool.false_ne_true), ?_⟩)
      simp only [Argument.read, decide_true, Bool.true_or, if_true, hcut]
      rfl
  by_cases hquote : isQuote c = true
  · cases hcut : Text.cut? [c] u with
    | some cut =>
      obtain ⟨t, r⟩ := cut
      exact .inr (.inl ⟨t, r, hquote, by simpa using Text.eq_of_cut? hcut,
        by simp [Argument.read, hbracket, hquote, hcut]⟩)
    | none =>
      refine .inr (.inr ⟨(absurd · hbracket), fun _ => Text.not_mem_of_cut?_eq_none hcut, ?_⟩)
      simp only [Argument.read, hbracket, hquote, if_false, hcut]
      rfl
  · refine .inr (.inr ⟨(absurd · hbracket), (absurd · hquote), ?_⟩)
    simp only [Argument.read, hbracket, hquote]
    rfl

/-- The characters of an argument without quotes or brackets go up to a comma or a brace. -/
theorem rawArgument_of_bare {s : Text} (h : Argument.read s = (.bare, s.dropWhile isBarePart)) :
    rawArgument s = s.takeWhile isBarePart := by
  have hs : s.takeWhile isBarePart ++ s.dropWhile isBarePart = s :=
    List.takeWhile_append_dropWhile
  have hlength := congrArg List.length hs
  rw [List.length_append] at hlength
  rw [rawArgument, h, ← hlength, Nat.add_sub_cancel]
  exact (congrArg (List.take _) hs.symm).trans List.take_left

/-- The characters of an argument are those that reading it takes away. -/
theorem rawArgument_of_append {t r : Text} {a : Argument} (h : Argument.read (t ++ r) = (a, r)) :
    rawArgument (t ++ r) = t := by
  rw [rawArgument, h, List.length_append, Nat.add_sub_cancel]
  exact List.take_left

/-- An argument that is neither a list nor a string has the empty string as its value. -/
theorem checkedValue_of_bare {c : Char} {u : Text}
    (hread : Argument.read (c :: u) = (.bare, (c :: u).dropWhile isBarePart))
    (hblank : isBlank c = false) (hbracket : c = '[' → ']' ∉ u)
    (hquote : isQuote c = true → c ∉ u) :
    checkedValue (rawArgument (c :: u)) = .ok (.str "") := by
  have hbegins : (c :: u).takeWhile isBarePart <+: c :: u :=
    List.takeWhile_prefix _
  rw [rawArgument_of_bare hread]
  generalize (c :: u).takeWhile isBarePart = raw at hbegins
  cases raw with
  | nil => rfl
  | cons d v =>
    obtain ⟨rfl, hv⟩ := List.cons_prefix_cons.mp hbegins
    apply checkedValue_bare
    · rintro _ ⟨⟩
      exact hblank
    · rintro w ⟨⟩ hmem
      exact hbracket rfl (hv.subset hmem)
    · rintro q w hq ⟨⟩ hmem
      exact hquote hq (hv.subset hmem)

/-- The characters of an argument have its value. -/
theorem checkedValue_rawArgument {s : Text} (hblank : ∀ c ∈ s.head?, isBlank c = false) :
    checkedValue (rawArgument s) = .ok (Argument.read s).1.value := by
  cases s with
  | nil => rfl
  | cons c u =>
    rcases Argument.read_cases c u with ⟨t, r, rfl, rfl, hread⟩ | ⟨t, r, hquote, rfl, hread⟩ |
      ⟨hbracket, hquote, hread⟩
    · have hshape : '[' :: (t ++ ']' :: r) = ('[' :: t ++ [']']) ++ r := by simp
      rw [hread, hshape, rawArgument_of_append (hshape ▸ hread), checkedValue_items]
      rfl
    · have hshape : c :: (t ++ c :: r) = (c :: t ++ [c]) ++ r := by simp
      rw [hread, hshape, rawArgument_of_append (hshape ▸ hread), checkedValue_quoted hquote]
      rfl
    · rw [checkedValue_of_bare hread (hblank _ rfl) hbracket hquote, hread]
      rfl

/-! ## Lists of parameters -/

/-- The parameter that a text begins with, as the groups of a find: the key and the characters of
the argument. -/
def paramCaptures? (s : Text) : Option (Captures × Text) := do
  let (key, t) ← quotedWord? isWord s
  let t ← Text.after? [':'] (Text.dropBlanks t)
  let t := Text.dropBlanks t
  let r := (Argument.read t).2
  pure (⟨s.take (s.length - r.length), [some key, some (rawArgument t)]⟩, r)

/-- What is found is a parameter, and its characters have its value. -/
theorem paramCaptures?_eq (s : Text) :
    (param? s = none ∧ paramCaptures? s = none) ∨
      ∃ key argument whole raw r, param? s = some ((key, argument), r) ∧
        paramCaptures? s = some (⟨whole, [some key, some raw]⟩, r) ∧
        checkedValue raw = .ok argument.value := by
  unfold param? paramCaptures?
  cases quotedWord? isWord s with
  | none => exact .inl ⟨rfl, rfl⟩
  | some found =>
    obtain ⟨key, t⟩ := found
    cases hafter : Text.after? [':'] (Text.dropBlanks t) with
    | none =>
      left
      simp [hafter]
    | some t =>
      right
      refine ⟨key, (Argument.read (Text.dropBlanks t)).1,
        s.take (s.length - (Argument.read (Text.dropBlanks t)).2.length),
        rawArgument (Text.dropBlanks t), (Argument.read (Text.dropBlanks t)).2, ?_, ?_, ?_⟩
      · simp [hafter]
      · simp [hafter]
      · exact checkedValue_rawArgument (Text.head?_dropBlanks t)

/-- The reader of parameters as the groups of finds. -/
def paramCapturesReader : Reader Captures where
  read := paramCaptures?
  shorter {s r _} h := by
    rcases paramCaptures?_eq s with ⟨-, hnone⟩ |
      ⟨key, argument, whole, raw, r', hparam, hcaptures, -⟩
    · rw [hnone] at h
      cases h
    · rw [hcaptures] at h
      obtain ⟨-, rfl⟩ := Prod.mk.inj (Option.some.inj h)
      exact paramReader.shorter hparam

/-- Some parameters with one more, which has to have a key and an argument. -/
def checkedParam (params : Context) (caps : Captures) : Checked Context := do
  let key ← caps.get 1
  let raw ← caps.get 2
  let value ← checkedValue raw
  let stored ← Checked.unwrap value.convert.toOption
  pure (params.insert (String.ofList key) stored)

/-- The parameters in a text; of two with one name the later counts. -/
def checkedParams (s : Text) : Checked Context :=
  (Text.finds paramCapturesReader s).foldlM checkedParam .empty

/-- The items of a list are strings. -/
theorem exists_strings_of_itemsOf (t : Text) :
    ∃ strings : List String, itemsOf t = strings.map .str := by
  refine ⟨(parts t).map String.ofList, ?_⟩
  rw [itemsOf_eq_map_parts, List.map_map]
  rfl

/-- The value of a parameter is converted to itself. -/
theorem convert_value (argument : Argument) : argument.value.convert = .ok argument.value := by
  cases argument with
  | items t =>
    obtain ⟨strings, hstrings⟩ := exists_strings_of_itemsOf t
    rw [Argument.value, hstrings]
    exact Value.convert_array_strings strings
  | quoted t => rfl
  | bare => rfl

/-- Both groups of a parameter are there, so its value is put in under its key. -/
theorem checkedParam_eq (params : Context) (whole : Text) {key raw : Text} {argument : Argument}
    (h : checkedValue raw = .ok argument.value) :
    checkedParam params ⟨whole, [some key, some raw]⟩ =
      .ok (params.insert (String.ofList key) argument.value) := by
  have hkey : Captures.get ⟨whole, [some key, some raw]⟩ 1 = .ok key := Captures.get_succ rfl
  have hraw : Captures.get ⟨whole, [some key, some raw]⟩ 2 = .ok raw := Captures.get_succ rfl
  simp only [checkedParam, hkey, hraw, h, convert_value, bind, Except.bind]
  rfl

/-- The parameters of a text are put in one after the other. -/
theorem foldlM_checkedParam (params : Context) (s : Text) :
    (Text.finds paramCapturesReader s).foldlM checkedParam params =
      .ok (params.insertAll (entries s)) := by
  unfold entries
  fun_induction Text.pieces paramReader s generalizing params with
  | case1 =>
    rw [Text.finds_nil]
    rfl
  | case2 c s found r hread ih =>
    obtain ⟨key, argument⟩ := found
    rcases paramCaptures?_eq (c :: s) with ⟨hnone, -⟩ |
      ⟨key', argument', whole, raw, r', hparam, hcaptures, hvalue⟩
    · -- Both searches read the same parameter, so the one cannot fail where the other does not.
      rw [show param? (c :: s) = _ from hread] at hnone
      cases hnone
    · rw [show param? (c :: s) = _ from hread] at hparam
      obtain ⟨⟨rfl, rfl⟩, rfl⟩ : (key = key' ∧ argument = argument') ∧ r = r' := by
        simpa using hparam
      have hfind : paramCapturesReader.read (c :: s) = some (_, r) := hcaptures
      rw [Text.finds_of_some hfind, List.foldlM_cons, checkedParam_eq params whole hvalue]
      exact ih _
  | case3 c s hread ih =>
    rcases paramCaptures?_eq (c :: s) with ⟨-, hnone⟩ |
      ⟨key, argument, whole, raw, r, hparam, -⟩
    · have hfind : paramCapturesReader.read (c :: s) = none := hnone
      rw [Text.finds_cons_of_none hfind]
      exact ih params
    · rw [show param? (c :: s) = _ from hread] at hparam
      cases hparam

/-- Reading parameters never crashes. -/
theorem checkedParams_eq (s : Text) : checkedParams s = .ok (parseParams s) :=
  foldlM_checkedParam .empty s

/-! ## Calls -/

/-- The call that the arguments between parentheses make, as the groups of a find: the name, and the
parameters if there is a comma. -/
def callCaptures? (arguments : Text) : Option Captures := do
  let (name, s) ← quotedWord? isNamePart (Text.dropBlanks arguments)
  match Text.dropBlanks s with
  | [] => pure ⟨arguments, [some name, none]⟩
  | ',' :: s => pure ⟨arguments, [some name, some (Text.trim s)]⟩
  | _ => none

/-- The call of a find. Only the parameters may be missing. -/
def checkedCall (caps : Captures) : Checked Call := do
  let params ← match caps.get? 2 with
    | some s => checkedParams s
    | none => .ok .empty
  let name ← caps.get 1
  pure ⟨name, params⟩

/-- What is found is a call, and its groups make it. -/
theorem callCaptures?_eq (arguments : Text) :
    (Call.ofArguments? arguments = none ∧ callCaptures? arguments = none) ∨
      ∃ call caps, Call.ofArguments? arguments = some call ∧
        callCaptures? arguments = some caps ∧ checkedCall caps = .ok call := by
  unfold Call.ofArguments? callCaptures?
  cases quotedWord? isNamePart (Text.dropBlanks arguments) with
  | none => exact .inl ⟨rfl, rfl⟩
  | some found =>
    obtain ⟨name, s⟩ := found
    simp only [Option.bind_eq_bind, Option.bind_some]
    cases Text.dropBlanks s with
    | nil => exact .inr ⟨⟨name, .empty⟩, ⟨arguments, [some name, none]⟩, rfl, rfl, rfl⟩
    | cons c t =>
      by_cases hcomma : c = ','
      · subst hcomma
        refine .inr ⟨⟨name, parseParams (Text.trim t)⟩,
          ⟨arguments, [some name, some (Text.trim t)]⟩, rfl, rfl, ?_⟩
        show (do let params ← checkedParams (Text.trim t); _) = _
        rw [checkedParams_eq]
        rfl
      · exact .inl (by simp [hcomma])

/-! ## Expansion -/

section Expansion

open Crashing

variable {m : Type → Type} [Monad m]

/-- A text with its component calls replaced by what `render` makes of them, from left to right.
Directives that are no calls stay as they are and are reported to `warn`. -/
def checkedExpand (warn : LogEntry → m Unit) (render : Call → Crashing m Text) (rest : Text) :
    Crashing m Text := do
  match ← check (Text.opened? opening rest) with
  | none => pure rest
  | some o => do
    let front ← check (rest.slice 0 o.start)
    match o.close with
    | none => do
      safely (warn (.failed unclosedFailure))
      let ⟨behind, _hbehind⟩ ← known (rest.sliceFrom (o.opening + 1))
      let out ← checkedExpand warn render behind
      pure (front ++ (opening ++ out))
    | some close => do
      let arguments ← check (rest.slice (o.opening + 1) close)
      let shown ← match callCaptures? arguments with
        | some caps => do
          let call ← check (checkedCall caps)
          render call
        | none => do
          safely (warn (.failed (malformedFailure arguments)))
          check (rest.slice o.start (close + 1))
      let ⟨behind, _hbehind⟩ ← known (rest.sliceFrom (close + 1))
      let out ← checkedExpand warn render behind
      pure (front ++ (shown ++ out))
termination_by rest.utf8Length
decreasing_by
  · exact Text.utf8Length_lt_of_sliceFrom _hbehind
  · exact Text.utf8Length_lt_of_sliceFrom _hbehind

/-- What is found begins with the directive. -/
theorem read_eq_none {s : Text} (h : Text.after? opening s = none) : reader.read s = none := by
  show (Text.after? opening s).map _ = none
  rw [h]
  rfl

variable [LawfulMonad m] {warn : LogEntry → m Unit} {render : Call → Crashing m Text}
  {rest front s : Text}

/-- Where no call begins, the text stays as it is. -/
theorem checkedExpand_of_cut?_eq_none (h : Text.cut? opening rest = none) :
    checkedExpand warn render rest = pure rest := by
  rw [checkedExpand, Text.opened?_of_cut?_eq_none h, check_ok, pure_bind]

/-- The next call is replaced by what it renders to, and the search goes on behind it. -/
theorem exists_checkedExpand {g : Call → m Text} (hrender : ∀ c, render c = safely (g c))
    (h : Text.cut? opening rest = some (front, s)) :
    ∃ found behind, reader.read (opening ++ s) = some (found, behind) ∧
      checkedExpand warn render rest = (do
        let shown ← safely (match found with
          | .call c => g c
          | .malformed arguments => do
            warn (.failed (malformedFailure arguments))
            pure (opening ++ arguments ++ [')'])
          | .unclosed => do
            warn (.failed unclosedFailure)
            pure opening)
        let out ← checkedExpand warn render behind
        pure (front ++ (shown ++ out))) := by
  rw [checkedExpand]
  simp only [reader, Found.read?, Text.after?_append, Option.map_some]
  cases hclosing : Text.closing? s with
  | none =>
    obtain ⟨o, hopened, hparts⟩ := Text.exists_unclosed h hclosing ⟨"@component".toList, rfl⟩
    refine ⟨.unclosed, s, rfl, ?_⟩
    simp only [hopened, hparts.before, hparts.closed, known_of_ok hparts.behind, check_ok,
      pure_bind, safely_bind, safely_pure, bind_assoc]
  | some closed =>
    obtain ⟨arguments, behind⟩ := closed
    obtain ⟨o, close, hopened, hparts⟩ := Text.exists_closed h hclosing ⟨"@component".toList, rfl⟩
    rcases callCaptures?_eq arguments with ⟨hnone, hcaptures⟩ |
      ⟨call, caps, hsome, hcaptures, hcall⟩
    · refine ⟨.malformed arguments, behind, by simp only [hnone], ?_⟩
      simp only [hopened, hparts.before, hparts.closed, hparts.argument, hparts.directive,
        hcaptures, known_of_ok hparts.behind, check_ok, pure_bind, safely_bind, safely_pure,
        bind_assoc]
    · refine ⟨.call call, behind, by simp only [hsome], ?_⟩
      simp only [hopened, hparts.before, hparts.closed, hparts.argument, hcaptures, hcall,
        hrender, known_of_ok hparts.behind, check_ok, pure_bind]

/-- Expanding the calls of a text does not crash if rendering their components does not. -/
theorem checkedExpand_eq {g : Call → m Text} (hrender : ∀ c, render c = safely (g c)) (s : Text) :
    checkedExpand warn render s = safely (expand warn g s) :=
  eq_expandM (fun _ => read_eq_none) (fun _ => checkedExpand_of_cut?_eq_none)
    (fun _ _ _ => exists_checkedExpand hrender) s

end Expansion

end Component

end HtmlViews
