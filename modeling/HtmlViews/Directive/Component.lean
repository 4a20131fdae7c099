import HtmlViews.Context
import HtmlViews.Log
import HtmlViews.Text.Parenthesis
import HtmlViews.Text.Piece
import HtmlViews.Text.Word

/-!
# Component calls

`@component('name', {'key': 'value', …})` stands for a component rendered with the given parameters.

The arguments of a call are read in two steps. First the parenthesis that closes them is found, for
which parentheses in strings do not count; then the name and the parameters are read in what stands
between. A directive that fails the first step is left with its beginning only, so that what follows
can hold further calls; one that fails the second is left as a whole. Either is reported.

Parameters are searched for like directives: what is no parameter is passed over, and so are the
braces around them. A value is a text between two equal quotes, or a list between brackets; any
other value is read as an empty text. Lists are cut at every comma, also at those inside of quotes,
and the spaces and quotes at the ends of an item do not belong to it.

What a call is replaced by is computed with effects, since a component may consume messages, write
to the log or fail. It is put in as it is and not searched for calls again.

* **Component.parseParams** — the parameters that a text lists.
* **Component.Call** — a name with parameters.
* **Component.expand** — a text with its calls replaced by what a renderer makes of them.
* **Component.Argument.read** — the value of a parameter as it is written.
-/

namespace HtmlViews.Component

/-! ## Parameters -/

/-- A parameter as it is written. -/
inductive Argument where
  /-- A text between brackets. -/
  | items (t : Text)
  /-- A text between two equal quotes. -/
  | quoted (t : Text)
  /-- Anything else. -/
  | bare
deriving DecidableEq, Repr

/-- The argument that a text begins with, and what follows it: everything up to the closing bracket,
everything up to the closing quote, or else everything up to a comma or a closing brace. -/
def Argument.read (s : Text) : Argument × Text :=
  let bare := s.dropWhile fun c => c ≠ ',' && c ≠ '}'
  match s with
  | [] => (.bare, bare)
  | c :: r =>
    let closing := if c = '[' then ']' else c
    if c = '[' || isQuote c then
      match Text.cut? [closing] r with
      | some (t, r) => (if c = '[' then .items t else .quoted t, r)
      | none => (.bare, bare)
    else (.bare, bare)

/-- Whether a character is stripped from the ends of a list item. -/
def isItemEdge (c : Char) : Bool :=
  c = ' ' || isQuote c

/-- The items of a list that is written without its brackets: the parts between commas without the
spaces and quotes around them; empty ones do not count. -/
def itemsOf (t : Text) : List Value :=
  ((Text.splitOn ',' t).map (Text.strip isItemEdge)).filterMap fun item =>
    if item = [] then none else some (.str (String.ofList item))

/-- The value of a parameter; what is neither a string nor a list is the empty string. -/
def Argument.value : Argument → Value
  | .items t => .array (itemsOf t)
  | .quoted t => .str (String.ofList t)
  | .bare => .str ""

/-- A quoted word that a text begins with, and what follows it. The two quotes need not be equal. -/
def quotedWord? (isPart : Char → Bool) (s : Text) : Option (Text × Text) :=
  match s with
  | [] => none
  | q :: s =>
    if isQuote q then
      match s.takeWhile isPart, s.dropWhile isPart with
      | [], _ => none
      | _, [] => none
      | w, q :: r => if isQuote q then some (w, r) else none
    else none

/-- The parameter that a text begins with: a quoted word, a colon and an argument. -/
def param? (s : Text) : Option ((Text × Argument) × Text) := do
  let (key, s) ← quotedWord? isWord s
  let s ← Text.after? [':'] (Text.dropBlanks s)
  let (argument, r) := Argument.read (Text.dropBlanks s)
  pure ((key, argument), r)

/-- Reading a word between quotes makes the text shorter. -/
theorem length_of_quotedWord? {isPart : Char → Bool} {s w r : Text}
    (h : quotedWord? isPart s = some (w, r)) : r.length < s.length := by
  unfold quotedWord? at h
  split at h
  · simp at h
  · rename_i q t
    split at h
    · split at h
      · simp at h
      · simp at h
      · rename_i hrest _
        split at h
        · simp only [Option.some.injEq, Prod.mk.injEq] at h
          obtain ⟨-, rfl⟩ := h
          have := (List.dropWhile_suffix (l := t) isPart).length_le
          rw [hrest] at this
          simp only [List.length_cons] at this ⊢
          omega
        · simp at h
    · simp at h

/-- Reading an argument does not make the text longer. -/
theorem length_read_le (s : Text) : (Argument.read s).2.length ≤ s.length := by
  have hbare := (List.dropWhile_suffix (l := s) fun c => c ≠ ',' && c ≠ '}').length_le
  unfold Argument.read
  split
  · exact hbare
  · rename_i c r
    simp only
    split
    · split
      · rename_i t r' hcut
        have := Text.length_of_cut? hcut
        simp only [List.length_cons]
        omega
      · exact hbare
    · exact hbare

/-- The reader of parameters. -/
def paramReader : Reader (Text × Argument) where
  read := param?
  shorter h := by
    simp only [param?, Option.bind_eq_bind, Option.bind_eq_some_iff, Option.pure_def,
      Option.some.injEq, Prod.exists, Prod.mk.injEq] at h
    obtain ⟨key, a, ha, b, hb, -, rfl⟩ := h
    have := length_of_quotedWord? ha
    have := Text.length_of_after? hb
    have := Text.length_dropBlanks_le a
    have := Text.length_dropBlanks_le b
    have := length_read_le (Text.dropBlanks b)
    omega

/-- The parameters in a text; of two with one name the later counts. -/
def parseParams (s : Text) : Context :=
  .ofList ((Text.pieces paramReader s).filterMap fun
    | .plain _ => none
    | .found (key, argument) => some (String.ofList key, argument.value))

/-! ## Calls -/

/-- A call of a component. -/
structure Call where
  /-- The name of the component. -/
  name : Text
  /-- The values that it is rendered with. -/
  params : Context
deriving Repr

/-- Whether a character can stand in the name of a component. -/
def isNamePart (c : Char) : Bool :=
  isWord c || c = '.' || c = '/' || c = '-'

/-- The call that the arguments between parentheses make: a quoted name, alone or with parameters
behind a comma. -/
def Call.ofArguments? (arguments : Text) : Option Call := do
  let (name, s) ← quotedWord? isNamePart (Text.dropBlanks arguments)
  match Text.dropBlanks s with
  | [] => pure ⟨name, .empty⟩
  | ',' :: s => pure ⟨name, parseParams (Text.trim s)⟩
  | _ => none

/-- What a directive for a component turns out to be. -/
inductive Found where
  /-- A call. -/
  | call (c : Call)
  /-- Arguments that make no call. -/
  | malformed (arguments : Text)
  /-- A parenthesis that is never closed. -/
  | unclosed
deriving Repr

/-- What the directives begin with. -/
def opening : Text :=
  "@component(".toList

/-- The directive that a text begins with, and what follows it. Of one that is never closed only its
beginning counts. -/
def Found.read? (s : Text) : Option (Found × Text) :=
  (Text.after? opening s).map fun s =>
    match Text.closing? s with
    | none => (.unclosed, s)
    | some (arguments, r) =>
      match Call.ofArguments? arguments with
      | some c => (.call c, r)
      | none => (.malformed arguments, r)

/-- The reader of component directives. -/
def reader : Reader Found where
  read := Found.read?
  shorter h := by
    simp only [Found.read?, Option.map_eq_some_iff] at h
    obtain ⟨u, hu, h⟩ := h
    have hlen : _ = 11 + u.length := Text.length_of_after? hu
    split at h
    · simp only [Prod.mk.injEq] at h
      obtain ⟨-, rfl⟩ := h
      omega
    · rename_i hclose
      have := Text.length_of_closing? hclose
      split at h <;> simp only [Prod.mk.injEq] at h <;> obtain ⟨-, rfl⟩ := h <;> omega

/-- The failure of arguments that make no call. -/
def malformedFailure (arguments : Text) : Failure :=
  .malformedDirective "component"
    ("`" ++ String.ofList (Text.trim arguments) ++ "` does not start with a quoted component name")

/-- The failure of a parenthesis that is never closed. -/
def unclosedFailure : Failure :=
  .malformedDirective "component" "unbalanced parentheses"

/-- A text with its component calls replaced by what `render` makes of them, from left to right.
Directives that are no calls stay as they are and are reported to `warn`. -/
def expand {m : Type → Type} [Monad m] (warn : LogEntry → m Unit) (render : Call → m Text) :
    Text → m Text :=
  Text.expandM reader fun
    | .call c => render c
    | .malformed arguments => do
      warn (.failed (malformedFailure arguments))
      pure (opening ++ arguments ++ [')'])
    | .unclosed => do
      warn (.failed unclosedFailure)
      pure opening

end HtmlViews.Component
