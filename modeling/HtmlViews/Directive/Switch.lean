import HtmlViews.Directive.Variable
import HtmlViews.Log
import HtmlViews.Text.Parenthesis

/-!
# Switches

`@switch(subject) @case(value) … @break … @default … @endswitch` shows the content of the first case
whose value equals the subject, or the content of the default. Both sides are compared as texts,
with their dollar names replaced and without the quotes around them.

Cases are searched for in the body one after the other, and what stands between them is passed over.
Subject and values are compared as texts, after the same preparation; a value that is no text is
compared by the text it has in a page, and a name without a value by the word `null`. The content of
a case ends at the first `@break`. A case that is not finished ends the search, is reported, and the
default is shown.

The content that is selected is shown as it is, without a further search for switches; a switch
inside of a case would end the outer one at its own end mark.

* **Switch.normalize** — the text that a subject or a value is compared as.
* **Switch.select** — the content that a switch shows.
* **Switch.expand** — a text with its switches replaced.
* **Switch.Case.next?** — the first case in a text.
* **Switch.findCase**, **Switch.defaultContent** — the content of the case that fits, and of the
  default.
-/

namespace HtmlViews.Switch

/-- The text that a subject or a value is compared as. -/
def normalize (context : Context) (expression : Text) : Text :=
  Text.unquote (Variable.substituteSigils context expression)

/-- The failure of a directive that is not finished. -/
def unfinished (directive reason : String) : Failure :=
  .malformedDirective directive reason

/-! ## Cases -/

/-- A case of a switch. -/
structure Case where
  /-- The text between the parentheses. -/
  value : Text
  /-- What is shown. -/
  content : Text
deriving DecidableEq, Repr

/-- The first case in a text and what follows it, nothing if there is no case at all, or why the
first one is not finished. -/
def Case.next? (s : Text) : Except String (Option (Case × Text)) :=
  match Text.cut? "@case(".toList s with
  | none => .ok none
  | some (_, s) =>
    match Text.closing? s with
    | none => .error "unbalanced parentheses"
    | some (value, s) =>
      match Text.cut? "@break".toList s with
      | none => .error "missing @break"
      | some (content, r) => .ok (some (⟨value, content⟩, r))

/-- Reading a case makes the text shorter. -/
theorem Case.length_of_next? {s r : Text} {c : Case} (h : Case.next? s = .ok (some (c, r))) :
    r.length < s.length := by
  unfold Case.next? at h
  split at h
  · simp at h
  · rename_i front u hu
    have hs := congrArg List.length (Text.eq_of_cut? hu)
    split at h
    · simp at h
    · rename_i value v hv
      have hu' := congrArg List.length (Text.eq_of_closing? hv)
      split at h
      · simp at h
      · rename_i content r' hc
        have hv' := congrArg List.length (Text.eq_of_cut? hc)
        simp only [Except.ok.injEq, Option.some.injEq, Prod.mk.injEq] at h
        obtain ⟨-, rfl⟩ := h
        simp only [List.length_append, List.length_cons] at hs hu' hv'
        omega

/-- The content of the first case in a text whose value equals the subject. The search ends at a
case that is not finished. -/
def findCase (context : Context) (subject : Text) (s : Text) : Logged (Option Text) :=
  match _h : Case.next? s with
  | .ok none => pure none
  | .error reason => do
    Logged.write (.failed (unfinished "case" reason))
    pure none
  | .ok (some (c, r)) =>
    if normalize context c.value = subject then pure (some c.content)
    else findCase context subject r
termination_by s.length
decreasing_by exact Case.length_of_next? _h

/-- The content of the default: everything behind the first mark, without a final `@break`. -/
def defaultContent (body : Text) : Text :=
  match Text.cut? "@default".toList body with
  | none => []
  | some (_, content) => (Text.before? "@break".toList (Text.trimEnd content)).getD content

/-- The content that a switch with a given body shows for a subject. -/
def select (context : Context) (subject body : Text) : Logged Text := do
  match ← findCase context subject body with
  | some content => pure content
  | none => pure (defaultContent body)

/-! ## Switches -/

/-- What an `@switch(` turns out to be. -/
inductive Found where
  /-- A switch with its subject and its body. -/
  | block (subject body : Text)
  /-- A subject without the end of the switch. -/
  | endless (subject : Text)
  /-- A parenthesis that is never closed. -/
  | unclosed
deriving DecidableEq, Repr

/-- What the directives begin with. -/
def opening : Text :=
  "@switch(".toList

/-- The directive that a text begins with, and what follows it. A switch ends at the first end mark;
of an unfinished one, as little as possible counts. -/
def Found.read? (s : Text) : Option (Found × Text) :=
  (Text.after? opening s).map fun s =>
    match Text.closing? s with
    | none => (.unclosed, s)
    | some (subject, s) =>
      match Text.cut? "@endswitch".toList s with
      | none => (.endless subject, s)
      | some (body, r) => (.block subject body, r)

/-- The reader of switches. -/
def reader : Reader Found where
  read := Found.read?
  shorter h := by
    simp only [Found.read?, Option.map_eq_some_iff] at h
    obtain ⟨u, hu, h⟩ := h
    have hlen : _ = 8 + u.length := Text.length_of_after? hu
    split at h
    · simp only [Prod.mk.injEq] at h
      obtain ⟨-, rfl⟩ := h
      omega
    · rename_i hclose
      have := Text.length_of_closing? hclose
      split at h
      · simp only [Prod.mk.injEq] at h
        obtain ⟨-, rfl⟩ := h
        omega
      · rename_i hcut
        have := Text.length_of_cut? hcut
        simp only [Prod.mk.injEq] at h
        obtain ⟨-, rfl⟩ := h
        omega

/-- What a directive leaves in the page. -/
def Found.show (context : Context) : Found → Logged Text
  | .block subject body => select context (normalize context subject) body
  | .endless subject => do
    Logged.write (.failed (unfinished "switch" "missing @endswitch"))
    pure (opening ++ subject ++ [')'])
  | .unclosed => do
    Logged.write (.failed (unfinished "switch" "unbalanced parentheses"))
    pure opening

/-- A text with its switches replaced by the contents that they select. -/
def expand (context : Context) : Text → Logged Text :=
  Text.expandM reader (Found.show context)

end HtmlViews.Switch
