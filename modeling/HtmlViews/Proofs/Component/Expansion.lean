import HtmlViews.Proofs.Crash.Component
import HtmlViews.Proofs.Render.Run
import HtmlViews.Proofs.Text.Interleaved

/-!
# Pages with component calls

A page consists of texts and directives for components. The arguments of a directive make a call, if
they are a name between quotes, alone or with parameters behind a comma; otherwise the directive is
malformed and stays as it stands. The callback that renders the calls may have a state and may fail.
It is called once for each call, from left to right, and is not called again once it has failed.

What a callback does depends on its state, and what it did before decides its state. So what a page
shows is said by relations that follow the directives from left to right with the state:
**Component.Shows** as long as the callback succeeds, **Component.Fails** up to the first call for
which it does not. One of the two holds of each row of directives (**Component.shows_or_fails**),
and each of them says what the expansion gives and what it has recorded, by induction on the row.

The calls are recorded beside the state of the callback, so that a statement about them is one about
the expansion itself and not about a callback that was made to count.

* **Component.Makes**, **Component.ofArguments?_eq_some_iff** — the call that arguments make.
* **Component.Directive** — a call or a malformed directive as it is written.
* **Component.Callback** — what renders calls; **Component.Callback.expand** keeps a record of them.
* **Component.Shows**, **Component.Fails** — what directives show, and the first call that fails.
* **Component.expand_directives** — a page with its calls replaced, or the first failure.
-/

namespace HtmlViews.Component

/-! ## Arguments -/

/-- A name as it is written: between quotes, which need not be equal, with blanks around them. -/
inductive Named (name : Text) : (written : Text) → Prop
  | intro {before behind : Text} {q q' : Char} (hbefore : ∀ c ∈ before, isBlank c = true)
      (hq : isQuote q = true) (hne : name ≠ []) (hname : ∀ c ∈ name, isNamePart c = true)
      (hq' : isQuote q' = true) (hbehind : ∀ c ∈ behind, isBlank c = true) :
      Named name (before ++ q :: (name ++ q' :: behind))

/-- Which call arguments make: a name alone or with parameters behind a comma. -/
inductive Makes : (arguments : Text) → Call → Prop
  | alone {name written : Text} (h : Named name written) : Makes written ⟨name, .empty⟩
  | withParams {name written : Text} (h : Named name written) (params : Text) :
      Makes (written ++ ',' :: params) ⟨name, parseParams (Text.trim params)⟩

section Arguments

variable {name written arguments s r w : Text} {isPart : Char → Bool} {call : Call}

/-- What is read as a quoted word is one. -/
theorem exists_of_quotedWord? (h : quotedWord? isPart s = some (w, r)) :
    ∃ q q', isQuote q = true ∧ isQuote q' = true ∧ w ≠ [] ∧ (∀ c ∈ w, isPart c = true) ∧
      s = q :: (w ++ q' :: r) := by
  cases s with
  | nil => cases h
  | cons q s =>
    have hs : s.takeWhile isPart ++ s.dropWhile isPart = s := List.takeWhile_append_dropWhile
    have hpart : ∀ c ∈ s.takeWhile isPart, isPart c = true := fun _ => List.mem_takeWhile_imp
    rw [quotedWord?] at h
    generalize s.takeWhile isPart = front at h hs hpart
    generalize s.dropWhile isPart = rest at h hs
    split at h
    case isFalse => cases h
    case isTrue hq =>
      split at h
      case h_3 hfront =>
        split at h
        case isTrue hq' =>
          cases h
          exact ⟨q, _, hq, hq', hfront, hpart, by rw [hs]⟩
        case isFalse => cases h
      all_goals cases h

/-- A name that is written is read, up to the blanks behind it. -/
theorem Named.quotedWord? (h : Named name written) (s : Text) :
    ∃ behind, (∀ c ∈ behind, isBlank c = true) ∧
      quotedWord? isNamePart (Text.dropBlanks (written ++ s)) = some (name, behind ++ s) := by
  obtain @⟨before, behind, q, q', hbefore, hq, hne, hname, hq', hbehind⟩ := h
  refine ⟨behind, hbehind, ?_⟩
  have hquote : ∀ c ∈ (q :: (name ++ q' :: (behind ++ s))).head?, isBlank c = false := by
    rintro c ⟨⟩
    exact isBlank_of_isQuote hq
  have hdrop : Text.dropBlanks (before ++ q :: (name ++ q' :: (behind ++ s))) = _ :=
    Text.dropWhile_run hbefore hquote
  rw [← quotedWord?_quoted hq hq' (isNamePart_of_isQuote hq') hne hname, ← hdrop]
  simp

/-- What is read as a name and blanks is one as it is written. -/
theorem exists_named (h : quotedWord? isNamePart (Text.dropBlanks arguments) = some (name, s)) :
    ∃ written, Named name written ∧ arguments = written ++ Text.dropBlanks s := by
  obtain ⟨q, q', hq, hq', hne, hname, hdrop⟩ := exists_of_quotedWord? h
  have hnamed : Named name
      (arguments.takeWhile isBlank ++ q :: (name ++ q' :: s.takeWhile isBlank)) :=
    .intro (fun _ => List.mem_takeWhile_imp) hq hne hname hq' (fun _ => List.mem_takeWhile_imp)
  refine ⟨_, hnamed, ?_⟩
  calc arguments = arguments.takeWhile isBlank ++ Text.dropBlanks arguments :=
        List.takeWhile_append_dropWhile.symm
    _ = arguments.takeWhile isBlank ++ q :: (name ++ q' :: (s.takeWhile isBlank ++
          Text.dropBlanks s)) := by
        rw [hdrop, Text.dropBlanks, List.takeWhile_append_dropWhile]
    _ = _ := by simp

/-- The call that arguments are read as is the one that they make. -/
theorem ofArguments?_eq_some_iff :
    Call.ofArguments? arguments = some call ↔ Makes arguments call := by
  constructor
  · intro hcall
    obtain ⟨⟨name, s⟩, hword, hbehind⟩ := Option.bind_eq_some_iff.mp hcall
    obtain ⟨written, hnamed, rfl⟩ := exists_named hword
    simp only at hbehind
    split at hbehind
    case h_1 hnil =>
      cases hbehind
      rw [hnil, List.append_nil]
      exact .alone hnamed
    case h_2 params hcomma =>
      cases hbehind
      rw [hcomma]
      exact .withParams hnamed params
    case h_3 => cases hbehind
  · rintro (hnamed | ⟨hnamed, params⟩)
    · obtain ⟨behind, hbehind, hword⟩ := hnamed.quotedWord? []
      have hdrop : Text.dropBlanks (behind ++ []) = [] := by
        rw [List.append_nil, Text.dropBlanks, List.dropWhile_eq_nil_iff]
        exact hbehind
      rw [List.append_nil] at hword
      simp only [Call.ofArguments?, hword, Option.bind_eq_bind, Option.bind_some, hdrop]
      rfl
    · obtain ⟨behind, hbehind, hword⟩ := hnamed.quotedWord? (',' :: params)
      have hcomma : ∀ c ∈ (',' :: params).head?, isBlank c = false := by
        rintro c ⟨⟩
        decide
      have hdrop : Text.dropBlanks (behind ++ ',' :: params) = ',' :: params :=
        Text.dropWhile_run hbehind hcomma
      simp only [Call.ofArguments?, hword, Option.bind_eq_bind, Option.bind_some, hdrop]
      rfl

/-- The two quotes need not be equal, but there have to be quotes. -/
example : Makes " \"card' ".toList ⟨"card".toList, .empty⟩ ∧ ∀ call, ¬ Makes "card".toList call := by
  have hblank : ∀ c ∈ [' '], isBlank c = true := List.all_eq_true.mp rfl
  have hname : ∀ c ∈ "card".toList, isNamePart c = true := List.all_eq_true.mp (by decide)
  refine ⟨.alone (@Named.intro _ [' '] [' '] '"' '\'' hblank rfl (by decide) hname rfl hblank), ?_⟩
  rintro call h
  cases ofArguments?_eq_some_iff.mpr h

end Arguments

/-! ## Directives -/

/-- Whether a text stands between the parentheses of a directive and makes a call. -/
structure WellFormed (arguments : Text) (call : Call) : Prop where
  closed : Text.IsArgument arguments
  makes : Makes arguments call

/-- Whether a text stands between the parentheses of a directive and makes no call. -/
structure Malformed (arguments : Text) : Prop where
  closed : Text.IsArgument arguments
  makes_none : ∀ call, ¬ Makes arguments call

/-- A directive as it is written, with its arguments. -/
inductive Directive where
  /-- A call. -/
  | call (arguments : Text) (call : Call) (h : WellFormed arguments call)
  /-- Arguments that make no call. -/
  | malformed (arguments : Text) (h : Malformed arguments)

namespace Directive

/-- The text that is written. -/
def text : Directive → Text
  | call arguments _ _ => calling arguments
  | malformed arguments _ => calling arguments

/-- What the directive turns out to be. -/
def found : Directive → Found
  | call _ c _ => .call c
  | malformed arguments _ => .malformed arguments

/-- The call that a directive makes, if it makes one. -/
def call? : Directive → Option Call
  | call _ c _ => some c
  | malformed _ _ => none

/-- What is reported of a directive, if it makes no call. -/
def warning? : Directive → Option LogEntry
  | call _ _ _ => none
  | malformed arguments _ => some (.failed (malformedFailure arguments))

/-- A directive that is written is read up to its end, whatever follows. -/
theorem read_text (d : Directive) (s : Text) : reader.read (d.text ++ s) = some (d.found, s) := by
  cases d with
  | call arguments c h =>
    rw [text, read_calling h.closed, ofArguments?_eq_some_iff.mpr h.makes]
    rfl
  | malformed arguments h =>
    have hnone : Call.ofArguments? arguments = none :=
      Option.eq_none_iff_forall_ne_some.mpr fun c hc =>
        h.makes_none c (ofArguments?_eq_some_iff.mp hc)
    rw [text, read_calling h.closed, hnone]
    rfl

end Directive

/-- What a directive leaves in the page. -/
def Directive.show {m : Type → Type} [Monad m] (warn : LogEntry → m Unit)
    (render : Call → m Text) : Directive → m Text
  | .call _ c _ => render c
  | .malformed arguments _ => do
    warn (.failed (malformedFailure arguments))
    pure (calling arguments)

/-- A page of directives and texts without the beginning of one. -/
abbrev Page : Type :=
  Interleaved (fun t => ¬ opening <:+: t) Directive

/-- The search makes of a page what it makes of its directives, from left to right. -/
theorem expand_page {m : Type → Type} [Monad m] [LawfulMonad m] (warn : LogEntry → m Unit)
    (render : Call → m Text) (p : Page) :
    expand warn render (p.text Directive.text) = p.textM (Directive.show warn render) := by
  have hbegins : ∀ d : Directive, opening <+: d.text := by
    rintro (_ | _) <;> exact List.prefix_append _ _
  rw [expand, Interleaved.expandM_text_of_mark rfl (by decide) (fun _ => read_eq_none) hbegins
    Directive.read_text]
  congr 1
  funext d
  cases d with
  | call => rfl
  | malformed arguments h => simp only [Directive.found, Directive.show, calling, List.append_assoc]

/-! ## Callbacks -/

/-- A callback that renders calls. It has a state and may fail. -/
abbrev Callback (σ : Type) : Type :=
  Call → σ → Except Failure Text × σ

/-- What is recorded while a page is expanded. -/
structure Record (σ : Type) where
  /-- The state of the callback. -/
  state : σ
  /-- The calls that it was called with, the earliest first. -/
  calls : List Call
  /-- The lines written to the log, the earliest first. -/
  log : List LogEntry

/-- A computation that is recorded. It may fail. -/
abbrev Recorded (σ : Type) : Type → Type :=
  ExceptT Failure (StateM (Record σ))

section Callbacks

variable {σ : Type}

/-- A line for the log. -/
def Recorded.warn (entry : LogEntry) : Recorded σ Unit :=
  modify fun r => { r with log := r.log ++ [entry] }

namespace Callback

/-- Calls the callback and records the call. -/
def recorded (f : Callback σ) (c : Call) : Recorded σ Text :=
  ExceptT.mk fun r =>
    let (result, state) := f c r.state
    (result, { r with state, calls := r.calls ++ [c] })

/-- What the expansion of a text with a callback gives, and what is recorded. -/
def expand (f : Callback σ) (s : Text) (state : σ) : Except Failure Text × Record σ :=
  StateT.run (ExceptT.run (Component.expand Recorded.warn f.recorded s)) ⟨state, [], []⟩

end Callback

/-- What directives show with the texts before them, when the callback fails for none: a call shows
what the callback gives in the state that the calls before have left, and a malformed directive
itself. -/
inductive Shows (f : Callback σ) : σ → List (Text × Directive) → (out : Text) → σ → Prop
  | nil {state : σ} : Shows f state [] [] state
  | call {state state₁ state₂ : σ} {t arguments shown out : Text} {c : Call}
      {h : WellFormed arguments c} {parts : List (Text × Directive)}
      (hcall : f c state = (.ok shown, state₁)) (hrest : Shows f state₁ parts out state₂) :
      Shows f state ((t, .call arguments c h) :: parts) (t ++ (shown ++ out)) state₂
  | malformed {state state₁ : σ} {t arguments out : Text} {h : Malformed arguments}
      {parts : List (Text × Directive)} (hrest : Shows f state parts out state₁) :
      Shows f state ((t, .malformed arguments h) :: parts) (t ++ (calling arguments ++ out)) state₁

/-- Where directives fail: the callback fails for the call `c` behind the directives `front`, for
which it does not. -/
inductive Fails (f : Callback σ) (state : σ) :
    (parts front : List (Text × Directive)) → (c : Call) → Failure → σ → Prop
  | intro {front back : List (Text × Directive)} {t arguments out : Text} {c : Call}
      {h : WellFormed arguments c} {e : Failure} {state₁ state₂ : σ}
      (hfront : Shows f state front out state₁) (hcall : f c state₁ = (.error e, state₂)) :
      Fails f state (front ++ (t, .call arguments c h) :: back) front c e state₂

/-- The calls that directives make, in their order. -/
def callsOf (parts : List (Text × Directive)) : List Call :=
  parts.filterMap fun part => part.2.call?

/-- What is reported of malformed directives, in their order. -/
def warningsOf (parts : List (Text × Directive)) : List LogEntry :=
  parts.filterMap fun part => part.2.warning?

section Runs

variable {f : Callback σ} {last t arguments shown out : Text} {c : Call} {e : Failure}
  {front parts back : List (Text × Directive)} {state state' : σ} {calls : List Call}
  {log : List LogEntry}

/-- Directives show what they should, or one of them fails. -/
theorem shows_or_fails (f : Callback σ) (parts : List (Text × Directive)) (state : σ) :
    (∃ out state', Shows f state parts out state') ∨
      ∃ front c e state', Fails f state parts front c e state' := by
  induction parts generalizing state with
  | nil => exact .inl ⟨[], state, .nil⟩
  | cons part parts ih =>
    obtain ⟨t, d⟩ := part
    cases d with
    | malformed arguments h =>
      rcases ih state with ⟨out, state', hshows⟩ | ⟨_, c, e, state', hfront, hfails⟩
      · exact .inl ⟨_, state', .malformed hshows⟩
      · exact .inr ⟨_, c, e, state', .intro (.malformed hfront) hfails⟩
    | call arguments c h =>
      rcases hcall : f c state with ⟨e | shown, state₁⟩
      · exact .inr ⟨[], c, e, state₁, .intro .nil hcall⟩
      · rcases ih state₁ with ⟨out, state', hshows⟩ | ⟨_, c', e, state', hfront, hfails⟩
        · exact .inl ⟨_, state', .call hcall hshows⟩
        · exact .inr ⟨_, c', e, state', .intro (.call hcall hfront) hfails⟩

/-- What directives give with the texts before them and what stands behind, beginning with a
record. -/
def Callback.run (f : Callback σ) (last : Text) (parts : List (Text × Directive))
    (r : Record σ) : Except Failure Text × Record σ :=
  StateT.run (ExceptT.run (Interleaved.textFromM (Directive.show Recorded.warn f.recorded) last
    parts)) r

/-- A call is answered by the callback, which is recorded. -/
theorem run_call {h : WellFormed arguments c} {result : Except Failure Text}
    (hcall : f c state = (result, state')) :
    StateT.run (ExceptT.run ((Directive.call arguments c h).show Recorded.warn f.recorded))
      ⟨state, calls, log⟩ = (result, ⟨state', calls ++ [c], log⟩) := by
  show ((f c state).1, (⟨(f c state).2, calls ++ [c], log⟩ : Record σ)) = _
  rw [hcall]

/-- A malformed call is shown as it is written, with one line about it. -/
theorem run_malformed {h : Malformed arguments} {r : Record σ} :
    StateT.run (ExceptT.run ((Directive.malformed arguments h).show Recorded.warn f.recorded)) r =
      (.ok (calling arguments),
        { r with log := r.log ++ [.failed (malformedFailure arguments)] }) :=
  rfl

/-- What a directive shows stands before what the directives behind it give. -/
theorem run_cons_of_ok {d : Directive} {r r' : Record σ}
    (hshow : StateT.run (ExceptT.run (d.show Recorded.warn f.recorded)) r = (.ok shown, r')) :
    f.run last ((t, d) :: parts) r =
      ((f.run last parts r').1.map fun rest => t ++ (shown ++ rest), (f.run last parts r').2) := by
  rw [Callback.run, Interleaved.textFromM, run_bind_of_ok hshow, ← map_eq_pure_bind, run_map]
  rfl

/-- A call for which the callback fails ends the expansion. -/
theorem run_cons_of_error {h : WellFormed arguments c} (hcall : f c state = (.error e, state')) :
    f.run last ((t, .call arguments c h) :: parts) ⟨state, calls, log⟩ =
      (.error e, ⟨state', calls ++ [c], log⟩) :=
  run_bind_of_error (run_call hcall) _

/-- What directives show stands before what those behind them give, and their calls are recorded. -/
theorem Shows.run_append (h : Shows f state front out state') {rest : Except Failure Text}
    {r : Record σ} (hback : f.run last back
      ⟨state', calls ++ callsOf front, log ++ warningsOf front⟩ = (rest, r)) :
    f.run last (front ++ back) ⟨state, calls, log⟩ = (rest.map (out ++ ·), r) := by
  -- What is recorded grows at its end, so the other directives begin with more of it.
  induction h generalizing calls log with
  | nil =>
    simp only [callsOf, warningsOf, List.filterMap_nil, List.append_nil] at hback
    rw [List.nil_append, hback]
    cases rest <;> rfl
  | @call state state₁ _ t arguments shown out c h parts hcall hrest ih =>
    have hparts : f.run last (parts ++ back) ⟨state₁, calls ++ [c], log⟩ =
        (rest.map (out ++ ·), r) := by
      apply ih
      rw [List.append_assoc]
      exact hback
    rw [List.cons_append, run_cons_of_ok (run_call hcall), hparts]
    cases rest <;> simp [Except.map]
  | @malformed state _ t arguments out h parts hrest ih =>
    have hparts : f.run last (parts ++ back)
        ⟨state, calls, log ++ [.failed (malformedFailure arguments)]⟩ =
        (rest.map (out ++ ·), r) := by
      apply ih
      rw [List.append_assoc]
      exact hback
    rw [List.cons_append, run_cons_of_ok run_malformed, hparts]
    cases rest <;> simp [Except.map]

/-- Directives that show something are followed by the last text. -/
theorem Shows.run_eq (h : Shows f state parts out state') :
    f.run last parts ⟨state, calls, log⟩ =
      (.ok (out ++ last), ⟨state', calls ++ callsOf parts, log ++ warningsOf parts⟩) := by
  have hrun : f.run last (parts ++ []) ⟨state, calls, log⟩ = _ := h.run_append rfl
  rwa [List.append_nil] at hrun

/-- The calls behind the one that fails are not made. -/
theorem Fails.run_eq (h : Fails f state parts front c e state') :
    f.run last parts ⟨state, calls, log⟩ =
      (.error e, ⟨state', calls ++ callsOf front ++ [c], log ++ warningsOf front⟩) := by
  obtain ⟨hfront, hcall⟩ := h
  exact hfront.run_append (run_cons_of_error hcall)

end Runs

/-- **Expanding a page calls the callback once for each call, from left to right**, and puts what it
gives into the place of the call, where it is not searched again; texts and malformed directives are
kept. When the callback fails, its failure is the result, and it has been called for the calls up to
that one and no others. -/
theorem expand_directives (f : Callback σ) (p : Page) (state : σ) :
    (∃ out state', Shows f state p.parts out state' ∧ f.expand (p.text Directive.text) state =
      (.ok (out ++ p.last), ⟨state', callsOf p.parts, warningsOf p.parts⟩)) ∨
    ∃ front c e state', Fails f state p.parts front c e state' ∧
      f.expand (p.text Directive.text) state =
        (.error e, ⟨state', callsOf front ++ [c], warningsOf front⟩) := by
  have hexpand : f.expand (p.text Directive.text) state = f.run p.last p.parts ⟨state, [], []⟩ := by
    rw [Callback.expand, expand_page]
    rfl
  rw [hexpand]
  rcases shows_or_fails f p.parts state with ⟨out, state', h⟩ | ⟨front, c, e, state', h⟩
  · exact .inl ⟨out, state', h, h.run_eq⟩
  · exact .inr ⟨front, c, e, state', h, h.run_eq⟩

end Callbacks

end HtmlViews.Component
