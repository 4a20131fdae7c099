import HtmlViews.Proofs.Component.Expansion
import HtmlViews.Proofs.Directive.Deletion

/-!
# Malformed directives

A directive that is not finished stays as it stands, and the search goes on behind as much of it as
was read. Where no directive is finished, nothing of a text is lost or repeated, whatever mixture of
parentheses, quotes and beginnings of directives it holds.

What is put back for an unfinished directive is what was read of it, so an expansion that finds only
such directives changes nothing. That it finds no others is a matter of the marks: a block or a
switch that is read holds its end mark, and if the text has none of these, it has no block or
switch. For components it is a matter of the record: the callback is called for each call, so if it
was never called there was none (**Component.Callback.exists_calls**).

* **Text.expand_eq_self** — finds that are replaced by themselves.
* **Conditional.value_expand_of_not_infix** — blocks without an end mark.
* **Switch.value_expand_of_not_infix** — switches without an end mark.
* **Component.Callback.exists_calls** — the calls that are made, and what is left if there are none.
* **malformed_kept** — the three stages.
-/

namespace HtmlViews

/-- A search that puts every find back into its place changes nothing. -/
theorem Text.expand_eq_self {α : Type} {reader : Reader α} {shown : α → Text} {s : Text}
    (h : ∀ t a r, t <:+ s → reader.read t = some (a, r) → t = shown a ++ r) :
    expand reader shown s = s := by
  fun_induction pieces reader s with
  | case1 => simp
  | case2 c s a r hread ih =>
    have hs := h _ _ _ List.suffix_rfl hread
    have hbehind : r <:+ c :: s := ⟨shown a, hs.symm⟩
    have hrest := ih fun t b u ht => h t b u (ht.trans hbehind)
    rw [expand, pieces_of_some hread, List.flatMap_cons, hs]
    exact congrArg (shown a ++ ·) hrest
  | case3 c s hread ih =>
    have hrest := ih fun t b u ht => h t b u (ht.trans (List.suffix_cons c s))
    rw [expand, pieces_cons_of_none hread, List.flatMap_cons]
    exact congrArg (c :: ·) hrest

/-! ## Blocks and switches -/

/-- A block holds an end mark. -/
theorem Conditional.Found.Written.ending_isInfix {b : Block} {written : Text}
    (h : (Found.block b).Written written) : Mark.ending.text <:+: written := by
  cases h with
  | @block condition _ _ body _ _ =>
    exact ⟨Mark.opening.text ++ (condition ++ ')' :: body), [], by simp⟩

/-- Without an end mark there is no block, and what is read of unfinished ones is kept. -/
theorem Conditional.value_expand_of_not_infix {s : Text} (h : ¬ Mark.ending.text <:+: s)
    (context : Context) : (expand context s).value = s := by
  fun_induction expand context s with
  | case1 => rfl
  | case2 c s _ ih =>
    have hrest := ih fun hs => h (hs.trans (List.suffix_cons c s).isInfix)
    exact congrArg (c :: ·) hrest
  | case3 c s r hread ih =>
    obtain ⟨_, ⟨⟩, hs⟩ := Found.exists_written hread
    have hbehind : r <:+ c :: s := ⟨_, hs.symm⟩
    have hrest := ih fun hr => h (hr.trans hbehind.isInfix)
    rw [hs]
    exact congrArg (Mark.opening.text ++ ·) hrest
  | case4 c s condition r hread ih =>
    obtain ⟨_, ⟨⟩, hs⟩ := Found.exists_written hread
    have hbehind : r <:+ c :: s := ⟨_, hs.symm⟩
    have hrest := ih fun hr => h (hr.trans hbehind.isInfix)
    show Mark.opening.text ++ condition ++ ')' :: (expand context r).value = _
    rw [hs, hrest, List.append_cons]
  | case5 c s b r hread =>
    obtain ⟨written, hwritten, hs⟩ := Found.exists_written hread
    have hpart : written <+: c :: s := ⟨r, hs.symm⟩
    exact absurd (hwritten.ending_isInfix.trans hpart.isInfix) h

/-- Without an end mark there is no switch, and what is read of unfinished ones is kept. -/
theorem Switch.value_expand_of_not_infix {s : Text} (h : ¬ "@endswitch".toList <:+: s)
    (context : Context) : (expand context s).value = s := by
  rw [expand, Logged.value_expandM]
  apply Text.expand_eq_self
  intro t a r ht hread
  obtain ⟨written, hwritten, rfl⟩ := Found.exists_written hread
  cases hwritten with
  | block subject body =>
    have hend : "@endswitch".toList <:+:
        opening ++ (subject ++ ')' :: (body ++ "@endswitch".toList)) ++ r :=
      ⟨opening ++ (subject ++ ')' :: body), r, by simp⟩
    exact absurd (hend.trans ht.isInfix) h
  | endless subject => rfl
  | unclosed => rfl

/-! ## Component calls -/

namespace Component

variable {σ : Type}

namespace Callback

/-- What a directive leaves in the page, with what is recorded of it. -/
def make (f : Callback σ) : Found → Recorded σ Text
  | .call c => f.recorded c
  | .malformed arguments => do
    Recorded.warn (.failed (malformedFailure arguments))
    pure (opening ++ arguments ++ [')'])
  | .unclosed => do
    Recorded.warn (.failed unclosedFailure)
    pure opening

/-- What the expansion of a text gives, and what is recorded behind what was recorded before. -/
def expandFrom (f : Callback σ) (s : Text) (r : Record σ) : Except Failure Text × Record σ :=
  StateT.run (ExceptT.run (Text.expandM reader f.make s)) r

/-- Expanding begins with an empty record. -/
theorem expand_eq_expandFrom (f : Callback σ) (s : Text) (state : σ) :
    f.expand s state = f.expandFrom s ⟨state, [], []⟩ :=
  rfl

variable {f : Callback σ} {s rest shown written : Text} {a : Found} {c : Char} {r r' : Record σ}

/-- A character that nothing is read at is kept. -/
theorem expandFrom_cons_of_none (h : reader.read (c :: s) = none) :
    f.expandFrom (c :: s) r =
      ((f.expandFrom s r).1.map (c :: ·), (f.expandFrom s r).2) := by
  rw [expandFrom, Text.expandM_cons_of_none h, run_map]
  rfl

/-- What is shown for a directive stands before what is made of the text behind it. -/
theorem expandFrom_of_ok (h : reader.read s = some (a, rest))
    (hmake : StateT.run (ExceptT.run (f.make a)) r = (.ok shown, r')) :
    f.expandFrom s r =
      ((f.expandFrom rest r').1.map (shown ++ ·), (f.expandFrom rest r').2) := by
  rw [expandFrom, Text.expandM_of_some h, run_bind_of_ok hmake, run_map]
  rfl

/-- A directive that fails ends the expansion. -/
theorem expandFrom_of_error {e : Failure} (h : reader.read s = some (a, rest))
    (hmake : StateT.run (ExceptT.run (f.make a)) r = (.error e, r')) :
    f.expandFrom s r = (.error e, r') := by
  rw [expandFrom, Text.expandM_of_some h, run_bind_of_error hmake]

/-- A call is answered by the callback, and recorded. -/
theorem run_recorded {call : Call} {result : Except Failure Text} {state : σ}
    (h : f call r.state = (result, state)) :
    StateT.run (ExceptT.run (f.make (.call call))) r =
      (result, ⟨state, r.calls ++ [call], r.log⟩) := by
  show ((f call r.state).1, (⟨(f call r.state).2, r.calls ++ [call], r.log⟩ : Record σ)) = _
  rw [h]

/-- A directive that is no call is put back, and the callback is not called for it. -/
theorem run_make_of_written (h : a.Written written) (hcall : ∀ call, a ≠ .call call)
    (r : Record σ) :
    ∃ log, StateT.run (ExceptT.run (f.make a)) r = (.ok written, { r with log }) := by
  cases h with
  | @call _ call => exact absurd rfl (hcall call)
  | malformed arguments => exact ⟨_, rfl⟩
  | unclosed => exact ⟨_, rfl⟩

/-- Calls are recorded behind those that were recorded before. If there are none, the text is left
as it is, and so is the state of the callback. -/
theorem exists_calls (f : Callback σ) (s : Text) (r : Record σ) :
    ∃ made, (f.expandFrom s r).2.calls = r.calls ++ made ∧
      (made = [] → (f.expandFrom s r).1 = .ok s ∧ (f.expandFrom s r).2.state = r.state) := by
  fun_induction Text.pieces reader s generalizing r with
  | case1 =>
    rw [expandFrom, Text.expandM_nil]
    exact ⟨[], (List.append_nil _).symm, fun _ => ⟨rfl, rfl⟩⟩
  | case2 c s a rest hread ih =>
    by_cases hcall : ∃ call, a = .call call
    · obtain ⟨call, rfl⟩ := hcall
      rcases hresult : f call r.state with ⟨e | shown, state⟩
      · have hmake : StateT.run (ExceptT.run (f.make (.call call))) r =
            (.error e, ⟨state, r.calls ++ [call], r.log⟩) := run_recorded hresult
        rw [expandFrom_of_error hread hmake]
        exact ⟨[call], rfl, fun h => absurd h (List.cons_ne_nil _ _)⟩
      · have hmake : StateT.run (ExceptT.run (f.make (.call call))) r =
            (.ok shown, ⟨state, r.calls ++ [call], r.log⟩) := run_recorded hresult
        obtain ⟨made, hcalls, -⟩ := ih ⟨state, r.calls ++ [call], r.log⟩
        rw [expandFrom_of_ok hread hmake]
        refine ⟨call :: made, ?_, fun h => absurd h (List.cons_ne_nil _ _)⟩
        rw [hcalls, List.append_assoc]
        rfl
    · obtain ⟨written, hwritten, hs⟩ := Found.exists_written hread
      obtain ⟨log, hmake⟩ := run_make_of_written hwritten (fun call h => hcall ⟨call, h⟩) r
      obtain ⟨made, hcalls, hkept⟩ := ih { r with log }
      rw [expandFrom_of_ok hread hmake]
      refine ⟨made, hcalls, fun hmade => ⟨?_, (hkept hmade).2⟩⟩
      rw [(hkept hmade).1, hs]
      rfl
  | case3 c s hread ih =>
    obtain ⟨made, hcalls, hkept⟩ := ih r
    rw [expandFrom_cons_of_none hread]
    refine ⟨made, hcalls, fun hmade => ⟨?_, (hkept hmade).2⟩⟩
    rw [(hkept hmade).1]
    rfl

end Callback

end Component

/-- **Malformed directives are kept**, whatever mixture of parentheses, quotes and beginnings of
directives a text holds: blocks in a text without an end mark of them, switches in a text without an
end mark of them, and directives for components in a text for which no component is called. -/
theorem malformed_kept :
    (∀ (context : Context) (s : Text), ¬ Conditional.Mark.ending.text <:+: s →
      (Conditional.expand context s).value = s) ∧
    (∀ (context : Context) (s : Text), ¬ "@endswitch".toList <:+: s →
      (Switch.expand context s).value = s) ∧
    ∀ (σ : Type) (f : Component.Callback σ) (s : Text) (state : σ),
      (f.expand s state).2.calls = [] →
        (f.expand s state).1 = .ok s ∧ (f.expand s state).2.state = state := by
  refine ⟨fun context s h => Conditional.value_expand_of_not_infix h context,
    fun context s h => Switch.value_expand_of_not_infix h context, fun σ f s state h => ?_⟩
  obtain ⟨made, hcalls, hkept⟩ := f.exists_calls s ⟨state, [], []⟩
  rw [Component.Callback.expand_eq_expandFrom] at h ⊢
  rw [hcalls] at h
  exact hkept h

/-- Parentheses that are closed in a string only, ends of other directives, and arguments that make
no call. -/
theorem malformed_kept_mixture :
    let blocks := "@if(($a == ')' @if($b) x @else @endswitch".toList
    let switches := "@switch($a) @case('1') @switch(')' @break @endif".toList
    let components := "@component(oops) @component('a' @component(\"b)".toList
    let count : Component.Callback Nat := fun _ n => (.ok [], n + 1)
    (Conditional.expand .empty blocks).value = blocks ∧
      (Switch.expand .empty switches).value = switches ∧
      (count.expand components 0).1 = .ok components := by
  intro blocks switches components count
  obtain ⟨hblocks, hswitches, hcomponents⟩ := malformed_kept
  have hcalls : (count.expand components 0).2.calls = [] := by
    decide +kernel
  exact ⟨hblocks .empty blocks (by decide), hswitches .empty switches (by decide),
    (hcomponents Nat count components 0 hcalls).1⟩

end HtmlViews
