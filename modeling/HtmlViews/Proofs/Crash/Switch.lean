import HtmlViews.Directive.Switch
import HtmlViews.Proofs.Crash.Capture
import HtmlViews.Proofs.Crash.Directive

/-!
# Switches without crashing

A switch is cut out of a text by places, and its cases out of its body. The search for the next case
goes on behind the end of the last one, the search for the default begins again at the front.

The search for a case looks for the mark of a case, for its parenthesis, for the mark of its end,
and takes what is between. Each of these places is found behind the one before, so all cuts have a
result; and what is left for the next case is shorter. The proofs follow the search with the parts
of the text that it has found so far, and use the lemmas about places in place of computing them.

* **Switch.checkedFindCase_eq** — cutting a body into its cases never crashes.
* **Switch.checkedSelect_eq** — selecting a content never crashes.
* **Switch.checkedExpand_eq** — expanding switches never crashes.
-/

namespace HtmlViews.Switch

open Crashing

/-- The text that a subject or a value is compared as. -/
def checkedNormalize (context : Context) (expression : Text) : Crashing Logged Text := do
  let s ← Variable.checkedSubstituteSigils context expression
  pure (Text.unquote s)

/-- What is compared is computed without a crash. -/
theorem checkedNormalize_eq (context : Context) (expression : Text) :
    checkedNormalize context expression = pure (normalize context expression) := by
  rw [checkedNormalize, Variable.checkedSubstituteSigils_eq, pure_bind]
  rfl

/-! ## Cases -/

/-- The content of the first case in a text whose value equals the subject. The search ends at a
case that is not finished. -/
def checkedFindCase (context : Context) (subject rest : Text) :
    Crashing Logged (Option Text) := do
  match ← check (Text.opened? "@case(".toList rest) with
  | none => pure none
  | some o =>
    match o.close with
    | none => do
      safely (Logged.write (.failed (unfinished "case" "unbalanced parentheses")))
      pure none
    | some close => do
      let ⟨content, _hcontent⟩ ← known (rest.sliceFrom (close + 1))
      match Text.find? "@break".toList content with
      | none => do
        safely (Logged.write (.failed (unfinished "case" "missing @break")))
        pure none
      | some stop => do
        let value ← check (rest.slice (o.opening + 1) close)
        let normal ← checkedNormalize context value
        if normal = subject then do
          let shown ← check (content.slice 0 stop)
          pure (some shown)
        else do
          let ⟨behind, _hbehind⟩ ←
            known (content.sliceFrom (stop + Text.utf8Length "@break".toList))
          checkedFindCase context subject behind
termination_by rest.utf8Length
decreasing_by
  have := Text.utf8Length_of_sliceFrom _hbehind
  have := Text.utf8Length_lt_of_sliceFrom _hcontent
  omega

/-- The search for a case looks at the next one, and then at those behind it. -/
theorem findCase_eq (context : Context) (subject s : Text) :
    findCase context subject s =
      match Case.next? s with
      | .ok none => pure none
      | .error reason => do
        Logged.write (.failed (unfinished "case" reason))
        pure none
      | .ok (some (c, r)) =>
        if normalize context c.value = subject then pure (some c.content)
        else findCase context subject r := by
  rw [findCase]
  split <;> simp_all

/-- Cutting a body into its cases never crashes. -/
theorem checkedFindCase_eq (context : Context) (subject rest : Text) :
    checkedFindCase context subject rest = safely (findCase context subject rest) := by
  -- By induction on the length of the text, and by how much of its first case can be read.
  induction hlength : rest.length using Nat.strongRecOn generalizing rest with
  | ind n ih =>
    subst hlength
    rw [checkedFindCase, findCase_eq]
    cases hcut : Text.cut? "@case(".toList rest with
    | none =>
      have hnext : Case.next? rest = .ok none := by
        simp only [Case.next?, hcut]
      rw [Text.opened?_of_cut?_eq_none hcut, hnext]
      simp
    | some cut =>
      obtain ⟨front, s⟩ := cut
      cases hclosing : Text.closing? s with
      | none =>
        have hnext : Case.next? rest = .error "unbalanced parentheses" := by
          simp only [Case.next?, hcut, hclosing]
        obtain ⟨o, hopened, hparts⟩ := Text.exists_unclosed hcut hclosing ⟨"@case".toList, rfl⟩
        rw [hopened, hnext]
        simp [hparts.closed]
      | some closed =>
        obtain ⟨value, content⟩ := closed
        obtain ⟨o, close, hopened, hparts⟩ := Text.exists_closed hcut hclosing ⟨"@case".toList, rfl⟩
        rw [hopened]
        simp only [check_ok, pure_bind, hparts.closed, known_of_ok hparts.behind]
        cases hbreak : Text.cut? "@break".toList content with
        | none =>
          have hnext : Case.next? rest = .error "missing @break" := by
            simp only [Case.next?, hcut, hclosing, hbreak]
          rw [Text.find?_eq_none hbreak, hnext]
          simp
        | some cut =>
          obtain ⟨shown, behind⟩ := cut
          have hnext : Case.next? rest = .ok (some (⟨value, shown⟩, behind)) := by
            simp only [Case.next?, hcut, hclosing, hbreak]
          obtain ⟨hfind, hbefore, hbehind⟩ := Text.find?_of_cut? hbreak
          rw [hfind, hnext]
          simp only [hparts.argument, check_ok, pure_bind, checkedNormalize_eq, hbefore,
            known_of_ok hbehind]
          by_cases hnormal : normalize context value = subject
          · rw [if_pos hnormal, if_pos hnormal, safely_pure]
          · rw [if_neg hnormal, if_neg hnormal]
            exact ih _ (Case.length_of_next? hnext) behind rfl

/-- The content of the default: everything behind the first mark, without a final `@break`. -/
def checkedDefault (body : Text) : Checked Text :=
  match Text.find? "@default".toList body with
  | none => .ok []
  | some start => do
    let content ← body.sliceFrom (start + Text.utf8Length "@default".toList)
    pure ((Text.before? "@break".toList (Text.trimEnd content)).getD content)

/-- The content of a default is found without a crash. -/
theorem checkedDefault_eq (body : Text) : checkedDefault body = .ok (defaultContent body) := by
  unfold checkedDefault defaultContent
  cases hcut : Text.cut? "@default".toList body with
  | none => rw [Text.find?_eq_none hcut]
  | some cut =>
    obtain ⟨front, content⟩ := cut
    obtain ⟨hfind, -, hbehind⟩ := Text.find?_of_cut? hcut
    rw [hfind]
    simp only [hbehind]
    rfl

/-- The content that a switch with a given body shows for a subject. -/
def checkedSelect (context : Context) (subject body : Text) : Crashing Logged Text := do
  match ← checkedFindCase context subject body with
  | some content => pure content
  | none => check (checkedDefault body)

/-- Selecting a content never crashes. -/
theorem checkedSelect_eq (context : Context) (subject body : Text) :
    checkedSelect context subject body = safely (select context subject body) := by
  rw [checkedSelect, checkedFindCase_eq, select, safely_bind]
  refine bind_congr fun found => ?_
  cases found with
  | some content => exact (safely_pure content).symm
  | none =>
    rw [checkedDefault_eq]
    exact (safely_pure _).symm

/-! ## Switches -/

/-- A text with its switches replaced by the contents that they select. -/
def checkedExpand (context : Context) (rest : Text) : Crashing Logged Text := do
  match ← check (Text.opened? opening rest) with
  | none => pure rest
  | some o => do
    let front ← check (rest.slice 0 o.start)
    match o.close with
    | none => do
      safely (Logged.write (.failed (unfinished "switch" "unbalanced parentheses")))
      let ⟨behind, _hbehind⟩ ← known (rest.sliceFrom (o.opening + 1))
      let out ← checkedExpand context behind
      pure (front ++ (opening ++ out))
    | some close => do
      let ⟨body, _hbody⟩ ← known (rest.sliceFrom (close + 1))
      match Text.find? "@endswitch".toList body with
      | none => do
        safely (Logged.write (.failed (unfinished "switch" "missing @endswitch")))
        let directive ← check (rest.slice o.start (close + 1))
        let out ← checkedExpand context body
        pure (front ++ (directive ++ out))
      | some stop => do
        let argument ← check (rest.slice (o.opening + 1) close)
        let subject ← checkedNormalize context argument
        let cases ← check (body.slice 0 stop)
        let shown ← checkedSelect context subject cases
        let ⟨behind, _hbehind⟩ ←
          known (body.sliceFrom (stop + Text.utf8Length "@endswitch".toList))
        let out ← checkedExpand context behind
        pure (front ++ (shown ++ out))
termination_by rest.utf8Length
decreasing_by
  · exact Text.utf8Length_lt_of_sliceFrom _hbehind
  · exact Text.utf8Length_lt_of_sliceFrom _hbody
  · have := Text.utf8Length_of_sliceFrom _hbehind
    have := Text.utf8Length_lt_of_sliceFrom _hbody
    omega

/-- What is found begins with the directive. -/
theorem read_eq_none {s : Text} (h : Text.after? opening s = none) : reader.read s = none := by
  show (Text.after? opening s).map _ = none
  rw [h]
  rfl

/-- Where no switch begins, the text stays as it is. -/
theorem checkedExpand_of_cut?_eq_none (context : Context) {rest : Text}
    (h : Text.cut? opening rest = none) : checkedExpand context rest = pure rest := by
  rw [checkedExpand, Text.opened?_of_cut?_eq_none h, check_ok, pure_bind]

/-- The next switch is replaced by what it shows, and the search goes on behind it. -/
theorem exists_checkedExpand (context : Context) {rest front s : Text}
    (h : Text.cut? opening rest = some (front, s)) :
    ∃ found behind, reader.read (opening ++ s) = some (found, behind) ∧
      checkedExpand context rest = (do
        let shown ← safely (found.show context)
        let out ← checkedExpand context behind
        pure (front ++ (shown ++ out))) := by
  rw [checkedExpand]
  simp only [reader, Found.read?, Text.after?_append, Option.map_some]
  cases hclosing : Text.closing? s with
  | none =>
    obtain ⟨o, hopened, hparts⟩ := Text.exists_unclosed h hclosing ⟨"@switch".toList, rfl⟩
    refine ⟨.unclosed, s, rfl, ?_⟩
    simp only [hopened, hparts.before, hparts.closed, known_of_ok hparts.behind, check_ok,
      pure_bind, Found.show, safely_bind, safely_pure, bind_assoc]
  | some closed =>
    obtain ⟨argument, body⟩ := closed
    obtain ⟨o, close, hopened, hparts⟩ := Text.exists_closed h hclosing ⟨"@switch".toList, rfl⟩
    cases hend : Text.cut? "@endswitch".toList body with
    | none =>
      refine ⟨.endless argument, body, by simp only [hend], ?_⟩
      simp only [hopened, hparts.before, hparts.closed, hparts.directive,
        known_of_ok hparts.behind, Text.find?_eq_none hend, check_ok, pure_bind, Found.show,
        safely_bind, safely_pure, bind_assoc]
    | some cut =>
      obtain ⟨cases, behind⟩ := cut
      obtain ⟨hfind, hbefore, hbehind⟩ := Text.find?_of_cut? hend
      refine ⟨.block argument cases, behind, by simp only [hend], ?_⟩
      simp only [hopened, hparts.before, hparts.closed, hparts.argument,
        known_of_ok hparts.behind, hfind, checkedNormalize_eq, hbefore, checkedSelect_eq,
        known_of_ok hbehind, check_ok, pure_bind, Found.show]

/-- Expanding the switches of a text never crashes. -/
theorem checkedExpand_eq (context : Context) (s : Text) :
    checkedExpand context s = safely (expand context s) :=
  eq_expandM (fun _ => read_eq_none) (fun _ => checkedExpand_of_cut?_eq_none context)
    (fun _ _ _ => exists_checkedExpand context) s

end HtmlViews.Switch
