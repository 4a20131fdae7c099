import HtmlViews.Directive.Component
import HtmlViews.Directive.Switch
import HtmlViews.Proofs.Conditional.Scan
import Mathlib.Data.List.Flatten

/-!
# Directives as they stand in a text

Whatever a text is, each of the directives that are found in it is a part of it. Here is which part
that is: for a directive that is not finished, it is what such a directive leaves in the page.

A reader takes a text apart and keeps the parts that it needs. Here the parts are put together
again: for each way in which a directive can be read there is a text that is read in this way, with
what has to be known of its parts, and the text that was read begins with it. Results about
arbitrary texts start from here, as results about texts that are written out start from the writing.

* **Conditional.Found.Written**, **Switch.Found.Written**, **Component.Found.Written** — the texts
  that are read as a directive.
* **Conditional.Found.exists_written**, **Switch.Found.exists_written**,
  **Component.Found.exists_written** — what is read is such a text and what follows it.
* **Switch.Case.exists_front_of_next?** — the same for the cases of a switch.
-/

namespace HtmlViews

/-! ## Conditional blocks -/

namespace Conditional

variable {s r : Text}

/-- Fewer pieces spell a text with fewer characters. -/
theorem spell_sublist {ps qs : Marked} (h : ps.Sublist qs) : (spell ps).Sublist (spell qs) :=
  h.flatMap _

/-- The branches of a block are made of parts of its body. -/
theorem exists_body_of_branches? {whenTrue whenFalse : Text}
    (h : branches? s = some (whenTrue, whenFalse, r)) :
    ∃ body, s = body ++ (Mark.ending.text ++ r) ∧ whenTrue.Sublist body ∧
      whenFalse.Sublist body := by
  simp only [branches?, Option.map_eq_some_iff, Prod.exists, Prod.mk.injEq] at h
  obtain ⟨inside, _, hsplit, rfl, rfl, rfl⟩ := h
  obtain ⟨hfront, hback⟩ := splitElse_sublist 0 inside
  exact ⟨spell inside, eq_of_splitEnd? hsplit, spell_sublist hfront, spell_sublist hback⟩

/-- The texts that are read as a directive. -/
inductive Found.Written : Found → Text → Prop
  | block {condition whenTrue whenFalse body : Text} (htrue : whenTrue.Sublist body)
      (hfalse : whenFalse.Sublist body) :
      Written (.block ⟨condition, whenTrue, whenFalse⟩)
        (Mark.opening.text ++ (condition ++ ')' :: (body ++ Mark.ending.text)))
  | endless (condition : Text) :
      Written (.endless condition) (Mark.opening.text ++ condition ++ [')'])
  | unclosed : Written .unclosed Mark.opening.text

/-- What is read as a block stands at the beginning as it is written. -/
theorem Found.exists_written {a : Found} (h : Found.read? s = some (a, r)) :
    ∃ written, a.Written written ∧ s = written ++ r := by
  simp only [Found.read?, Option.map_eq_some_iff] at h
  obtain ⟨u, hu, h⟩ := h
  obtain rfl := Text.after?_eq_some_iff.mp hu
  split at h
  case h_1 =>
    cases h
    exact ⟨_, .unclosed, rfl⟩
  case h_2 condition body hclose =>
    rw [Text.eq_of_closing? hclose]
    split at h
    case h_1 =>
      cases h
      exact ⟨_, .endless condition, by simp⟩
    case h_2 hbranches =>
      cases h
      obtain ⟨body, rfl, htrue, hfalse⟩ := exists_body_of_branches? hbranches
      exact ⟨_, .block htrue hfalse, by simp⟩

end Conditional

/-! ## Switches -/

namespace Switch

variable {s r : Text}

/-- The texts that are read as a directive. -/
inductive Found.Written : Found → Text → Prop
  | block (subject body : Text) :
      Written (.block subject body)
        (opening ++ (subject ++ ')' :: (body ++ "@endswitch".toList)))
  | endless (subject : Text) : Written (.endless subject) (opening ++ subject ++ [')'])
  | unclosed : Written .unclosed opening

/-- What is read as a switch stands at the beginning as it is written. -/
theorem Found.exists_written {a : Found} (h : Found.read? s = some (a, r)) :
    ∃ written, a.Written written ∧ s = written ++ r := by
  simp only [Found.read?, Option.map_eq_some_iff] at h
  obtain ⟨u, hu, h⟩ := h
  obtain rfl := Text.after?_eq_some_iff.mp hu
  split at h
  case h_1 =>
    cases h
    exact ⟨_, .unclosed, rfl⟩
  case h_2 subject body hclose =>
    rw [Text.eq_of_closing? hclose]
    split at h
    case h_1 =>
      cases h
      exact ⟨_, .endless subject, by simp⟩
    case h_2 hcut =>
      cases h
      rw [Text.eq_of_cut? hcut]
      exact ⟨_, .block subject _, by simp⟩

/-- The first case stands behind some text and before what follows it. -/
theorem Case.exists_front_of_next? {c : Case} (h : Case.next? s = .ok (some (c, r))) :
    ∃ front, s = front ++
      ("@case(".toList ++ (c.value ++ ')' :: (c.content ++ ("@break".toList ++ r)))) := by
  unfold Case.next? at h
  split at h
  case h_1 => cases h
  case h_2 front u hopening =>
    split at h
    case h_1 => cases h
    case h_2 value v hclose =>
      split at h
      case h_1 => cases h
      case h_2 content r' hbreak =>
        cases h
        refine ⟨front, ?_⟩
        rw [Text.eq_of_cut? hopening, Text.eq_of_closing? hclose, Text.eq_of_cut? hbreak]
        simp

end Switch

/-! ## Component calls -/

namespace Component

variable {s r : Text}

/-- The texts that are read as a directive. -/
inductive Found.Written : Found → Text → Prop
  | call {arguments : Text} {c : Call} (h : Call.ofArguments? arguments = some c) :
      Written (.call c) (opening ++ arguments ++ [')'])
  | malformed (arguments : Text) : Written (.malformed arguments) (opening ++ arguments ++ [')'])
  | unclosed : Written .unclosed opening

/-- What is read as a component stands at the beginning as it is written. -/
theorem Found.exists_written {a : Found} (h : Found.read? s = some (a, r)) :
    ∃ written, a.Written written ∧ s = written ++ r := by
  simp only [Found.read?, Option.map_eq_some_iff] at h
  obtain ⟨u, hu, h⟩ := h
  obtain rfl := Text.after?_eq_some_iff.mp hu
  split at h
  case h_1 =>
    cases h
    exact ⟨_, .unclosed, rfl⟩
  case h_2 arguments _ hclose =>
    rw [Text.eq_of_closing? hclose]
    split at h
    case h_1 hcall =>
      cases h
      exact ⟨_, .call hcall, by simp⟩
    case h_2 =>
      cases h
      exact ⟨_, .malformed arguments, by simp⟩

end Component

end HtmlViews
