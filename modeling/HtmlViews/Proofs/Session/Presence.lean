import HtmlViews.Proofs.Dict
import HtmlViews.Proofs.Session.History

/-!
# Stores in which errors were left

Whether errors were left is a question about the entries of a store, while what waits for a field is
a question about the list in its entry. The two differ where a list is empty: a field whose errors
were replaced by none has an entry, and no error waits for it.

Whether a field has an empty list is decided by its history alone: of all operations only one leaves
an empty list, the one that replaces the errors of the field by none, and every operation that moves
the errors of the field later ends that. The proof is the same induction on the history as for what
waits.

* **Store.hasErrors_iff** — errors were left exactly if a field has an entry.
* **Store.find?_errors_after_eq_nil_iff** — the fields that a history left with an empty list.
* **Store.hasErrors_after_iff** — what the question says about a history.
-/

namespace HtmlViews

namespace Store

variable {op : Operation} {field : String}

/-- Errors were left if some field has an entry, be it an empty list. -/
theorem hasErrors_iff (s : Store) :
    s.hasErrors = true ↔ ∃ field errors, s.errors.find? field = some errors := by
  rw [hasErrors, Bool.not_eq_true', Dict.isEmpty_eq_false_iff]

/-! ## Empty lists -/

/-- An operation that does not move the errors of a field keeps its entry. -/
theorem find?_errors_run (hop : op.movesErrors field = false) (s : Store) :
    (op.run s).2.errors.find? field = s.errors.find? field := by
  cases op with
  | putErrors f es => exact (Dict.find?_insert _ _ _ _).trans (if_neg (of_decide_eq_false hop))
  | addError f e => exact (Dict.find?_insert _ _ _ _).trans (if_neg (of_decide_eq_false hop))
  | takeError f => exact (Dict.find?_erase _ _ _).trans (if_neg (of_decide_eq_false hop))
  | forgetErrors => cases hop
  | _ => rfl

/-- Of the operations that move the errors of a field, one leaves it an empty list: that which
replaces them by none. -/
theorem find?_errors_run_eq_nil_iff (hop : op.movesErrors field = true) (s : Store) :
    (op.run s).2.errors.find? field = some [] ↔ op = .putErrors field [] := by
  cases op with
  | putErrors f es =>
    obtain rfl : f = field := of_decide_eq_true hop
    simp [Operation.run, putErrors, Dict.find?_insert]
  | addError f e =>
    obtain rfl : f = field := of_decide_eq_true hop
    simp [Operation.run, addError, Dict.find?_insert]
  | takeError f =>
    obtain rfl : f = field := of_decide_eq_true hop
    simp [Operation.run, takeError, Dict.find?_erase]
  | forgetErrors => simp [Operation.run, forgetErrors]
  | _ => cases hop

/-- A field has an empty list exactly if its errors were replaced by none, and nothing has been done
about them since. -/
theorem find?_errors_after_eq_nil_iff (history : List Operation) (field : String) :
    (after history).errors.find? field = some [] ↔
      (history.filter (·.movesErrors field)).getLast? = some (.putErrors field []) := by
  induction history using List.reverseRecOn with
  | nil => simp [after, empty]
  | append_singleton history op ih =>
    rw [after_append, List.filter_append]
    by_cases hop : op.movesErrors field = true
    · rw [find?_errors_run_eq_nil_iff hop, List.filter_cons_of_pos hop, List.filter_nil,
        List.getLast?_concat, Option.some_inj]
    · rw [find?_errors_run (eq_false_of_ne_true hop), List.filter_cons_of_neg hop, List.filter_nil,
        List.append_nil]
      exact ih

/-- **Errors were left** exactly if an error waits for some field, or there is a field whose errors
were replaced by none and about which nothing has been done since. -/
theorem hasErrors_after_iff (history : List Operation) :
    (after history).hasErrors = true ↔
      (∃ field error, (after history).peekError field = some error) ∨
        ∃ field, (history.filter (·.movesErrors field)).getLast? = some (.putErrors field []) := by
  simp only [← find?_errors_after_eq_nil_iff, hasErrors_iff]
  constructor
  · rintro ⟨field, errors, hfind⟩
    cases errors with
    | nil => exact .inr ⟨field, hfind⟩
    | cons error errors => exact .inl ⟨field, error, by rw [peekError, hfind]; rfl⟩
  · rintro (⟨field, error, hpeek⟩ | ⟨field, hfind⟩)
    · obtain ⟨errors, hfind, -⟩ := Option.bind_eq_some_iff.mp hpeek
      exact ⟨field, errors, hfind⟩
    · exact ⟨field, [], hfind⟩

/-- Errors were left and none waits, after those of a field were replaced by none. -/
theorem not_forall_hasErrors_iff_waiting :
    ¬ ∀ history : List Operation, (after history).hasErrors = true ↔
      ∃ field error, (after history).peekError field = some error := by
  intro h
  have hnone : ∀ field, (after [.putErrors "email" []]).peekError field = none := by
    intro field
    show ((Dict.empty.insert "email" []).find? field).bind List.head? = none
    rw [Dict.find?_insert]
    split
    · rfl
    · rfl
  obtain ⟨field, error, hpeek⟩ := (h [.putErrors "email" []]).mp rfl
  rw [hnone field] at hpeek
  cases hpeek

end Store

end HtmlViews
