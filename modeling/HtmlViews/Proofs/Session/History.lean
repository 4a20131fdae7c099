import HtmlViews.Session.Store
import Mathlib.Data.List.DropRight

/-!
# Stores after their whole history

What waits in a store is what its history left there. Said by the history alone: the message under a
name is the one of the last operation that left or took a message under this name, and the errors of
a field are those that were given to it since they were dropped last.

The proof goes along the history from its end, one operation at a time: the last operation either
moves the message under the name, and then decides what waits there, or it does not, and then what
waits is what waited before. For errors it is the same with one difference, since an operation can
add to what was given before; so the errors of a field are computed from those that earlier
operations have given it (**Store.given**).

Operations that do not move the message under a name can be left out of a history without changing
what waits there.

* **Store.Operation** — what can be done with a store.
* **Store.after** — the store after a history of operations.
* **Store.given** — the errors that a history gave to a field since they were dropped last.
* **Store.peekMessage_after**, **Store.peekError_after** — what waits after a history.
* **Store.peekMessage_after_filter**, **Store.peekError_after_filter** — operations on other names
  and fields make no difference.
-/

namespace HtmlViews

namespace Store

/-- What can be done with a store. -/
inductive Operation where
  /-- A message is left under a name. -/
  | flash (name message : String)
  /-- The errors of a field are replaced. -/
  | putErrors (field : String) (errors : List String)
  /-- One more error of a field is left. -/
  | addError (field error : String)
  /-- The errors of all fields are dropped. -/
  | forgetErrors
  /-- The message under a name is asked for, and goes on waiting. -/
  | peekMessage (name : String)
  /-- The message under a name is asked for, and is gone. -/
  | takeMessage (name : String)
  /-- The first error of a field is asked for, and goes on waiting. -/
  | peekError (field : String)
  /-- The first error of a field is asked for, and all errors of the field are gone. -/
  | takeError (field : String)
deriving DecidableEq, Repr

namespace Operation

/-- The answer to an operation, none if there is nothing to answer, and the store after it. -/
def run : Operation → Store → Option String × Store
  | .flash name message, s => (none, s.flash name message)
  | .putErrors field errors, s => (none, s.putErrors field errors)
  | .addError field error, s => (none, s.addError field error)
  | .forgetErrors, s => (none, s.forgetErrors)
  | .peekMessage name, s => (s.peekMessage name, s)
  | .takeMessage name, s => s.takeMessage name
  | .peekError field, s => (s.peekError field, s)
  | .takeError field, s => s.takeError field

/-- Whether an operation leaves or takes the message under a name. -/
def movesMessage (name : String) : Operation → Bool
  | .flash n _ | .takeMessage n => n = name
  | _ => false

/-- The message that an operation leaves. -/
def message? : Operation → Option String
  | .flash _ m => some m
  | _ => none

/-- Whether an operation drops the errors of a field. -/
def dropsErrors (field : String) : Operation → Bool
  | .takeError f => f = field
  | .forgetErrors => true
  | _ => false

/-- Whether an operation drops the errors of a field or gives it some. -/
def movesErrors (field : String) : Operation → Bool
  | .putErrors f _ | .addError f _ | .takeError f => f = field
  | .forgetErrors => true
  | _ => false

/-- The errors of a field after an operation that does not drop them: those that it puts in their
place, or one more behind them. -/
def give (field : String) (errors : List String) : Operation → List String
  | .putErrors f es => if f = field then es else errors
  | .addError f e => if f = field then errors ++ [e] else errors
  | _ => errors

end Operation

/-- The store after a history, which begins with an empty one. -/
def after (history : List Operation) : Store :=
  history.foldl (fun s op => (op.run s).2) empty

/-- The errors that a history gave to a field since they were dropped last. -/
def given (field : String) (history : List Operation) : List String :=
  (history.rtakeWhile fun op => !op.dropsErrors field).foldl (Operation.give field) []

variable {history : List Operation} {op : Operation} {name field : String}

/-- One more operation is done on the store as the history left it. -/
theorem after_append (history : List Operation) (op : Operation) :
    after (history ++ [op]) = (op.run (after history)).2 := by
  unfold after
  rw [List.foldl_append]
  rfl

/-! ## Messages -/

/-- One more operation decides what waits under the name whose message it moves, and under no other
name. -/
theorem peekMessage_after_append (history : List Operation) (op : Operation) (name : String) :
    (after (history ++ [op])).peekMessage name =
      if op.movesMessage name then op.message? else (after history).peekMessage name := by
  rw [after_append]
  cases op with
  | flash n m =>
    simp only [Operation.run, Operation.movesMessage, Operation.message?, decide_eq_true_eq]
    exact Dict.find?_insert _ n name m
  | takeMessage n =>
    simp only [Operation.run, Operation.movesMessage, Operation.message?, decide_eq_true_eq]
    exact Dict.find?_erase _ n name
  | _ => rfl

/-- An operation that moves the message under a name leaves one exactly if it is a flash under
it. -/
theorem eq_flash_iff (hop : op.movesMessage name = true) (m : String) :
    op.message? = some m ↔ op = .flash name m := by
  cases op <;> simp_all [Operation.movesMessage, Operation.message?]

/-- **A message waits** exactly if it was left by the last operation that left or took one under its
name. -/
theorem peekMessage_after (history : List Operation) (name m : String) :
    (after history).peekMessage name = some m ↔
      (history.filter (·.movesMessage name)).getLast? = some (.flash name m) := by
  induction history using List.reverseRecOn with
  | nil => simp [after, empty, peekMessage]
  | append_singleton history op ih =>
    rw [peekMessage_after_append, List.filter_append]
    by_cases hop : op.movesMessage name = true
    · rw [if_pos hop, List.filter_cons_of_pos hop, List.filter_nil, List.getLast?_concat,
        Option.some_inj]
      exact eq_flash_iff hop m
    · rw [if_neg hop, List.filter_cons_of_neg hop, List.filter_nil, List.append_nil]
      exact ih

/-- Only the operations that move the message under a name make a difference to it. -/
theorem peekMessage_after_filter (history : List Operation) (name : String) :
    (after (history.filter (·.movesMessage name))).peekMessage name =
      (after history).peekMessage name := by
  apply Option.ext
  intro m
  rw [peekMessage_after, peekMessage_after, List.filter_filter]
  simp only [Bool.and_self]

/-! ## Errors -/

/-- When its errors are dropped, nothing is given to a field any more. -/
theorem given_append_of_drops (hop : op.dropsErrors field = true) (history : List Operation) :
    given field (history ++ [op]) = [] := by
  unfold given
  rw [List.rtakeWhile_concat_neg]
  · rfl
  · simp [hop]

/-- Otherwise an operation gives to a field what it gives on top of what was given before. -/
theorem given_append (hop : op.dropsErrors field = false) (history : List Operation) :
    given field (history ++ [op]) = op.give field (given field history) := by
  unfold given
  rw [List.rtakeWhile_concat_pos, List.foldl_append]
  · rfl
  · simp [hop]

/-- An operation that does not move the errors of a field does not drop them. -/
theorem dropsErrors_eq_false (hop : op.movesErrors field = false) : op.dropsErrors field = false := by
  cases op <;> simp_all [Operation.movesErrors, Operation.dropsErrors]

/-- An operation that does not move the errors of a field gives it none. -/
theorem give_eq_self (hop : op.movesErrors field = false) (errors : List String) :
    op.give field errors = errors := by
  cases op <;> simp_all [Operation.movesErrors, Operation.give]

/-- The errors of a field are those that the history gave to it. A field without an entry is one
without errors here, since a history can also give it none. -/
theorem getD_errors_after (history : List Operation) (field : String) :
    ((after history).errors.find? field).getD [] = given field history := by
  -- By induction from the end: the last operation gives errors to the field, drops those it has, or
  -- does neither.
  induction history using List.reverseRecOn with
  | nil => rfl
  | append_singleton history op ih =>
    rw [after_append]
    cases op with
    | putErrors f es =>
      rw [given_append rfl, ← ih]
      simp only [Operation.run, putErrors, Dict.find?_insert, Operation.give]
      by_cases hf : f = field <;> simp [hf]
    | addError f e =>
      rw [given_append rfl, ← ih]
      simp only [Operation.run, addError, Dict.find?_insert, Operation.give]
      by_cases hf : f = field <;> simp [hf]
    | forgetErrors =>
      rw [given_append_of_drops rfl]
      rfl
    | takeError f =>
      simp only [Operation.run, takeError, Dict.find?_erase]
      by_cases hf : f = field
      · have hdrops : (Operation.takeError f).dropsErrors field = true := decide_eq_true hf
        rw [given_append_of_drops hdrops, if_pos hf]
        rfl
      · have hdrops : (Operation.takeError f).dropsErrors field = false := decide_eq_false hf
        rw [given_append hdrops, if_neg hf]
        exact ih
    | _ =>
      rw [given_append rfl]
      exact ih

/-- **The error that waits** is the first of those that were given to its field since they were
dropped last. -/
theorem peekError_after (history : List Operation) (field : String) :
    (after history).peekError field = (given field history).head? := by
  rw [← getD_errors_after, peekError]
  cases (after history).errors.find? field <;> rfl

/-- What is given to a field depends on the operations alone that move its errors. -/
theorem given_filter (history : List Operation) (field : String) :
    given field (history.filter (·.movesErrors field)) = given field history := by
  induction history using List.reverseRecOn with
  | nil => rfl
  | append_singleton history op ih =>
    rw [List.filter_append]
    by_cases hop : op.movesErrors field = true
    · rw [List.filter_cons_of_pos hop, List.filter_nil]
      by_cases hdrop : op.dropsErrors field = true
      · rw [given_append_of_drops hdrop, given_append_of_drops hdrop]
      · rw [given_append (eq_false_of_ne_true hdrop), given_append (eq_false_of_ne_true hdrop), ih]
    · have hmoves := eq_false_of_ne_true hop
      rw [List.filter_cons_of_neg hop, List.filter_nil, List.append_nil,
        given_append (dropsErrors_eq_false hmoves), give_eq_self hmoves]
      exact ih

/-- Only the operations that move the errors of a field make a difference to it. -/
theorem peekError_after_filter (history : List Operation) (field : String) :
    (after (history.filter (·.movesErrors field))).peekError field =
      (after history).peekError field := by
  rw [peekError_after, peekError_after, given_filter]

end Store

end HtmlViews
