import HtmlViews.Proofs.Session.History
import Mathlib.Logic.Function.Basic

/-!
# Stores that clients share

Clients share a store, and each of them has work of its own to do with it. An operation holds the
store from its beginning to its end, so the clients take turns of one operation each, and they may
do so in any order. Every answer that a client gets is settled by what was done before it, by
whomever: a message is delivered to one of those who take it, and the errors of a field likewise.

The invariant of a run is that everything which was done so far is a record (**Store.Recorded**):
each answer is the one that the store gives after the operations before it, and the store is the one
after all of them. A turn adds one operation with its answer and keeps this. So whatever order the
turns come in, the answers are those of a history, and what holds of histories holds of them; which
client did what plays no part.

That a message is delivered no more often than it was left is then a count along the record: a
message that waits was left once more than it was delivered (**Store.Recorded.countP_delivers_le**).

* **Store.Shared** — a store with the work of its clients; **Shared.run** — turns in some order.
* **Store.Recorded** — that each answer is the one of the store after what was done before.
* **Store.Recorded.run** — this holds of everything that clients do.
* **Store.one_shot** — what this says about messages and errors.
-/

namespace HtmlViews

namespace Store

/-- An operation that a client did. -/
structure Event (Client : Type) where
  /-- Who did it. -/
  client : Client
  /-- What was done. -/
  operation : Operation
  /-- The answer, none if there is nothing to answer. -/
  answer : Option String
deriving DecidableEq, Repr

/-- A store that clients share, in the midst of their work. -/
structure Shared (Client : Type) where
  /-- The store. -/
  store : Store := .empty
  /-- What each client has still to do, the next operation first. -/
  todo : Client → List Operation
  /-- What was done, the earliest operation first. -/
  history : List (Event Client) := []

variable {Client : Type}

/-- The operations of a history, whoever did them. -/
def operations (history : List (Event Client)) : List Operation :=
  history.map (·.operation)

namespace Shared

variable [DecidableEq Client]

/-- The turn of a client: its next operation, if there is one. -/
def turn (s : Shared Client) (c : Client) : Shared Client :=
  match s.todo c with
  | [] => s
  | op :: ops =>
    { store := (op.run s.store).2
      todo := Function.update s.todo c ops
      history := s.history ++ [⟨c, op, (op.run s.store).1⟩] }

/-- Turns one after the other. -/
def run (s : Shared Client) (schedule : List Client) : Shared Client :=
  schedule.foldl turn s

/-- A client that has nothing to do changes nothing. -/
theorem turn_of_nil {s : Shared Client} {c : Client} (h : s.todo c = []) : s.turn c = s := by
  unfold turn
  rw [h]

/-- A client does its next operation on the store as it is, and gets the answer. -/
theorem turn_of_cons {s : Shared Client} {c : Client} {op : Operation} {ops : List Operation}
    (h : s.todo c = op :: ops) :
    s.turn c =
      { store := (op.run s.store).2
        todo := Function.update s.todo c ops
        history := s.history ++ [⟨c, op, (op.run s.store).1⟩] } := by
  unfold turn
  rw [h]

/-! ## Orders of turns -/

/-- Whether clients have done the first part of their work, each in its order, and have still to do
the rest. -/
def InOrder (work : Client → List Operation) (s : Shared Client) : Prop :=
  ∀ c, operations (s.history.filter (·.client = c)) ++ s.todo c = work c

/-- After a turn all clients are still in order. -/
theorem InOrder.turn {work : Client → List Operation} {s : Shared Client} (h : InOrder work s)
    (c : Client) : InOrder work (s.turn c) := by
  cases htodo : s.todo c with
  | nil =>
    rw [turn_of_nil htodo]
    exact h
  | cons op ops =>
    rw [turn_of_cons htodo]
    intro d
    have hd := h d
    unfold operations at hd ⊢
    rw [List.filter_append, List.map_append]
    by_cases hdc : c = d
    · subst hdc
      rw [htodo] at hd
      simpa using hd
    · simpa [hdc, Function.update_of_ne (Ne.symm hdc)] using hd

/-- In whatever order the turns are taken, each client does its work in its order. -/
theorem inOrder_run (work : Client → List Operation) (schedule : List Client) :
    InOrder work (run { todo := work } schedule) := by
  induction schedule using List.reverseRecOn with
  | nil =>
    intro c
    rfl
  | append_singleton schedule c ih =>
    unfold run at ih ⊢
    rw [List.foldl_append]
    exact ih.turn c

/-- Clients who have just the operations of a sequence to do can do them in the order of that
sequence. -/
theorem history_run_of_todo {s : Shared Client} {steps : List (Client × Operation)}
    (h : ∀ c, s.todo c = (steps.filter (·.1 = c)).map (·.2)) :
    (s.run (steps.map (·.1))).history.map (fun e => (e.client, e.operation)) =
      s.history.map (fun e => (e.client, e.operation)) ++ steps := by
  induction steps generalizing s with
  | nil => exact (List.append_nil _).symm
  | cons step steps ih =>
    obtain ⟨c, op⟩ := step
    have htodo : s.todo c = op :: (steps.filter (·.1 = c)).map (·.2) := by
      rw [h c]
      simp
    have hturn : ∀ d, (s.turn c).todo d = (steps.filter (·.1 = d)).map (·.2) := by
      intro d
      rw [turn_of_cons htodo]
      by_cases hdc : d = c
      · subst hdc
        exact Function.update_self _ _ _
      · show Function.update s.todo c _ d = _
        rw [Function.update_of_ne hdc, h d]
        simp [Ne.symm hdc]
    show ((s.turn c).run (steps.map (·.1))).history.map _ = _
    rw [ih hturn, turn_of_cons htodo]
    simp

/-- Every sequence of operations of any clients is what they do in some order of turns. -/
theorem exists_history_eq (steps : List (Client × Operation)) :
    ∃ work schedule, (run { todo := work } schedule).history.map
      (fun e => (e.client, e.operation)) = steps :=
  ⟨fun c => (steps.filter (·.1 = c)).map (·.2), steps.map (·.1),
    history_run_of_todo fun _ => rfl⟩

end Shared

/-! ## Answers -/

/-- Whether every answer in a history is the one of the store after what was done before. -/
def Recorded (history : List (Event Client)) : Prop :=
  ∀ earlier event later, history = earlier ++ event :: later →
    event.answer = (event.operation.run (after (operations earlier))).1

namespace Recorded

variable {history earlier later : List (Event Client)} {event : Event Client}

/-- In the empty history there are no answers. -/
theorem nil : Recorded ([] : List (Event Client)) := by
  intro earlier event later h
  exact absurd h.symm (by simp)

/-- One more operation may be recorded with the answer of the store at that time. -/
theorem snoc (h : Recorded history) (c : Client) (op : Operation) :
    Recorded (history ++ [⟨c, op, (op.run (after (operations history))).1⟩]) := by
  intro earlier event later heq
  rcases List.eq_nil_or_concat later with rfl | ⟨later, last, rfl⟩
  · obtain ⟨rfl, hevent⟩ := List.append_inj' heq rfl
    obtain rfl := List.singleton_inj.mp hevent
    rfl
  · rw [List.concat_eq_append, ← List.cons_append, ← List.append_assoc] at heq
    exact h earlier event later (List.append_inj' heq rfl).1

/-- The beginning of a record is a record. -/
theorem of_append (h : Recorded (history ++ later)) : Recorded history := by
  intro earlier event between heq
  subst heq
  exact h earlier event (between ++ later) (by simp)

/-- Whatever clients do, and in whatever order, is recorded, and the store is the one after it. -/
theorem run [DecidableEq Client] (work : Client → List Operation) (schedule : List Client) :
    let s := Shared.run { todo := work } schedule
    Recorded s.history ∧ s.store = after (operations s.history) := by
  induction schedule using List.reverseRecOn with
  | nil => exact ⟨nil, rfl⟩
  | append_singleton schedule c ih =>
    have hturn : Shared.run { todo := work } (schedule ++ [c]) =
        (Shared.run { todo := work } schedule).turn c := by
      unfold Shared.run
      rw [List.foldl_append]
      rfl
    rw [hturn]
    generalize Shared.run { todo := work } schedule = s at ih
    obtain ⟨hrecorded, hstore⟩ := ih
    cases htodo : s.todo c with
    | nil =>
      rw [Shared.turn_of_nil htodo]
      exact ⟨hrecorded, hstore⟩
    | cons op ops =>
      rw [Shared.turn_of_cons htodo, hstore]
      refine ⟨hrecorded.snoc c op, ?_⟩
      show _ = after (operations (s.history ++ _))
      unfold operations
      rw [List.map_append]
      exact (after_append _ op).symm

end Recorded

/-! ## Messages and errors -/

namespace Operation

/-- Whether an operation asks for the message under a name. -/
def asksMessage (name : String) : Operation → Bool
  | .takeMessage n | .peekMessage n => n = name
  | _ => false

/-- Whether an operation asks for the first error of a field. -/
def asksError (field : String) : Operation → Bool
  | .takeError f | .peekError f => f = field
  | _ => false

/-- To ask for a message is answered with the one that waits, whether it is taken or not. -/
theorem run_of_asksMessage {op : Operation} {name : String} (h : op.asksMessage name = true)
    (s : Store) : (op.run s).1 = s.peekMessage name := by
  cases op <;> simp_all [asksMessage, Operation.run, Store.takeMessage]

/-- To ask for an error is answered with the first one of the field, whether it is taken or not. -/
theorem run_of_asksError {op : Operation} {field : String} (h : op.asksError field = true)
    (s : Store) : (op.run s).1 = s.peekError field := by
  cases op <;> simp_all [asksError, Operation.run, Store.takeError]

end Operation

namespace Event

/-- Whether a message was delivered: it was taken, and was there. -/
def delivers (name message : String) (e : Event Client) : Bool :=
  e.operation = .takeMessage name && e.answer = some message

/-- Whether a message was left. -/
def leaves (name message : String) (e : Event Client) : Bool :=
  e.operation = .flash name message

end Event

/-- What is answered to clients about messages and errors that are gone once they are taken. -/
structure OneShot (history : List (Event Client)) : Prop where
  /-- The answer about a name is the message of the last operation before that left or took one
  under this name, if it left one. -/
  message : ∀ earlier event later name, history = earlier ++ event :: later →
    event.operation.asksMessage name = true → ∀ m,
      event.answer = some m ↔
        ((operations earlier).filter (·.movesMessage name)).getLast? = some (.flash name m)
  /-- The answer about a field is the first of the errors that were given to it since they were
  dropped last. -/
  error : ∀ earlier event later field, history = earlier ++ event :: later →
    event.operation.asksError field = true →
      event.answer = (given field (operations earlier)).head?
  /-- What is answered about a name was left after the message under this name was taken last. -/
  fresh : ∀ earlier taken between event later name m,
    history = earlier ++ taken :: between ++ event :: later →
    taken.operation = .takeMessage name → event.operation.asksMessage name = true →
    event.answer = some m → ∃ flashed ∈ between, flashed.operation = .flash name m
  /-- A message is not delivered more often than it was left. -/
  counted : ∀ name m, history.countP (Event.delivers name m) ≤ history.countP (Event.leaves name m)
  /-- The answer about a name is the one of a store with which nothing was done under other
  names. -/
  messageAlone : ∀ earlier event later name, history = earlier ++ event :: later →
    event.operation.asksMessage name = true →
      event.answer =
        (event.operation.run (after ((operations earlier).filter (·.movesMessage name)))).1
  /-- The answer about a field is the one of a store with which nothing was done to other fields. -/
  errorAlone : ∀ earlier event later field, history = earlier ++ event :: later →
    event.operation.asksError field = true →
      event.answer =
        (event.operation.run (after ((operations earlier).filter (·.movesErrors field)))).1

namespace Recorded

variable {history earlier later : List (Event Client)} {event : Event Client} {name field : String}

/-- Whoever asks for a message gets the one that waited after what was done before. -/
theorem answer_message (h : Recorded history) (heq : history = earlier ++ event :: later)
    (hasks : event.operation.asksMessage name = true) :
    event.answer = (after (operations earlier)).peekMessage name := by
  rw [h _ _ _ heq, Operation.run_of_asksMessage hasks]

/-- Whoever asks for an error gets the first one of the field after what was done before. -/
theorem answer_error (h : Recorded history) (heq : history = earlier ++ event :: later)
    (hasks : event.operation.asksError field = true) :
    event.answer = (after (operations earlier)).peekError field := by
  rw [h _ _ _ heq, Operation.run_of_asksError hasks]

/-- Behind an operation that took the message under a name, what waits there was left since. -/
theorem exists_flash {earlier between : List (Event Client)} {taken : Event Client} {m : String}
    (htaken : taken.operation = .takeMessage name)
    (h : (after (operations (earlier ++ taken :: between))).peekMessage name = some m) :
    ∃ flashed ∈ between, flashed.operation = .flash name m := by
  have hmoves : taken.operation.movesMessage name = true := by
    rw [htaken]
    exact decide_eq_true rfl
  rw [peekMessage_after] at h
  unfold operations at h
  rw [List.map_append, List.map_cons, List.filter_append, List.filter_cons_of_pos hmoves,
    List.getLast?_append_of_ne_nil _ (List.cons_ne_nil _ _)] at h
  rcases List.mem_cons.mp (List.mem_of_getLast? h) with hhead | htail
  · rw [htaken] at hhead
    cases hhead
  · obtain ⟨flashed, hmem, hflashed⟩ := List.mem_map.mp (List.mem_filter.mp htail).1
    exact ⟨flashed, hmem, hflashed⟩

/-- A message that is delivered was waiting. -/
theorem peekMessage_of_delivers {m : String} {s : Store}
    (hanswer : event.answer = (event.operation.run s).1) (h : event.delivers name m = true) :
    s.peekMessage name = some m := by
  obtain ⟨hop, hm⟩ := Bool.and_eq_true_iff.mp h
  rw [of_decide_eq_true hop] at hanswer
  exact hanswer.symm.trans (of_decide_eq_true hm)

/-- A message that waits was left once more than it was delivered. -/
theorem countP_delivers_le (h : Recorded history) (name m : String) :
    history.countP (Event.delivers name m) +
        (if (after (operations history)).peekMessage name = some m then 1 else 0) ≤
      history.countP (Event.leaves name m) := by
  induction history using List.reverseRecOn with
  | nil => simp [operations, after, empty, peekMessage]
  | append_singleton history event ih =>
    have hhistory := ih h.of_append
    have hdelivers : event.delivers name m = true →
        (after (operations history)).peekMessage name = some m :=
      peekMessage_of_delivers (h history event [] rfl)
    have hafter : (after (operations (history ++ [event]))).peekMessage name =
        if event.operation.movesMessage name then event.operation.message?
        else (after (operations history)).peekMessage name := by
      unfold operations
      rw [List.map_append]
      exact peekMessage_after_append _ _ _
    rw [hafter, List.countP_append, List.countP_append, List.countP_singleton,
      List.countP_singleton]
    by_cases hmoves : event.operation.movesMessage name = true
    · -- What waits now was left just now, and what was delivered just now waits no more.
      have hleaves : event.operation.message? = some m ↔ event.leaves name m = true :=
        (eq_flash_iff hmoves m).trans decide_eq_true_iff.symm
      simp only [if_pos hmoves, hleaves]
      by_cases hd : event.delivers name m = true
      · rw [if_pos (hdelivers hd)] at hhistory
        rw [if_pos hd]
        omega
      · rw [if_neg hd]
        omega
    · have hquiet : event.delivers name m = false ∧ event.leaves name m = false := by
        obtain ⟨c, op, answer⟩ := event
        cases op <;> simp_all [Operation.movesMessage, Event.delivers, Event.leaves]
      simpa [if_neg hmoves, hquiet.1, hquiet.2] using hhistory

/-- Every record is one of messages and errors that are gone once they are taken. -/
theorem oneShot (h : Recorded history) : OneShot history where
  message earlier event later name heq hasks m := by
    rw [h.answer_message heq hasks]
    exact peekMessage_after _ _ _
  error earlier event later field heq hasks := by
    rw [h.answer_error heq hasks]
    exact peekError_after _ _
  fresh earlier taken between event later name m heq htaken hasks hm := by
    rw [h.answer_message heq hasks] at hm
    exact exists_flash htaken hm
  counted name m := (Nat.le_add_right _ _).trans (h.countP_delivers_le name m)
  messageAlone earlier event later name heq hasks := by
    rw [h.answer_message heq hasks, Operation.run_of_asksMessage hasks, peekMessage_after_filter]
  errorAlone earlier event later field heq hasks := by
    rw [h.answer_error heq hasks, Operation.run_of_asksError hasks, peekError_after_filter]

end Recorded

/-- **Messages and errors are one-shot**, whatever clients do with a store and in whatever order
they take turns. Each of them does its work in its order, and every sequence of operations comes
about in some order; the answers are settled by what was done before, a message is delivered once at
most, and other names and fields make no difference. -/
theorem one_shot [DecidableEq Client] :
    (∀ steps : List (Client × Operation), ∃ work schedule,
      (Shared.run { todo := work } schedule).history.map
        (fun e => (e.client, e.operation)) = steps) ∧
    ∀ (work : Client → List Operation) (schedule : List Client),
      Shared.InOrder work (Shared.run { todo := work } schedule) ∧
        OneShot (Shared.run { todo := work } schedule).history := by
  refine ⟨Shared.exists_history_eq, ?_⟩
  intro work schedule
  exact ⟨Shared.inOrder_run work schedule, (Recorded.run work schedule).1.oneShot⟩

/-- Two clients take the message that one of them left: the other one comes first and gets it. -/
theorem one_shot_two_takers :
    let work := fun c : Bool =>
      if c then [.flash "notice" "Saved!", .takeMessage "notice"] else [.takeMessage "notice"]
    let history := (Shared.run { todo := work } [true, false, true]).history
    history = [⟨true, .flash "notice" "Saved!", none⟩, ⟨false, .takeMessage "notice", some "Saved!"⟩,
        ⟨true, .takeMessage "notice", none⟩] ∧
      OneShot history := by
  intro work history
  exact ⟨by decide, (one_shot.2 work [true, false, true]).2⟩

end Store

end HtmlViews
