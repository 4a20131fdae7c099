import HtmlViews.Proofs.Render.Run
import Mathlib.Data.List.Infix

/-!
# Call stacks after a history

Whatever components are entered and left, and in whatever order, the frame that a render began with
stays, and no more components are nested than the limit allows, or than were nested at the
beginning. Operations that leave what they have entered, and nothing else, make no difference.

The proofs go by induction on the history. One operation is looked at once
(**CallStack.Operation.run_cases**), and what it keeps, the first frame, the limit and the bound on
the nesting, is kept by a history. For operations in pairs the induction needs more: between an
entrance and its exit the stack is not what it was, but what lies under the frames that were entered
since is. So the claim is made for a stack under more frames (**CallStack.under**), as many of them
as have been entered and not yet left.

* **CallStack.Operation** — what can be done with a call stack; **Operation.exec_render** — a render
  does the same with its own.
* **CallStack.Operation.run_cases** — what one operation can do.
* **CallStack.after** — the stack after a history of operations.
* **CallStack.frames_after** — its frames are a row that is never emptied.
* **CallStack.depth_after_le** — the nesting after a history.
* **CallStack.Nested**, **CallStack.Allows** — operations that leave what they have entered, and
  operations of which none fails.
* **CallStack.Operation.exists_run_under**, **CallStack.exists_after_under** — what is under the
  frames that are entered and left stays.
* **CallStack.after_nested** — such operations restore the stack.
-/

namespace HtmlViews.CallStack

/-! ## Operations -/

/-- The stack under more frames, the current one first. -/
def under (s : CallStack) (extra : List Frame) : CallStack :=
  { s with above := extra ++ s.above }

/-- What can be done with a call stack. -/
inductive Operation where
  /-- A component is entered, which fails at the limit. -/
  | push (name : String)
  /-- The current template is left, unless it is the first one. -/
  | pop
deriving DecidableEq, Repr

namespace Operation

/-- What an operation gives, and the stack after it. -/
def run : Operation → CallStack → Except Failure Unit × CallStack
  | .push name, s =>
    match s.push name with
    | .ok pushed => (.ok (), pushed)
    | .error f => (.error f, s)
  | .pop, s => (.ok (), s.pop)

/-- An operation on the stack of a render. -/
def render : Operation → Render Unit
  | .push name => Render.enter name
  | .pop => Render.leave

/-! ### What one operation does -/

variable {s : CallStack} {name : String}

/-- Below the limit a component is entered. -/
theorem run_push_of_lt (h : s.depth < s.limit) :
    (push name).run s = (.ok (), s.under [⟨.component, name⟩]) := by
  have hpush : s.push name = .ok (s.under [⟨.component, name⟩]) := push_eq_ok_iff.mpr ⟨h, rfl⟩
  rw [run, hpush]

/-- At the limit a component is refused, and the stack stays as it is. -/
theorem run_push_of_le (h : s.limit ≤ s.depth) :
    (push name).run s = (.error (.recursionLimit name s.limit), s) := by
  have hpush : s.push name = .error (.recursionLimit name s.limit) :=
    push_eq_error_iff.mpr ⟨h, rfl⟩
  rw [run, hpush]

/-- An operation enters a component below the limit, is refused at the limit and changes nothing, or
leaves a template. -/
theorem run_cases (op : Operation) (s : CallStack) :
    (∃ name, op = .push name ∧ s.depth < s.limit ∧
      op.run s = (.ok (), s.under [⟨.component, name⟩])) ∨
    (∃ name, op = .push name ∧ s.limit ≤ s.depth ∧
      op.run s = (.error (.recursionLimit name s.limit), s)) ∨
    (op = .pop ∧ op.run s = (.ok (), s.pop)) := by
  cases op with
  | pop => exact .inr (.inr ⟨rfl, rfl⟩)
  | push name =>
    rcases Nat.lt_or_ge s.depth s.limit with hlt | hle
    · exact .inl ⟨name, rfl, hlt, run_push_of_lt hlt⟩
    · exact .inr (.inl ⟨name, rfl, hle, run_push_of_le hle⟩)

/-- A render enters and leaves templates by these operations, and changes nothing else by them. -/
theorem exec_render (op : Operation) (st : RenderState) :
    op.render.exec st = ((op.run st.stack).1, { st with stack := (op.run st.stack).2 }) := by
  rcases op.run_cases st.stack with ⟨name, rfl, hlt, hrun⟩ | ⟨name, rfl, hle, hrun⟩ | ⟨rfl, hrun⟩
  · rw [hrun]
    exact Render.exec_enter_of_ok (push_eq_ok_iff.mpr ⟨hlt, rfl⟩)
  · rw [hrun]
    exact Render.exec_enter_of_error (push_eq_error_iff.mpr ⟨hle, rfl⟩)
  · rw [hrun]
    rfl

/-- A component is refused exactly when as many are nested as the limit allows. -/
theorem exists_error_push_iff : (∃ f, ((push name).run s).1 = .error f) ↔ s.limit ≤ s.depth := by
  rcases Nat.lt_or_ge s.depth s.limit with hlt | hle
  · simp [run_push_of_lt hlt, hlt]
  · simp [run_push_of_le hle, hle]

/-- The first frame and the limit stay as they are. -/
theorem run_keeps (op : Operation) (s : CallStack) :
    (op.run s).2.first = s.first ∧ (op.run s).2.limit = s.limit := by
  rcases op.run_cases s with ⟨name, -, -, hrun⟩ | ⟨name, -, -, hrun⟩ | ⟨-, hrun⟩
  all_goals rw [hrun]
  all_goals exact ⟨rfl, rfl⟩

/-- What is nested above the limit already can only be left. -/
theorem depth_run_le (op : Operation) (s : CallStack) :
    (op.run s).2.depth ≤ max s.limit s.depth := by
  rcases op.run_cases s with ⟨name, -, hlt, hrun⟩ | ⟨name, -, -, hrun⟩ | ⟨-, hrun⟩
  · have hpush : s.push name = .ok (s.under [⟨.component, name⟩]) := push_eq_ok_iff.mpr ⟨hlt, rfl⟩
    rw [hrun]
    exact Nat.le_trans (depth_le_of_push hpush) (Nat.le_max_left _ _)
  · rw [hrun]
    exact Nat.le_max_right _ _
  · have hsublist : s.pop.frames.Sublist s.frames :=
      ((List.tail_sublist s.above).reverse).cons_cons s.first
    rw [hrun]
    exact Nat.le_trans hsublist.countP_le (Nat.le_max_right _ _)

/-! ### Rows of frames -/

/-- The frames after an operation on a row of frames, of which the last one that is left stays. -/
def onFrames (limit : Nat) : Operation → List Frame → List Frame
  | .push name, fs =>
    if fs.countP (fun f => f.kind = .component) < limit then fs ++ [⟨.component, name⟩] else fs
  | .pop, fs => if 1 < fs.length then fs.dropLast else fs

/-- A stack is a row of frames: the first one need not be kept apart. -/
theorem frames_run (op : Operation) (s : CallStack) :
    (op.run s).2.frames = op.onFrames s.limit s.frames := by
  rcases op.run_cases s with ⟨name, rfl, hlt, hrun⟩ | ⟨name, rfl, hle, hrun⟩ | ⟨rfl, hrun⟩
  · have hroom : s.frames.countP (fun f => f.kind = .component) < s.limit := hlt
    rw [hrun, onFrames, if_pos hroom]
    simp [frames, under]
  · have hfull : ¬ s.frames.countP (fun f => f.kind = .component) < s.limit := Nat.not_lt.mpr hle
    rw [hrun, onFrames, if_neg hfull]
  · rw [hrun]
    obtain ⟨first, above, limit⟩ := s
    cases above with
    | nil => rfl
    | cons f above =>
      have hframes : frames ⟨first, f :: above, limit⟩ = frames ⟨first, above, limit⟩ ++ [f] := by
        simp [frames]
      have hlength : 1 < (frames ⟨first, above, limit⟩ ++ [f]).length := by
        simp [frames]
      rw [onFrames, hframes, if_pos hlength, List.dropLast_concat]
      rfl

end Operation

/-! ## Histories -/

/-- The stack after a history of operations. -/
def after (s : CallStack) (history : List Operation) : CallStack :=
  history.foldl (fun s op => (op.run s).2) s

variable {s : CallStack} {ops : List Operation}

/-- The first operation is done first. -/
theorem after_cons (s : CallStack) (op : Operation) (ops : List Operation) :
    s.after (op :: ops) = (op.run s).2.after ops :=
  rfl

/-- No history changes the first frame or the limit. -/
theorem after_keeps (s : CallStack) (history : List Operation) :
    (s.after history).first = s.first ∧ (s.after history).limit = s.limit := by
  induction history generalizing s with
  | nil => exact ⟨rfl, rfl⟩
  | cons op history ih =>
    obtain ⟨hfirst, hlimit⟩ := op.run_keeps s
    rw [← hfirst, ← hlimit]
    exact ih (op.run s).2

/-- A history of a stack is one of a row of frames. -/
theorem frames_after (s : CallStack) (history : List Operation) :
    (s.after history).frames =
      history.foldl (fun fs op => op.onFrames s.limit fs) s.frames := by
  induction history generalizing s with
  | nil => rfl
  | cons op history ih =>
    rw [after_cons, ih, (op.run_keeps s).2, op.frames_run, List.foldl_cons]

/-- No more components are nested than the limit allows, or than were nested before. -/
theorem depth_after_le (s : CallStack) (history : List Operation) :
    (s.after history).depth ≤ max s.limit s.depth := by
  induction history generalizing s with
  | nil => exact Nat.le_max_right _ _
  | cons op history ih =>
    have hstep := op.depth_run_le s
    have hrest := ih (op.run s).2
    rw [(op.run_keeps s).2] at hrest
    rw [after_cons]
    omega

/-! ## Operations that restore the stack -/

/-- How often components are entered. -/
def pushes (ops : List Operation) : Nat :=
  ops.countP (· ≠ .pop)

/-- How often templates are left. -/
def pops (ops : List Operation) : Nat :=
  ops.count .pop

section Counts

variable (name : String) (ops : List Operation)

/-- Without operations nothing is entered. -/
@[simp] theorem pushes_nil : pushes [] = 0 := rfl

/-- Without operations nothing is left. -/
@[simp] theorem pops_nil : pops [] = 0 := rfl

/-- A push is counted as an entrance. -/
@[simp] theorem pushes_push : pushes (.push name :: ops) = pushes ops + 1 :=
  List.countP_cons_of_pos rfl

/-- A pop is not counted as an entrance. -/
@[simp] theorem pushes_pop : pushes (.pop :: ops) = pushes ops :=
  List.countP_cons_of_neg Bool.false_ne_true

/-- A push is not counted as an exit. -/
@[simp] theorem pops_push : pops (.push name :: ops) = pops ops :=
  List.count_cons_of_ne Operation.noConfusion

/-- A pop is counted as an exit. -/
@[simp] theorem pops_pop : pops (.pop :: ops) = pops ops + 1 :=
  List.count_cons_self

/-- The entrances of the first operation are counted with those of the others. -/
theorem pushes_cons (op : Operation) : pushes (op :: ops) = pushes [op] + pushes ops := by
  rw [← List.singleton_append, pushes, List.countP_append]
  rfl

/-- The exits of the first operation are counted with those of the others. -/
theorem pops_cons (op : Operation) : pops (op :: ops) = pops [op] + pops ops := by
  rw [← List.singleton_append, pops, List.count_append]
  rfl

end Counts

/-- Whether operations leave as many templates as they enter, and at no time more than they have
entered until then. -/
structure Nested (ops : List Operation) : Prop where
  balanced : pops ops = pushes ops
  above : ∀ front ∈ ops.inits, pops front ≤ pushes front

/-- Whether none of some operations fails. -/
def Allows : CallStack → List Operation → Prop
  | _, [] => True
  | s, op :: ops => (op.run s).1 = .ok () ∧ Allows (op.run s).2 ops

/-- An operation that does not fail enters or leaves a template above a stack, unless it leaves one
of the stack itself. -/
theorem Operation.exists_run_under {op : Operation} {extra : List Frame}
    (hop : (op.run (s.under extra)).1 = .ok ())
    (habove : pops [op] ≤ extra.length + pushes [op]) :
    ∃ more, (op.run (s.under extra)).2 = s.under more ∧
      more.length + pops [op] = extra.length + pushes [op] := by
  rcases op.run_cases (s.under extra) with ⟨name, rfl, -, hrun⟩ | ⟨name, rfl, -, hrun⟩ | ⟨rfl, hrun⟩
  · rw [hrun]
    exact ⟨⟨.component, name⟩ :: extra, rfl, by simp⟩
  · rw [hrun] at hop
    cases hop
  · cases extra with
    | nil => simp at habove
    | cons f extra =>
      rw [hrun]
      exact ⟨extra, rfl, by simp⟩

/-- Operations that leave only frames above a stack, or what they have entered themselves, change
nothing in the stack below. -/
theorem exists_after_under {extra : List Frame} (hallows : (s.under extra).Allows ops)
    (habove : ∀ front ∈ ops.inits, pops front ≤ extra.length + pushes front) :
    ∃ rest, (s.under extra).after ops = s.under rest ∧
      rest.length + pops ops = extra.length + pushes ops := by
  induction ops generalizing extra with
  | nil => exact ⟨extra, rfl, rfl⟩
  | cons op ops ih =>
    obtain ⟨hop, hops⟩ := hallows
    have hfront : ∀ front ∈ ops.inits,
        pops [op] + pops front ≤ extra.length + (pushes [op] + pushes front) := by
      intro front hfront
      rw [← pops_cons, ← pushes_cons]
      apply habove
      rw [List.mem_inits] at hfront ⊢
      exact List.cons_prefix_cons.mpr ⟨rfl, hfront⟩
    obtain ⟨more, hrun, hmore⟩ := Operation.exists_run_under hop
      (by simpa using hfront [] ((List.mem_inits _ _).mpr List.nil_prefix))
    rw [hrun] at hops
    have hrest : ∀ front ∈ ops.inits, pops front ≤ more.length + pushes front := by
      intro front hmem
      have := hfront front hmem
      omega
    obtain ⟨rest, hafter, hlength⟩ := ih hops hrest
    rw [after_cons, hrun, pops_cons, pushes_cons]
    exact ⟨rest, hafter, by omega⟩

/-- Operations that leave what they have entered restore the stack, when none of them fails. -/
theorem after_nested (hnested : Nested ops) (hallows : s.Allows ops) : s.after ops = s := by
  have hunder : (s.under []).Allows ops := hallows
  have habove : ∀ front ∈ ops.inits, pops front ≤ ([] : List Frame).length + pushes front := by
    simpa using hnested.above
  obtain ⟨rest, hafter, hlength⟩ := exists_after_under hunder habove
  have hrest : rest = [] := by
    apply List.eq_nil_of_length_eq_zero
    have := hnested.balanced
    rw [List.length_nil] at hlength
    omega
  rw [hrest] at hafter
  exact hafter

/-! ## The stacks of renders -/

section Start

variable {kind : FrameKind} {name : String} {limit : Nat} {stack : CallStack}

/-- **The call stack of a render**, whatever was entered and left since it began. It is a row of
frames that begins with the first one, and is never empty. A component is refused exactly when as
many are nested as the limit allows, and that leaves the stack as it is. No more components are
nested than the limit allows, or than the first frame is. And operations that leave what they have
entered restore the stack, when none of them fails. -/
theorem after_start {history : List Operation}
    (h : (start kind name limit).after history = stack) :
    stack.frames = history.foldl (fun fs op => op.onFrames limit fs) [⟨kind, name⟩] ∧
    (∃ above, stack.frames = ⟨kind, name⟩ :: above) ∧
    (∀ c, (∃ f, ((Operation.push c).run stack).1 = .error f) ↔ limit ≤ stack.depth) ∧
    (∀ c f, ((Operation.push c).run stack).1 = .error f →
      ((Operation.push c).run stack).2 = stack ∧ f = .recursionLimit c limit) ∧
    stack.depth ≤ max limit (start kind name limit).depth ∧
    ∀ ops, Nested ops → stack.Allows ops → stack.after ops = stack := by
  obtain ⟨hfirst, hlimit⟩ := after_keeps (start kind name limit) history
  have hframes := frames_after (start kind name limit) history
  have hdepth := depth_after_le (start kind name limit) history
  rw [h] at hfirst hlimit hframes hdepth
  refine ⟨hframes, ⟨stack.above.reverse, ?_⟩, ?_, ?_, hdepth, ?_⟩
  · rw [frames, hfirst]
    rfl
  · intro c
    rw [Operation.exists_error_push_iff, hlimit]
    rfl
  · intro c f hf
    have hle := Operation.exists_error_push_iff.mp ⟨f, hf⟩
    rw [Operation.run_push_of_le hle, hlimit] at hf ⊢
    exact ⟨rfl, (Except.error.inj hf).symm⟩
  · intro ops hnested hallows
    exact after_nested hnested hallows

end Start

/-- A render that began with a component, which counts: an icon in an icon is refused, and two more
components behind each other restore the stack. -/
theorem after_start_component :
    let history : List Operation :=
      [.pop, .push "components/item", .push "components/icon", .push "components/icon", .pop]
    let ops : List Operation := [.push "components/icon", .pop, .push "components/link", .pop]
    let stack : CallStack :=
      { first := ⟨.component, "components/list"⟩, above := [⟨.component, "components/item"⟩],
        limit := 3 }
    (start .component "components/list" 3).after history = stack ∧ Nested ops ∧ stack.Allows ops ∧
      stack.depth ≤ 3 ∧ stack.after ops = stack := by
  intro history ops stack
  have hstack : (start .component "components/list" 3).after history = stack := rfl
  have hnested : Nested ops := ⟨rfl, by decide⟩
  have hallows : stack.Allows ops := ⟨rfl, rfl, rfl, rfl, trivial⟩
  obtain ⟨-, -, -, -, hdepth, hrestore⟩ := after_start hstack
  exact ⟨hstack, hnested, hallows, hdepth, hrestore ops hnested hallows⟩

end HtmlViews.CallStack
