import HtmlViews.CallStack

/-!
# Entering and leaving components

A call stack is a row of frames under a limit. A component is entered by one more frame if there is
room for it, and left by taking that frame away; the frame of the page itself is no component and
does not count. Renders need to know no more of it than what is proved here of a single step: when a
component is entered, what the stack is like then, and that leaving comes back.

* **CallStack.push_eq_ok_iff**, **CallStack.push_eq_error_iff** — when a component can be entered.
* **CallStack.pop_of_push** — leaving a component undoes entering it.
* **CallStack.depth_of_push**, **CallStack.room_of_push** — a component takes one place.
* **CallStack.depth_le_of_push** — what was entered is within the limit.
-/

namespace HtmlViews.CallStack

variable {stack pushed : CallStack} {name : String}

/-- A component is entered when fewer are nested than the limit allows. -/
theorem push_eq_ok_iff :
    stack.push name = .ok pushed ↔
      stack.depth < stack.limit ∧
        pushed = { stack with above := ⟨.component, name⟩ :: stack.above } := by
  unfold push
  split
  · rename_i h
    simp [Nat.not_lt.mpr h]
  · rename_i h
    simp [Nat.lt_of_not_le h, eq_comm]

/-- A component that is refused is named, with the limit. -/
theorem push_eq_error_iff {f : Failure} :
    stack.push name = .error f ↔
      stack.limit ≤ stack.depth ∧ f = .recursionLimit name stack.limit := by
  unfold push
  split
  · rename_i h
    simp [h, eq_comm]
  · rename_i h
    simp [h]

/-- Leaving a component that was entered comes back to where it was entered from. -/
theorem pop_of_push (h : stack.push name = .ok pushed) : pushed.pop = stack := by
  obtain ⟨-, rfl⟩ := push_eq_ok_iff.mp h
  rfl

/-- Entering a component does not change the limit. -/
theorem limit_of_push (h : stack.push name = .ok pushed) : pushed.limit = stack.limit := by
  obtain ⟨-, rfl⟩ := push_eq_ok_iff.mp h
  rfl

/-- Entering a component makes the stack deeper by one. -/
theorem depth_of_push (h : stack.push name = .ok pushed) : pushed.depth = stack.depth + 1 := by
  obtain ⟨-, rfl⟩ := push_eq_ok_iff.mp h
  simp [depth, frames, List.countP_append, List.countP_cons]
  omega

/-- The room inside of a component is smaller by one. -/
theorem room_of_push (h : stack.push name = .ok pushed) : pushed.room + 1 = stack.room := by
  have hdepth := depth_of_push h
  have hlimit := limit_of_push h
  have hlt := (push_eq_ok_iff.mp h).1
  rw [room, room, hdepth, hlimit]
  omega

/-- What was entered is not above the limit. -/
theorem depth_le_of_push (h : stack.push name = .ok pushed) : pushed.depth ≤ stack.limit := by
  rw [depth_of_push h]
  exact (push_eq_ok_iff.mp h).1

end HtmlViews.CallStack
