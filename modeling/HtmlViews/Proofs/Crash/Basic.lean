/-!
# Computations that may crash

A program that computes with places in a text can do what has no result: cut a text where it has no
end, subtract below zero, take a value that is missing, or get to a branch that is none. Here such a
computation says so. It is safe if it does what another computation does that cannot crash at all.

That a stage cannot crash is proved by an equation: the computation that may crash, written with all
the places and differences that the program computes, is a computation without crashes, lifted
(**Crashing.safely**). Such equations are put together step by step like any others. Where it
matters for the next step where a result comes from, for instance because a recursion ends by it,
the result is used with its proof (**Crashing.known**).

A crash is not a failure. Failures are results that the program deals with, and the equations say
also that they are the same.

* **Crash** — why a computation has no result.
* **Checked** — a result, or a crash.
* **Crashing** — the same with effects.
* **Crashing.safely** — a computation that cannot crash, among those that may.
* **Crashing.known** — a result with the knowledge of where it comes from.
* **Crashing.safely_bind** — safe steps make safe computations.
-/

namespace HtmlViews

/-- Why a computation has no result. -/
inductive Crash where
  /-- A part of a text that begins behind its end, or ends behind the text. -/
  | outOfRange
  /-- A part of a text that begins or ends inside a character. -/
  | insideCharacter
  /-- A difference that is less than zero. -/
  | belowZero
  /-- A value that is taken and is not there. -/
  | missing
  /-- A branch that no input is meant to reach. -/
  | unreachable
deriving DecidableEq, Repr

/-- A result, or why there is none. -/
abbrev Checked := Except Crash

namespace Checked

/-- The difference of two numbers that are not less than zero. -/
def minus (a b : Nat) : Checked Nat :=
  if b ≤ a then .ok (a - b) else .error .belowZero

/-- A value that has to be there. -/
def unwrap {α : Type} : Option α → Checked α
  | some a => .ok a
  | none => .error .missing

/-- A difference that is not below zero is computed. -/
theorem minus_of_le {a b : Nat} (h : b ≤ a) : minus a b = .ok (a - b) :=
  if_pos h

end Checked

/-- A computation with effects that may crash. A crash ends it, and what was done before it stays
done. -/
abbrev Crashing (m : Type → Type) := ExceptT Crash m

namespace Crashing

variable {m : Type → Type} [Monad m] {α β : Type}

/-- A result that is used in a computation with effects. -/
def check (x : Checked α) : Crashing m α :=
  ExceptT.mk (pure x)

/-- A result, with the knowledge of where it comes from. -/
def known : (x : Checked α) → Crashing m { a // x = .ok a }
  | .ok a => pure ⟨a, rfl⟩
  | .error c => throw c

/-- A computation that cannot crash. -/
def safely (x : m α) : Crashing m α :=
  ExceptT.lift x

/-- The result of a computation, when it does not crash. A result that is a failure is one of the
computation, not a crash. -/
theorem run_safely (x : m α) : ExceptT.run (safely x) = Except.ok <$> x :=
  rfl

/-- A checked value that is there is that value. -/
@[simp] theorem check_ok (a : α) : (check (.ok a) : Crashing m α) = pure a :=
  rfl

/-- It is known to be the one that was checked. -/
theorem known_of_ok {x : Checked α} {a : α} (h : x = .ok a) :
    (known x : Crashing m { a // x = .ok a }) = pure ⟨a, h⟩ := by
  subst h
  rfl

variable [LawfulMonad m]

/-- A value alone is computed without a crash. -/
@[simp] theorem safely_pure (a : α) : safely (pure a : m α) = pure a :=
  map_pure _ _

/-- Computations in a row are computed without a crash if each of them is. -/
@[simp] theorem safely_bind (x : m α) (f : α → m β) :
    safely (x >>= f) = safely x >>= fun a => safely (f a) := by
  apply ExceptT.ext
  rw [ExceptT.run_bind, run_safely, run_safely, bind_map_left, map_bind]
  rfl

/-- A result may be mapped before or after. -/
@[simp] theorem safely_map (f : α → β) (x : m α) : safely (f <$> x) = f <$> safely x := by
  rw [map_eq_pure_bind, map_eq_pure_bind, safely_bind]
  refine bind_congr fun a => ?_
  exact safely_pure (f a)

end Crashing

end HtmlViews
