import HtmlViews.Proofs.Numeric.Order
import HtmlViews.Value.Compare

/-!
# Equality of values

Both equalities of values do not depend on which value stands on which side, and equality of kind
and content holds between a value and itself.

Values are made of lists and objects of values, so the proofs are inductions on values, with one
hypothesis for all items of a list and one for all values of an object (**Value.induction**).
Objects are compared field by field; since their keys ascend, equal objects have their fields in the
same places. Equality across kinds looks at null and truth values first, and what it does with the
other values is symmetric in itself.

* **Value.induction** — a property of values that goes from items and fields to collections.
* **Value.same_comm**, **Value.same_self** — sameness of content.
* **Value.identical_comm**, **Value.identical_self** — equality of kind and content.
* **Value.agreeing** — equality across kinds, where neither side is null or a truth value.
* **Value.looselyEqual_comm** — equality across kinds.
-/

namespace HtmlViews

namespace Number

/-- The numbers of values have a place in the order. -/
theorem toBinary64_ne_nan (n : Number) : n.toBinary64 ≠ .nan := by
  cases n with
  | int i => exact Binary64.ofInt_ne_nan i
  | float x => exact Binary64.noConfusion

/-- Sameness of numbers does not depend on the sides. -/
theorem same_comm (m n : Number) : m.same n = n.same m := by
  cases m with
  | int i =>
    cases n with
    | int j => exact decide_eq_decide.mpr eq_comm
    | float y => rfl
  | float x =>
    cases n with
    | int j => rfl
    | float y => exact Binary64.same_comm _ _

/-- Every number is the same as itself. -/
theorem same_self (n : Number) : n.same n = true := by
  cases n with
  | int i => exact decide_eq_true rfl
  | float x => exact Binary64.same_self Binary64.noConfusion

end Number

namespace Value

/-- What holds of all scalars, and of a collection when it holds of what is in it, holds of all
values. -/
@[elab_as_elim]
theorem induction {motive : Value → Prop} (null : motive .null) (bool : ∀ b, motive (.bool b))
    (number : ∀ n, motive (.number n)) (str : ∀ s, motive (.str s))
    (array : ∀ items, (∀ x ∈ items, motive x) → motive (.array items))
    (object : ∀ fields, (∀ e ∈ fields.entries, motive e.2) → motive (.object fields))
    (v : Value) : motive v := by
  refine @Value.rec motive (fun items => ∀ x ∈ items, motive x)
    (fun fields => ∀ e ∈ fields.entries, motive e.2) (fun _ row => ∀ e ∈ row.entries, motive e.2)
    null bool number str array object ?_ ?_ ?_ ?_ ?_ v
  · exact fun x hx => absurd hx List.not_mem_nil
  · exact fun x items hx hitems => List.forall_mem_cons.mpr ⟨hx, hitems⟩
  · exact fun row hrow => hrow
  · exact fun e he => absurd he List.not_mem_nil
  · exact fun k x _ rest hx hrest => List.forall_mem_cons.mpr ⟨hx, hrest⟩

/-! ## Sameness -/

/-- Sameness of lists does not depend on the sides, if that of their items does not. -/
theorem sameItems_comm {xs : List Value} (h : ∀ x ∈ xs, ∀ y, same x y = same y x)
    (ys : List Value) : sameItems xs ys = sameItems ys xs := by
  induction xs generalizing ys with
  | nil => cases ys <;> rfl
  | cons x xs ih =>
    obtain ⟨hx, hxs⟩ := List.forall_mem_cons.mp h
    cases ys with
    | nil => rfl
    | cons y ys => rw [sameItems, sameItems, hx y, ih hxs ys]

/-- Sameness of rows of fields does not depend on the sides, if that of their values does not. -/
theorem sameFields_comm {before before' : Option String} {es : Dict.Row Value before}
    (h : ∀ e ∈ es.entries, ∀ y, same e.2 y = same y e.2) (fs : Dict.Row Value before') :
    sameFields es fs = sameFields fs es := by
  induction es generalizing before' with
  | nil => cases fs <;> rfl
  | cons k x _ es ih =>
    obtain ⟨hx, hes⟩ := List.forall_mem_cons.mp h
    cases fs with
    | nil => rfl
    | cons j y _ fs =>
      have hkey : decide (k = j) = decide (j = k) := decide_eq_decide.mpr eq_comm
      rw [sameFields, sameFields, hkey, hx y, ih hes fs]

/-- A row of fields has the same content as itself, if its values have. -/
theorem sameFields_self {before : Option String} {es : Dict.Row Value before}
    (h : ∀ e ∈ es.entries, same e.2 e.2 = true) : sameFields es es = true := by
  induction es with
  | nil => rfl
  | cons k x _ es ih =>
    obtain ⟨hx, hes⟩ := List.forall_mem_cons.mp h
    rw [sameFields, hx, ih hes, decide_eq_true rfl, Bool.and_self, Bool.and_self]

/-- Sameness does not depend on the sides. -/
theorem same_comm (x y : Value) : x.same y = y.same x := by
  induction x using Value.induction generalizing y with
  | null => cases y <;> rfl
  | bool b =>
    cases y with
    | bool c => exact decide_eq_decide.mpr eq_comm
    | _ => rfl
  | number m =>
    cases y with
    | number n => exact Number.same_comm m n
    | _ => rfl
  | str s =>
    cases y with
    | str t => exact decide_eq_decide.mpr eq_comm
    | _ => rfl
  | array xs ih =>
    cases y with
    | array ys => exact sameItems_comm ih ys
    | _ => rfl
  | object es ih =>
    cases y with
    | object fs => exact sameFields_comm ih fs.row
    | _ => rfl

/-- A value is the same as itself. -/
theorem same_self (x : Value) : x.same x = true := by
  induction x using Value.induction with
  | null => rfl
  | bool b => exact decide_eq_true rfl
  | number n => exact n.same_self
  | str s => exact decide_eq_true rfl
  | array xs ih =>
    show sameItems xs xs = true
    induction xs with
    | nil => rfl
    | cons x xs ihxs =>
      obtain ⟨hx, hxs⟩ := List.forall_mem_cons.mp ih
      rw [sameItems, hx, ihxs hxs, Bool.and_self]
  | object fields ih => exact sameFields_self ih

/-- Equality of kind and content does not depend on the sides. -/
theorem identical_comm (x y : Value) : x.identical y = y.identical x := by
  cases x with
  | number m =>
    cases y with
    | number n => exact Binary64.same_comm _ _
    | _ => rfl
  | _ =>
    cases y with
    | number n => rfl
    | _ => exact same_comm _ _

/-- Every value is equal to itself in kind and content. -/
theorem identical_self (x : Value) : x.identical x = true := by
  cases x with
  | number n => exact Binary64.same_self n.toBinary64_ne_nan
  | _ => exact same_self _

/-! ## Equality across kinds -/

/-- Whether a value is neither null nor a truth value. -/
def IsDefinite : Value → Prop
  | .null | .bool _ => False
  | _ => True

/-- Equality of the numbers that two values stand for, or else of their texts. -/
def agreeing (x y : Value) : Bool :=
  match x.toBinary64?, y.toBinary64? with
  | some m, some n => m.same n
  | _, _ => x.render = y.render

/-- To agree does not depend on the sides. -/
theorem agreeing_comm (x y : Value) : x.agreeing y = y.agreeing x := by
  unfold agreeing
  cases x.toBinary64? with
  | none => cases y.toBinary64? <;> exact decide_eq_decide.mpr eq_comm
  | some m =>
    cases y.toBinary64? with
    | none => exact decide_eq_decide.mpr eq_comm
    | some n => exact Binary64.same_comm m n

/-- Definite values are equal across kinds if they agree. -/
theorem looselyEqual_of_isDefinite {x y : Value} (hx : x.IsDefinite) (hy : y.IsDefinite) :
    x.looselyEqual y = x.agreeing y := by
  cases x with
  | null => exact absurd hx id
  | bool b => exact absurd hx id
  | _ =>
    cases y with
    | null => exact absurd hy id
    | bool b => exact absurd hy id
    | _ => rfl

/-- Equality of definite values across kinds does not depend on the sides. -/
theorem looselyEqual_comm_of_isDefinite {x y : Value} (hx : x.IsDefinite) (hy : y.IsDefinite) :
    x.looselyEqual y = y.looselyEqual x := by
  rw [looselyEqual_of_isDefinite hx hy, looselyEqual_of_isDefinite hy hx, agreeing_comm]

/-- Equality across kinds does not depend on the sides. -/
theorem looselyEqual_comm (x y : Value) : x.looselyEqual y = y.looselyEqual x := by
  cases x with
  | null =>
    cases y with
    | bool c => exact Bool.beq_comm
    | _ => rfl
  | bool b => cases y <;> exact Bool.beq_comm
  | _ =>
    cases y with
    | null => rfl
    | bool c => exact Bool.beq_comm
    | _ => exact looselyEqual_comm_of_isDefinite trivial trivial

end Value

end HtmlViews
