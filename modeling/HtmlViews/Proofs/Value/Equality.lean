import HtmlViews.Proofs.Condition.Comparison
import HtmlViews.Proofs.Dict
import HtmlViews.Proofs.Text.Parts
import HtmlViews.Proofs.Value.Order

/-!
# Equality of kind and content against equality across kinds

Values that are equal in kind and content are equal across kinds, if they are no collections.
Collections are equal across kinds if they have the same text, and a text tells even the two zeros
apart, which have the same content.

Equality across kinds compares collections by their texts. That collections with the same content
have the same text only if they are the same needs the converse of printing: from two equal texts,
and equal content, the two values are found to be equal. The content says that both have the same
shape, so the texts are compared part by part, and the only parts in which values with the same
content can differ are zeros, whose texts differ. For this, texts have to be compared with whatever
stands behind them, which is what **Telling** is about; it is kept by lists, by fields and by
brackets around them.

Scalars are compared as numbers if both stand for one, and then equal content is equality, with one
exception: a string that is read as what is no number is not even equal to itself.

* **Telling** — that the texts of two things tell them apart, whatever stands behind them.
* **Value.telling_render** — the texts of two values with the same content do.
* **Value.SpellsNan** — the strings that are read as no number.
* **Condition.equal_of_identical** — what equality of kind and content says of equality across
  kinds.
-/

namespace HtmlViews

/-! ## Texts that tell values apart -/

/-- Whether equal texts of `x` and `y`, with anything behind them, can only be equal texts of the
same thing with the same behind it. -/
def Telling {α : Type} (f : α → Text) (x y : α) : Prop :=
  ∀ r s, f x ++ r = f y ++ s → x = y ∧ r = s

section Lists

variable {α : Type} {f : α → Text}

/-- Texts of the same thing tell what stands behind them. -/
theorem Telling.of_eq {x y : α} (h : x = y) : Telling f x y := by
  subst h
  exact fun r s hs => ⟨rfl, List.append_cancel_left hs⟩

/-- What stands around the texts does not matter. -/
theorem Telling.congr {β : Type} {g : β → Text} {x y : α} {u v : β} (h : Telling f x y)
    (front back : Text) (hx : g u = front ++ (f x ++ back)) (hy : g v = front ++ (f y ++ back))
    (huv : x = y → u = v) : Telling g u v := by
  intro r s hrs
  rw [hx, hy] at hrs
  simp only [List.append_assoc] at hrs
  obtain ⟨hxy, hback⟩ := h _ _ (List.append_cancel_left hrs)
  exact ⟨huv hxy, List.append_cancel_left hback⟩

/-- Joined texts tell two lists of the same length apart, if the texts of their members do. -/
theorem telling_joinWith {R : α → α → Prop} {xs ys : List α} (h : xs.Forall₂ R ys)
    (hf : ∀ x ∈ xs, ∀ y, R x y → Telling f x y) (sep : Text) :
    Telling (fun xs => Text.joinWith sep (xs.map f)) xs ys := by
  induction h with
  | nil => exact Telling.of_eq rfl
  | @cons x y xs ys hxy hrest ih =>
    obtain ⟨hx, hxs⟩ := List.forall_mem_cons.mp hf
    intro r s hrs
    cases hrest with
    | nil =>
      simp only [List.map_cons, List.map_nil, Text.joinWith_singleton] at hrs
      obtain ⟨hxy, hrest⟩ := hx y hxy r s hrs
      exact ⟨congrArg (· :: []) hxy, hrest⟩
    | @cons x' y' xs ys hxy' hrest =>
      simp only [List.map_cons, Text.joinWith_cons_cons, List.append_assoc] at hrs
      obtain ⟨hxy, hsep⟩ := hx y hxy _ _ hrs
      obtain ⟨htail, hrest⟩ := ih hxs r s (List.append_cancel_left hsep)
      exact ⟨List.cons_eq_cons.mpr ⟨hxy, htail⟩, hrest⟩

end Lists

/-- The two zeros are written differently. -/
theorem Finite.telling_zero (a b : Bool) : Telling Finite.text (.zero a) (.zero b) := by
  have hplus : (Finite.zero false).text = "0.0".toList := by decide
  have hminus : (Finite.zero true).text = "-0.0".toList := by decide
  have hhead : ∀ r s, (Finite.zero false).text ++ r ≠ (Finite.zero true).text ++ s := by
    intro r s h
    rw [hplus, hminus] at h
    exact absurd (List.cons_eq_cons.mp h).1 (by decide)
  cases a with
  | false =>
    cases b with
    | false => exact Telling.of_eq rfl
    | true => exact fun r s h => absurd h (hhead r s)
  | true =>
    cases b with
    | false => exact fun r s h => absurd h.symm (hhead s r)
    | true => exact Telling.of_eq rfl

/-- The texts of two numbers of the same kind and content tell them apart. -/
theorem Number.telling_text {m n : Number} (h : m.same n = true) : Telling Number.text m n := by
  cases m with
  | int i =>
    cases n with
    | int j => exact Telling.of_eq (congrArg _ (of_decide_eq_true h))
    | float y => cases h
  | float x =>
    cases n with
    | int j => cases h
    | float y =>
      have hcompare : Ord.compare x.scaled y.scaled = .eq :=
        Option.some.inj (of_decide_eq_true h)
      have htext : Telling Finite.text x y := by
        rcases Finite.eq_or_of_scaled (compare_eq_iff_eq.mp hcompare) with hxy | ⟨hx, hy⟩
        · exact Telling.of_eq hxy
        · rw [hx, hy]
          exact Finite.telling_zero _ _
      intro r s hrs
      obtain ⟨hxy, hrest⟩ := htext r s hrs
      exact ⟨congrArg _ hxy, hrest⟩

namespace Value

/-- Whether a value is a list or an object. -/
def IsCollection : Value → Prop
  | .array _ | .object _ => True
  | _ => False

/-- Collections are neither null nor truth values. -/
theorem IsCollection.isDefinite {x : Value} (h : x.IsCollection) : x.IsDefinite := by
  cases x with
  | null => exact h
  | bool b => exact h
  | _ => trivial

/-- Collections stand for no number. -/
theorem IsCollection.toBinary64?_eq_none {x : Value} (h : x.IsCollection) :
    x.toBinary64? = none := by
  cases x with
  | array xs => rfl
  | object fields => rfl
  | _ => exact absurd h id

/-- A text of values that writes numbers as they are tells scalars with the same content apart. -/
theorem telling_of_scalar {f : Value → Text} (hf : ∀ n, f (.number n) = n.text) {x y : Value}
    (hx : ¬ x.IsCollection) (h : x.same y = true) : Telling f x y := by
  cases x with
  | null =>
    cases y with
    | null => exact Telling.of_eq rfl
    | _ => cases h
  | bool b =>
    cases y with
    | bool c => exact Telling.of_eq (congrArg _ (of_decide_eq_true h))
    | _ => cases h
  | number m =>
    cases y with
    | number n =>
      intro r s hrs
      rw [hf, hf] at hrs
      obtain ⟨hmn, hrest⟩ := Number.telling_text (m := m) (n := n) h r s hrs
      exact ⟨congrArg _ hmn, hrest⟩
    | _ => cases h
  | str s =>
    cases y with
    | str t => exact Telling.of_eq (congrArg _ (of_decide_eq_true h))
    | _ => cases h
  | array xs => exact absurd trivial hx
  | object fields => exact absurd trivial hx

/-- The compact texts of items. -/
theorem compactItems_eq_map (xs : List Value) : compactItems xs = xs.map compact := by
  induction xs with
  | nil => rfl
  | cons x xs ih => rw [compactItems, ih, List.map_cons]

/-- The texts of items as they are shown. -/
theorem renderItems_eq_map (xs : List Value) : renderItems xs = xs.map render := by
  induction xs with
  | nil => rfl
  | cons x xs ih => rw [renderItems, ih, List.map_cons]

/-- A field of an object as JSON. -/
def compactField (e : String × Value) : Text :=
  jsonString e.1 ++ ':' :: compact e.2

/-- The compact texts of fields. -/
theorem compactFields_eq_map {before : Option String} (es : Dict.Row Value before) :
    compactFields es = es.entries.map compactField := by
  induction es with
  | nil => rfl
  | cons k x _ es ih => rw [compactFields, ih, Dict.Row.entries, List.map_cons, compactField]

/-- Lists with the same content have items with the same content in the same places. -/
theorem forall₂_of_sameItems {xs ys : List Value} (h : sameItems xs ys = true) :
    xs.Forall₂ (fun x y => x.same y = true) ys := by
  induction xs generalizing ys with
  | nil =>
    cases ys with
    | nil => exact .nil
    | cons y ys => cases h
  | cons x xs ih =>
    cases ys with
    | nil => cases h
    | cons y ys =>
      obtain ⟨hxy, hrest⟩ := Bool.and_eq_true_iff.mp h
      exact .cons hxy (ih hrest)

/-- Objects with the same content have values with the same content under the same keys. -/
theorem forall₂_of_sameFields {before before' : Option String} {es : Dict.Row Value before}
    {fs : Dict.Row Value before'} (h : sameFields es fs = true) :
    es.entries.Forall₂ (fun e f => e.1 = f.1 ∧ e.2.same f.2 = true) fs.entries := by
  induction es generalizing before' with
  | nil =>
    cases fs with
    | nil => exact .nil
    | cons => cases h
  | cons _ _ _ es ih =>
    cases fs with
    | nil => cases h
    | cons _ _ _ fs =>
      obtain ⟨hef, hrest⟩ := Bool.and_eq_true_iff.mp h
      obtain ⟨hkey, hvalue⟩ := Bool.and_eq_true_iff.mp hef
      exact .cons ⟨of_decide_eq_true hkey, hvalue⟩ (ih hrest)

/-- The JSON texts of fields with one key tell them apart, if those of the values do. -/
theorem telling_compactField {e f : String × Value} (hkey : e.1 = f.1)
    (h : Telling compact e.2 f.2) : Telling compactField e f := by
  refine h.congr (jsonString e.1 ++ [':']) [] ?_ ?_ (Prod.ext hkey)
  · simp only [compactField, List.append_nil, List.append_assoc, List.singleton_append]
  · simp only [compactField, hkey, List.append_nil, List.append_assoc, List.singleton_append]

/-- A text of values that joins the texts of items between brackets tells lists with the same
content apart, if it does so with their items. -/
theorem telling_of_sameItems {f : Value → Text} (sep : Text)
    (hf : ∀ items, f (.array items) = ['['] ++ (Text.joinWith sep (items.map f) ++ [']']))
    {xs ys : List Value} (h : sameItems xs ys = true)
    (ih : ∀ x ∈ xs, ∀ y, x.same y = true → Telling f x y) : Telling f (.array xs) (.array ys) :=
  (telling_joinWith (forall₂_of_sameItems h) ih sep).congr ['['] [']'] (hf xs) (hf ys) (congrArg _)

/-- The JSON texts of two values with the same content tell them apart. -/
theorem telling_compact {x y : Value} (h : x.same y = true) : Telling compact x y := by
  induction x using Value.induction generalizing y with
  | array xs ih =>
    cases y with
    | array ys =>
      refine telling_of_sameItems [','] (fun items => ?_) h fun x hx y => ih x hx
      rw [compact, compactItems_eq_map]
      rfl
    | _ => cases h
  | object fields ih =>
    cases y with
    | object fields' =>
      have hfields := telling_joinWith (forall₂_of_sameFields h)
        (fun e he f hef => telling_compactField hef.1 (ih e he hef.2)) [',']
      refine hfields.congr ['\x7b'] ['\x7d'] ?_ ?_ fun hes => ?_
      · rw [compact, compactFields_eq_map]
        rfl
      · rw [compact, compactFields_eq_map]
        rfl
      · exact congrArg _ (Dict.entries_inj.mp hes)
    | _ => cases h
  | _ => exact telling_of_scalar (fun _ => rfl) id h

/-- The texts that two values with the same content leave in a page tell them apart. -/
theorem telling_render {x y : Value} (h : x.same y = true) : Telling render x y := by
  induction x using Value.induction generalizing y with
  | array xs ih =>
    cases y with
    | array ys =>
      refine telling_of_sameItems [',', ' '] (fun items => ?_) h fun x hx y => ih x hx
      rw [render, renderItems_eq_map]
      rfl
    | _ => cases h
  | object fields ih =>
    cases y with
    | object fields' => exact telling_compact h
    | _ => cases h
  | _ => exact telling_of_scalar (fun _ => rfl) id h

/-- Two values with the same content leave the same text only if they are the same. -/
theorem render_eq_iff {x y : Value} (h : x.same y = true) : x.render = y.render ↔ x = y := by
  refine ⟨fun hrender => ?_, congrArg render⟩
  exact (telling_render h [] [] (congrArg (· ++ []) hrender)).1

/-! ## Equality across kinds -/

/-- Whether a value is a string that is read as no number: the word for that in any case of letters,
with a sign before it or none, and with any blanks around it. -/
def SpellsNan : Value → Prop
  | .str s => (Text.trim s.toList).sign.2.lowered = "nan".toList
  | _ => False

/-- The texts that are read as no number. -/
theorem read?_eq_nan_iff {s : Text} :
    Binary64.read? s = some .nan ↔ s.sign.2.lowered = "nan".toList := by
  have hdecimal : ∀ negative t, Binary64.readDecimal? negative t ≠ some .nan := by
    intro negative t h
    rw [Binary64.readDecimal?] at h
    dsimp only at h
    split at h
    case isTrue => cases h
    case isFalse =>
      obtain ⟨power, -, hpower⟩ := Option.map_eq_some_iff.mp h
      exact Binary64.ofDecimal_ne_nan _ _ _ _ hpower
  unfold Binary64.read?
  dsimp only
  split
  case isTrue hinfinite =>
    refine iff_of_false (fun h => by cases h) fun hnan => ?_
    rw [hnan] at hinfinite
    exact absurd hinfinite (by decide)
  case isFalse =>
    split
    case isTrue hnan => exact iff_of_true rfl hnan
    case isFalse hnan => exact iff_of_false (hdecimal _ _) hnan

/-- Other values do not stand for what is no number. -/
theorem toBinary64?_eq_nan_iff {x : Value} : x.toBinary64? = some .nan ↔ x.SpellsNan := by
  cases x with
  | null => exact iff_of_false (fun h => by cases h) id
  | bool b => exact iff_of_false (fun h => Binary64.ofInt_ne_nan _ (Option.some.inj h)) id
  | number n => exact iff_of_false (fun h => n.toBinary64_ne_nan (Option.some.inj h)) id
  | str s => exact read?_eq_nan_iff
  | array xs => exact iff_of_false (fun h => by cases h) id
  | object fields => exact iff_of_false (fun h => by cases h) id

/-- A string is equal to itself across kinds, if it does not spell what is no number. -/
theorem agreeing_self {x : Value} (h : ¬ x.SpellsNan) : x.agreeing x = true := by
  rcases numbers_or_none x x with ⟨m, n, hm, hn⟩ | hnone
  · obtain rfl := Option.some.inj (hm.symm.trans hn)
    rw [agreeing_of_some hm hm]
    exact Binary64.same_self fun hnan => h (toBinary64?_eq_nan_iff.mp (hnan ▸ hm))
  · rw [agreeing_of_none hnone]
    exact decide_eq_true rfl

/-- Collections with the same content are equal across kinds only if they are the same. -/
theorem looselyEqual_iff_of_isCollection {x y : Value} (hx : x.IsCollection) (hy : y.IsCollection)
    (h : x.same y = true) : x.looselyEqual y = true ↔ (x.IsCollection → x = y) := by
  rw [looselyEqual_of_isDefinite hx.isDefinite hy.isDefinite,
    agreeing_of_none (.inl hx.toBinary64?_eq_none), decide_eq_true_iff, render_eq_iff h]
  exact ⟨fun heq _ => heq, fun heq => heq hx⟩

/-- Values that are equal in kind and content are equal across kinds, collections only if they are
the same. -/
theorem looselyEqual_iff_of_identical {x y : Value} (hx : ¬ x.SpellsNan)
    (h : x.identical y = true) : x.looselyEqual y = true ↔ (x.IsCollection → x = y) := by
  cases x with
  | null =>
    cases y with
    | null => exact iff_of_true rfl fun hcollection => absurd hcollection id
    | _ => cases h
  | bool b =>
    cases y with
    | bool c =>
      obtain rfl : b = c := of_decide_eq_true h
      exact iff_of_true (beq_self_eq_true b) fun hcollection => absurd hcollection id
    | _ => cases h
  | number m =>
    cases y with
    | number n => exact iff_of_true h fun hcollection => absurd hcollection id
    | _ => cases h
  | str s =>
    cases y with
    | str t =>
      obtain rfl : s = t := of_decide_eq_true h
      refine iff_of_true ?_ fun hcollection => absurd hcollection id
      rw [looselyEqual_of_isDefinite (x := .str s) (y := .str s) trivial trivial]
      exact agreeing_self hx
    | _ => cases h
  | array xs =>
    cases y with
    | array ys => exact looselyEqual_iff_of_isCollection trivial trivial h
    | _ => cases h
  | object fields =>
    cases y with
    | object fields' => exact looselyEqual_iff_of_isCollection trivial trivial h
    | _ => cases h

end Value

/-! ## Conditions -/

namespace Condition

/-- **Equality of kind and content gives equality across kinds, and each value is equal to itself**,
strings apart that spell what is no number; lists and objects have to be the same, down to the signs
of the zeros in them. -/
theorem equal_of_identical (x y : Value) (hx : ¬ x.SpellsNan) :
    (outcome .identical x y = .ok true →
        (outcome .equal x y = .ok true ↔ (x.IsCollection → x = y))) ∧
      outcome .equal x x = .ok true := by
  have hself : x.identical x = true := x.identical_self
  have hidentical : ∀ y, outcome .identical x y = .ok (x.identical y) :=
    outcome_eq_apply (by decide) x
  have hequal : ∀ y, outcome .equal x y = .ok (x.looselyEqual y) :=
    outcome_eq_apply (by decide) x
  constructor
  · intro h
    rw [hidentical] at h
    rw [hequal, Except.ok.injEq]
    exact Value.looselyEqual_iff_of_identical hx (Except.ok.inj h)
  · rw [hequal, (Value.looselyEqual_iff_of_identical hx hself).mpr fun _ => rfl]

/-- A list with a zero and a string that spells what is no number: it is equal to itself, and equal
in kind and content to the list with the other zero, but not across kinds. -/
theorem equal_of_identical_zeros :
    let list (negative : Bool) : Value := .array [.str "nan", .number (.float (.zero negative))]
    ¬ (list false).SpellsNan ∧ outcome .identical (list false) (list true) = .ok true ∧
      outcome .equal (list false) (list true) ≠ .ok true ∧
      outcome .equal (list false) (list false) = .ok true := by
  intro list
  have hspells : ¬ (list false).SpellsNan := id
  have hne : list false ≠ list true := by
    intro h
    cases h
  have hidentical : outcome .identical (list false) (list true) = .ok true := by
    have hsame : (list false).identical (list true) = true := by decide
    rw [outcome_eq_apply (by decide), Operator.apply, hsame]
  have hequal := equal_of_identical (list false) (list true) hspells
  exact ⟨hspells, hidentical, fun h => hne ((hequal.1 hidentical).mp h trivial), hequal.2⟩

/-- Lists that are equal in kind and content need not be equal across kinds, and a string need not
be equal to itself. -/
theorem not_forall_equal_of_identical :
    (¬ ∀ x y, outcome .identical x y = .ok true → outcome .equal x y = .ok true) ∧
      ¬ ∀ x, outcome .equal x x = .ok true := by
  let list (negative : Bool) : Value := .array [.number (.float (.zero negative))]
  have hsame : (list false).identical (list true) = true := by decide
  have htexts : (list false).looselyEqual (list true) = false := by decide
  have hnan : (Value.str "nan").looselyEqual (.str "nan") = false := by decide
  constructor
  · intro h
    have hidentical : outcome .identical (list false) (list true) = .ok true := by
      rw [outcome_eq_apply (by decide), Operator.apply, hsame]
    have hequal := h _ _ hidentical
    rw [outcome_eq_apply (by decide), Operator.apply, htexts] at hequal
    cases hequal
  · intro h
    have hequal := h (.str "nan")
    rw [outcome_eq_apply (by decide), Operator.apply, hnan] at hequal
    cases hequal

end Condition

end HtmlViews
