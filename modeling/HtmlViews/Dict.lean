/-!
# Dictionaries

A dictionary keeps its entries in ascending order of their keys, by code point, so that listing it
is deterministic, and no key stands in it twice.

Both belong to the type: a dictionary is a row of entries in which each key is greater than the one
before it, and a row that is not in order cannot be written down. So nothing that is said about
dictionaries has to assume it, and whatever changes a dictionary shows where it puts the new row
together that the keys still ascend. The order is a matter of two neighbouring keys and not of the
values; a row can therefore hold values that are made of dictionaries themselves.

* **Dict.Row** — entries whose keys ascend; **Dict.Follows** — the order of two neighbours.
* **Dict** — entries under text keys.
* **Dict.find?** — the value under a key.
* **Dict.insert**, **Dict.erase** — a key set, or removed.
* **Dict.filter** — the entries that pass a test.
* **Dict.merge** — the entries of one dictionary put over those of another.

The laws of look-up (`find?_insert`, `find?_filter`, `find?_erase`) say what each change does to the
value under any key.
-/

namespace HtmlViews

namespace Dict

/-- Whether a key may stand behind the key `before`: it has to be greater, if there is one. -/
def Follows (before : Option String) (key : String) : Prop :=
  ∀ k ∈ before, k < key

/-- A row of entries behind the key `before`, if there is one; their keys ascend. -/
inductive Row (α : Type) : (before : Option String) → Type where
  /-- No entry. -/
  | nil {before : Option String} : Row α before
  /-- An entry in front of those with greater keys. -/
  | cons {before : Option String} (key : String) (value : α) (follows : Follows before key)
    (rest : Row α (some key)) : Row α before
deriving Repr

end Dict

/-- Values under text keys. -/
structure Dict (α : Type) where
  /-- The keys with their values, ascending. -/
  row : Dict.Row α none
deriving Repr

namespace Dict

variable {α β : Type}

/-! ## The order of keys -/

/-- Every key may stand in front. -/
theorem follows_none (key : String) : Follows none key :=
  nofun

/-- A key may stand behind another one exactly if it is greater. -/
theorem follows_some {k k' : String} : Follows (some k) k' ↔ k < k' :=
  ⟨fun h => h k rfl, by rintro h _ ⟨⟩; exact h⟩

/-- What stands behind a key stands behind all that is before it. -/
theorem Follows.trans {before : Option String} {k k' : String} (h : Follows before k)
    (h' : Follows (some k) k') : Follows before k' :=
  fun j hj => String.lt_trans (h j hj) (follows_some.mp h')

/-- Of two different keys one follows the other. -/
theorem follows_of_not_lt {k k' : String} (hne : k' ≠ k) (h : ¬ k < k') : Follows (some k') k := by
  rw [follows_some]
  by_cases hlt : k' < k
  · exact hlt
  · exact absurd (String.le_antisymm (String.not_lt.mp h) (String.not_lt.mp hlt)) hne

/-! ## Rows -/

namespace Row

/-- The keys with their values. -/
def entries {before : Option String} : Row α before → List (String × α)
  | .nil => []
  | .cons k v _ rest => (k, v) :: rest.entries

/-- The value under the key `k`. -/
def find? {before : Option String} (k : String) : Row α before → Option α
  | .nil => none
  | .cons k' v _ rest => if k' = k then some v else rest.find? k

/-- The row with `v` under `k`, in the place of the old value or before the first greater key. -/
def insert {before : Option String} (k : String) (v : α) (follows : Follows before k) :
    Row α before → Row α before
  | .nil => .cons k v follows .nil
  | .cons k' v' follows' rest =>
    if heq : k' = k then .cons k' v follows' rest
    else if hlt : k < k' then .cons k v follows (.cons k' v' (follows_some.mpr hlt) rest)
    else .cons k' v' follows' (rest.insert k v (follows_of_not_lt heq hlt))

/-- The same row behind another key, which lets as many keys follow. -/
def widen {before before' : Option String} (h : ∀ k, Follows before k → Follows before' k) :
    Row α before → Row α before'
  | .nil => .nil
  | .cons k v follows rest => .cons k v (h k follows) rest

/-- The entries that satisfy `p`. -/
def filter {before : Option String} (p : String → α → Bool) : Row α before → Row α before
  | .nil => .nil
  | .cons k v follows rest =>
    if p k v then .cons k v follows (rest.filter p)
    else (rest.filter p).widen fun _ => follows.trans

/-- The same keys with other values. -/
def map {before : Option String} (f : α → β) : Row α before → Row β before
  | .nil => .nil
  | .cons k v follows rest => .cons k (f v) follows (rest.map f)

end Row

/-! ## Dictionaries -/

/-- The dictionary without entries. -/
def empty : Dict α :=
  ⟨.nil⟩

instance : Inhabited (Dict α) :=
  ⟨empty⟩

/-- The keys with their values, ascending. -/
def entries (d : Dict α) : List (String × α) :=
  d.row.entries

/-- The value under the key `k`. -/
def find? (d : Dict α) (k : String) : Option α :=
  d.row.find? k

/-- Whether there is a value under the key `k`. -/
def contains (d : Dict α) (k : String) : Bool :=
  (d.find? k).isSome

/-- Whether there is no entry at all. -/
def isEmpty (d : Dict α) : Bool :=
  d.entries.isEmpty

/-- The number of entries. -/
def size (d : Dict α) : Nat :=
  d.entries.length

/-- The keys, ascending. -/
def keys (d : Dict α) : List String :=
  d.entries.map Prod.fst

/-- The values, in the order of their keys. -/
def values (d : Dict α) : List α :=
  d.entries.map Prod.snd

/-- The dictionary with `v` under `k`. -/
def insert (d : Dict α) (k : String) (v : α) : Dict α :=
  ⟨d.row.insert k v (follows_none k)⟩

/-- The dictionary of the entries that satisfy `p`. -/
def filter (p : String → α → Bool) (d : Dict α) : Dict α :=
  ⟨d.row.filter p⟩

/-- The dictionary without the key `k`. -/
def erase (d : Dict α) (k : String) : Dict α :=
  d.filter fun k' _ => k' ≠ k

/-- The dictionary with the entries of a list put in one after the other. -/
def insertAll (d : Dict α) (es : List (String × α)) : Dict α :=
  es.foldl (fun d e => d.insert e.1 e.2) d

/-- The dictionary of a list of entries; of two entries with one key the later stays. -/
def ofList (es : List (String × α)) : Dict α :=
  empty.insertAll es

/-- The entries of both dictionaries; under a common key stands the value of the second. -/
def merge (d e : Dict α) : Dict α :=
  d.insertAll e.entries

/-- The same keys with other values. -/
def map (f : α → β) (d : Dict α) : Dict β :=
  ⟨d.row.map f⟩

/-! ## Look-up -/

namespace Row

variable {before before' : Option String}

/-- A key that may not stand behind the one before the row does not stand in the row. -/
theorem find?_of_not_follows {k : String} (h : ¬ Follows before k) (row : Row α before) :
    row.find? k = none := by
  induction row with
  | nil => rfl
  | cons k' v follows rest ih =>
    have hne : k' ≠ k := by
      rintro rfl
      exact h follows
    rw [find?, if_neg hne]
    exact ih fun hk => h (follows.trans hk)

/-- After a key was set in a row, it has the new value and the others have their old ones. -/
theorem find?_insert (k k' : String) (v : α) {follows : Follows before k} (row : Row α before) :
    (row.insert k v follows).find? k' = if k = k' then some v else row.find? k' := by
  induction row with
  | nil => rfl
  | cons j w follows' rest ih =>
    unfold insert
    by_cases heq : j = k
    · subst heq
      rw [dif_pos rfl, find?, find?]
      by_cases hk : j = k'
      · rw [if_pos hk, if_pos hk]
      · rw [if_neg hk, if_neg hk, if_neg hk]
    · rw [dif_neg heq]
      by_cases hlt : k < j
      · rw [dif_pos hlt, find?]
        rfl
      · rw [dif_neg hlt, find?, find?, ih]
        by_cases hj : j = k'
        · have hk : k ≠ k' := fun hk => heq (hj.trans hk.symm)
          rw [if_pos hj, if_pos hj, if_neg hk]
        · rw [if_neg hj, if_neg hj]

/-- Look-up does not depend on the key before a row. -/
theorem find?_widen (h : ∀ k, Follows before k → Follows before' k) (k : String)
    (row : Row α before) : (row.widen h).find? k = row.find? k := by
  cases row <;> rfl

/-- In a filtered row look-up finds what passes. -/
theorem find?_filter (p : String → α → Bool) (k : String) (row : Row α before) :
    (row.filter p).find? k = (row.find? k).filter (p k) := by
  induction row with
  | nil => rfl
  | cons k' v follows rest ih =>
    rw [filter, find?]
    by_cases hk : k' = k
    · subst hk
      have hrest : rest.find? k' = none :=
        rest.find?_of_not_follows (mt follows_some.mp (String.lt_irrefl k'))
      by_cases hp : p k' v = true
      · rw [if_pos hp, find?, if_pos rfl, if_pos rfl, Option.filter_some, if_pos hp]
      · rw [if_neg hp, find?_widen, ih, hrest, if_pos rfl, Option.filter_some, if_neg hp]
        rfl
    · rw [if_neg hk, ← ih]
      by_cases hp : p k' v = true
      · rw [if_pos hp, find?, if_neg hk]
      · rw [if_neg hp, find?_widen]

end Row

/-- There is nothing under any key of the empty dictionary. -/
@[simp] theorem find?_empty (k : String) : (empty : Dict α).find? k = none :=
  rfl

/-- A key that was set has the new value, every other key its old one. -/
theorem find?_insert (d : Dict α) (k k' : String) (v : α) :
    (d.insert k v).find? k' = if k = k' then some v else d.find? k' :=
  d.row.find?_insert k k' v

/-- A filter keeps what is found under a key, if that passes. -/
theorem find?_filter (d : Dict α) (p : String → α → Bool) (k : String) :
    (d.filter p).find? k = (d.find? k).filter (p k) :=
  d.row.find?_filter p k

/-- A key that was removed has no value, every other key its old one. -/
theorem find?_erase (d : Dict α) (k k' : String) :
    (d.erase k).find? k' = if k = k' then none else d.find? k' := by
  rw [erase, find?_filter]
  by_cases hk : k = k'
  · subst hk
    cases d.find? k <;> simp [Option.filter]
  · cases d.find? k' <;> simp [Option.filter, hk, Ne.symm hk]

end Dict

end HtmlViews
