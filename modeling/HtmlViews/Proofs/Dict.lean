import HtmlViews.Dict
import Mathlib.Data.List.Pairwise
import Mathlib.Data.List.Permutation
import Mathlib.Data.String.Basic

/-!
# Dictionaries in order

A dictionary has its keys in ascending order, each of them once. So its entries are what look-up
finds, and nothing else tells two dictionaries apart: two of them in which look-up finds the same
are the same, and a dictionary is made again from its entries in any order.

The order is read off the row of a dictionary by induction, once (**Dict.pairwise_entries**). What
follows it here uses only that, and the laws of look-up: two dictionaries are shown to be the same
by what is found under each key (**Dict.ext**), and not by what the entries look like.

* **Dict.pairwise_entries** — the keys ascend; **Dict.nodup_keys** — so each of them stands once.
* **Dict.find?_eq_some_iff** — look-up finds exactly the entries.
* **Dict.mergeSort_entries** — the entries are sorted by their keys.
* **Dict.ext** — dictionaries in which look-up finds the same are the same.
* **Dict.isEmpty_eq_false_iff** — a dictionary with entries is one in which look-up finds something.
* **Dict.find?_insertAll**, **Dict.find?_ofList** — look-up after several entries were put in.
* **Dict.ofList_of_perm** — a dictionary is made from its entries, in any order.
* **Dict.find?_merge**, **Dict.ofList_append** — dictionaries put over one another.
-/

namespace HtmlViews.Dict

variable {α : Type} {d d' : Dict α}

/-! ## The order of the entries -/

namespace Row

variable {before : Option String}

/-- All keys of a row follow the key before it. -/
theorem follows_of_mem {row : Row α before} {e : String × α} (h : e ∈ row.entries) :
    Follows before e.1 := by
  induction row with
  | nil => cases h
  | cons k v follows rest ih =>
    rcases List.mem_cons.mp h with rfl | h
    · exact follows
    · exact follows.trans (ih h)

/-- The keys of a row ascend. -/
theorem pairwise_entries (row : Row α before) :
    row.entries.Pairwise fun e e' => e.1 < e'.1 := by
  induction row with
  | nil => exact List.Pairwise.nil
  | cons k v follows rest ih =>
    exact List.pairwise_cons.mpr ⟨fun e he => follows_some.mp (follows_of_mem he), ih⟩

/-- Look-up finds exactly the entries of a row. -/
theorem find?_eq_some_iff {k : String} {v : α} {row : Row α before} :
    row.find? k = some v ↔ (k, v) ∈ row.entries := by
  induction row with
  | nil => exact iff_of_false nofun List.not_mem_nil
  | cons k' v' follows rest ih =>
    rw [find?, entries, List.mem_cons, Prod.mk.injEq]
    by_cases hk : k' = k
    · subst hk
      have hrest : (k', v) ∉ rest.entries := fun hmem =>
        lt_irrefl k' (follows_some.mp (follows_of_mem hmem))
      rw [if_pos rfl, Option.some.injEq, eq_comm]
      simp [hrest]
    · rw [if_neg hk, ih]
      simp [Ne.symm hk]

/-- Rows with the same entries are the same. -/
theorem entries_inj {row row' : Row α before} : row.entries = row'.entries ↔ row = row' := by
  refine ⟨fun h => ?_, congrArg entries⟩
  induction row with
  | nil =>
    cases row' with
    | nil => rfl
    | cons => cases h
  | cons k v follows rest ih =>
    cases row' with
    | nil => cases h
    | cons k' v' follows' rest' =>
      obtain ⟨⟨rfl, rfl⟩, hrest⟩ : (k = k' ∧ v = v') ∧ rest.entries = rest'.entries := by
        simpa [entries] using h
      rw [ih hrest]

end Row

/-- The keys of a dictionary ascend. -/
theorem pairwise_entries (d : Dict α) : d.entries.Pairwise fun e e' => e.1 < e'.1 :=
  d.row.pairwise_entries

/-- Each key stands once. -/
theorem nodup_keys (d : Dict α) : d.keys.Nodup :=
  List.pairwise_map.mpr (d.pairwise_entries.imp ne_of_lt)

/-- What look-up finds are the entries. -/
theorem find?_eq_some_iff {k : String} {v : α} : d.find? k = some v ↔ (k, v) ∈ d.entries :=
  Row.find?_eq_some_iff

/-- Dictionaries with the same entries are the same. -/
theorem entries_inj : d.entries = d'.entries ↔ d = d' := by
  refine ⟨fun h => ?_, congrArg entries⟩
  cases d
  cases d'
  exact congrArg Dict.mk (Row.entries_inj.mp h)

/-- Dictionaries in which look-up finds the same are the same. -/
theorem ext (hfind : ∀ k, d.find? k = d'.find? k) : d = d' := by
  have hnodup : ∀ d : Dict α, d.entries.Nodup := fun d =>
    d.pairwise_entries.imp fun hlt heq => absurd (heq ▸ hlt) (lt_irrefl _)
  have hperm : d.entries.Perm d'.entries := by
    refine (List.perm_ext_iff_of_nodup (hnodup d) (hnodup d')).mpr fun e => ?_
    rw [← find?_eq_some_iff, ← find?_eq_some_iff, hfind]
  exact entries_inj.mp (hperm.eq_of_pairwise (fun _ _ _ _ hlt hgt => absurd hlt (lt_asymm hgt))
    d.pairwise_entries d'.pairwise_entries)

/-- There are entries exactly if look-up finds something. -/
theorem isEmpty_eq_false_iff : d.isEmpty = false ↔ ∃ k v, d.find? k = some v := by
  simp only [isEmpty, List.isEmpty_eq_false_iff_exists_mem, find?_eq_some_iff, Prod.exists]

/-! ## Several entries put in -/

variable {k : String} {v : α} {es : List (String × α)}

/-- After several entries were put in, the last one under a key is found. -/
theorem find?_insertAll (d : Dict α) (es : List (String × α)) (k : String) :
    (d.insertAll es).find? k = (es.reverse.lookup k).or (d.find? k) := by
  induction es generalizing d with
  | nil => rfl
  | cons e es ih =>
    obtain ⟨k', v⟩ := e
    have hinsert : (d.insert k' v).find? k = ([(k', v)].lookup k).or (d.find? k) := by
      rw [find?_insert]
      by_cases hk : k' = k
      · simp [hk]
      · have hne : (k == k') = false := beq_false_of_ne (Ne.symm hk)
        simp [List.lookup_cons, hk, hne]
    rw [List.reverse_cons, List.lookup_append, Option.or_assoc, ← hinsert]
    exact ih _

/-- In a dictionary of a list of entries the last one under a key is found. -/
theorem find?_ofList (es : List (String × α)) (k : String) :
    (ofList es).find? k = es.reverse.lookup k := by
  rw [ofList, find?_insertAll, find?_empty, Option.or_none]

/-- A key that is not among those of the new entries has its old value. -/
theorem find?_insertAll_of_not_mem (h : ∀ v, (k, v) ∉ es) :
    (d.insertAll es).find? k = d.find? k := by
  have hlookup : es.reverse.lookup k = none := by
    rw [List.lookup_eq_none_iff]
    rintro ⟨k', v⟩ hmem
    rw [bne_iff_ne]
    rintro rfl
    exact h v (List.mem_reverse.mp hmem)
  rw [find?_insertAll, hlookup, Option.none_or]

/-- A key of the new entries has a value that one of them gives to it. -/
theorem exists_find?_insertAll (h : (k, v) ∈ es) :
    ∃ v', (k, v') ∈ es ∧ (d.insertAll es).find? k = some v' := by
  rw [find?_insertAll]
  cases hlookup : es.reverse.lookup k with
  | none =>
    have hne := List.lookup_eq_none_iff.mp hlookup (k, v) (List.mem_reverse.mpr h)
    exact absurd rfl (bne_iff_ne.mp hne)
  | some v' =>
    obtain ⟨front, back, hes, -⟩ := List.lookup_eq_some_iff.mp hlookup
    refine ⟨v', List.mem_reverse.mp ?_, rfl⟩
    rw [hes]
    exact List.mem_append_right _ List.mem_cons_self

/-- A dictionary is made from its entries, in any order. -/
theorem ofList_of_perm (hperm : es.Perm d.entries) : ofList es = d := by
  refine ext fun k => ?_
  cases hfind : d.find? k with
  | some v =>
    have hmem : (k, v) ∈ es := hperm.mem_iff.mpr (find?_eq_some_iff.mp hfind)
    obtain ⟨v', hmem', hfind'⟩ := exists_find?_insertAll (d := Dict.empty) hmem
    have heq : d.find? k = some v' := find?_eq_some_iff.mpr (hperm.mem_iff.mp hmem')
    rw [← hfind, heq]
    exact hfind'
  | none =>
    refine (find?_insertAll_of_not_mem fun v hmem => ?_).trans rfl
    rw [find?_eq_some_iff.mpr (hperm.mem_iff.mp hmem)] at hfind
    cases hfind

/-- A dictionary is made from its entries. -/
theorem ofList_entries (d : Dict α) : ofList d.entries = d :=
  ofList_of_perm (List.Perm.refl _)

/-! ## Dictionaries put over one another -/

/-- The second of two dictionaries is asked first. -/
theorem find?_merge (d d' : Dict α) (k : String) :
    (d.merge d').find? k = (d'.find? k).or (d.find? k) := by
  rw [merge, find?_insertAll, ← find?_ofList, ofList_entries]

/-- Entries are put in one after the other, or as a dictionary of their own. -/
theorem insertAll_eq_merge (d : Dict α) (es : List (String × α)) :
    d.insertAll es = d.merge (ofList es) := by
  refine ext fun k => ?_
  rw [find?_insertAll, find?_merge, find?_ofList]

/-- Two lists of entries in a row make the dictionary of the second one put over that of the first
one. -/
theorem ofList_append (es es' : List (String × α)) :
    ofList (es ++ es') = (ofList es).merge (ofList es') := by
  have hrow : ofList (es ++ es') = (ofList es).insertAll es' := List.foldl_append
  rw [hrow, insertAll_eq_merge]

end HtmlViews.Dict
