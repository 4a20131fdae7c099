import HtmlViews.Proofs.Dict
import HtmlViews.Proofs.Log
import HtmlViews.Proofs.Text.Interleaved
import HtmlViews.Session.Store
import Mathlib.Data.List.Induction

/-!
# Directives that take from a store

Directives of a page may take from a store what they show. So what a directive shows depends on the
directives before it: of those for one name only the first finds something.

Behind some directives the store is the one without their names, whether they found something or
not. A store that has lost several names is described by a filter (**Dict.without**), and to take
one more name from it is a filter with one more name; so the state behind each directive is known
without following the store step by step. The run of a whole page is then an induction on its
directives, with the names before each of them as the state.

* **Dict.without** — a dictionary without several keys.
* **Store.withoutMessages**, **Store.withoutErrors** — what is left when several names were asked
  for.
* **Interleaved.textBehind** — a page in which directives depend on those before them.
* **Interleaved.run_textM**, **Interleaved.run_expandM_of_mark** — such a page, computed from left
  to right with a store.
* **Dict.find?_without** — what is found without several keys.
-/

namespace HtmlViews

/-! ## Several keys removed -/

namespace Dict

variable {α : Type}

/-- The dictionary without the given keys. -/
def without (d : Dict α) (keys : List String) : Dict α :=
  d.filter fun k _ => decide (k ∉ keys)

/-- Keys that were removed have no value, the others their old one. -/
theorem find?_without (d : Dict α) (keys : List String) (k : String) :
    (d.without keys).find? k = if k ∈ keys then none else d.find? k := by
  rw [without, find?_filter]
  cases d.find? k <;> simp [Option.filter_some]

/-- Nothing is removed. -/
@[simp] theorem without_nil (d : Dict α) : d.without [] = d :=
  ext fun k => by rw [find?_without, if_neg List.not_mem_nil]

/-- One more key is removed. -/
theorem erase_without (d : Dict α) (keys : List String) (k : String) :
    (d.without keys).erase k = d.without (keys ++ [k]) := by
  refine ext fun k' => ?_
  rw [find?_erase, find?_without, find?_without]
  by_cases hk : k = k'
  · simp [hk]
  · simp [hk, Ne.symm hk]

end Dict

namespace Store

/-- The store without the messages under the given names. -/
def withoutMessages (s : Store) (names : List String) : Store :=
  { s with messages := s.messages.without names }

/-- The store without the errors of the given fields. -/
def withoutErrors (s : Store) (fields : List String) : Store :=
  { s with errors := s.errors.without fields }

/-- Without any names, all messages are left. -/
@[simp] theorem withoutMessages_nil (s : Store) : s.withoutMessages [] = s := by
  simp [withoutMessages]

/-- Without any fields, all errors are left. -/
@[simp] theorem withoutErrors_nil (s : Store) : s.withoutErrors [] = s := by
  simp [withoutErrors]

/-- A message is taken that was not taken before, if there is one. -/
theorem takeMessage_withoutMessages (s : Store) (names : List String) (name : String) :
    (s.withoutMessages names).takeMessage name =
      (if name ∈ names then none else s.peekMessage name,
        s.withoutMessages (names ++ [name])) := by
  rw [takeMessage, withoutMessages, withoutMessages, peekMessage, Dict.find?_without,
    Dict.erase_without]
  rfl

/-- The first error is taken of a field whose errors were not taken before, if there is one. -/
theorem takeError_withoutErrors (s : Store) (fields : List String) (field : String) :
    (s.withoutErrors fields).takeError field =
      (if field ∈ fields then none else s.peekError field,
        s.withoutErrors (fields ++ [field])) := by
  rw [takeError, withoutErrors, withoutErrors, peekError, Dict.find?_without, Dict.erase_without]
  by_cases hfield : field ∈ fields
  · rw [if_pos hfield, if_pos hfield]
    rfl
  · rw [if_neg hfield, if_neg hfield]
    rfl

end Store

/-! ## Pages -/

namespace Interleaved

variable {P : Text → Prop} {δ σ : Type}

/-- Texts with what is shown for the directives between them, behind the directives `earlier`. -/
def textBehindFrom (shown : List δ → δ → Text) (last : Text) :
    (earlier : List δ) → List (Text × δ) → Text
  | _, [] => last
  | earlier, (t, d) :: parts =>
    t ++ (shown earlier d ++ textBehindFrom shown last (earlier ++ [d]) parts)

/-- The texts with what is shown for the directives between them, which depends on the directives
before each of them. -/
def textBehind (shown : List δ → δ → Text) (p : Interleaved P δ) : Text :=
  textBehindFrom shown p.last [] p.parts

/-- The directives in their order. -/
def directives (p : Interleaved P δ) : List δ :=
  p.parts.map Prod.snd

/-- Directives that show something and change the state, each as those before it have left it, do so
one behind the other. -/
theorem run_textM {make : δ → StateT σ Logged Text} {shown : List δ → δ → Text}
    {state : List δ → σ}
    (hmake : ∀ earlier d,
      ((make d).run (state earlier)).value = (shown earlier d, state (earlier ++ [d])))
    (p : Interleaved P δ) :
    ((p.textM make).run (state [])).value = (p.textBehind shown, state p.directives) := by
  have hparts : ∀ (parts : List (Text × δ)) (earlier : List δ),
      ((textFromM make p.last parts).run (state earlier)).value =
        (textBehindFrom shown p.last earlier parts, state (earlier ++ parts.map Prod.snd)) := by
    intro parts
    induction parts with
    | nil =>
      intro earlier
      rw [List.map_nil, List.append_nil]
      rfl
    | cons e parts ih =>
      intro earlier
      have hrest := ih (earlier ++ [e.2])
      rw [List.append_assoc] at hrest
      simp only [textFromM, StateT.run_bind, Logged.value_bind, hmake, hrest, StateT.run_pure,
        Logged.value_pure]
      rfl
  exact hparts p.parts []

/-- The same for a search that reads the directives, which all begin with a mark, between texts in
which it does not occur. -/
theorem run_expandM_of_mark {α : Type} {reader : Reader α} {spell : δ → Text} {found : δ → α}
    {mark : Text} {c : Char} (hhead : mark.head? = some c) (htail : c ∉ mark.tail)
    (hnone : ∀ s, Text.after? mark s = none → reader.read s = none)
    (hmark : ∀ d, mark <+: spell d)
    (hread : ∀ d s, reader.read (spell d ++ s) = some (found d, s))
    {make : α → StateT σ Logged Text} {shown : List δ → δ → Text} {state : List δ → σ}
    (hmake : ∀ earlier d,
      ((make (found d)).run (state earlier)).value = (shown earlier d, state (earlier ++ [d])))
    (p : Interleaved (fun t => ¬ mark <:+: t) δ) :
    ((Text.expandM reader make (p.text spell)).run (state [])).value =
      (p.textBehind shown, state p.directives) := by
  rw [expandM_text_of_mark hhead htail hnone hmark hread]
  exact p.run_textM hmake

end Interleaved

end HtmlViews
