import HtmlViews.Directive.Variable
import HtmlViews.Proofs.Text.Occurrence
import HtmlViews.Proofs.Text.Word

/-!
# Placeholders that are written out

A placeholder is written as a name between double braces, with any blanks around it. What is read as
a placeholder is one, and none begins inside another one: it has no opening brace behind the first
two.

That placeholders are recognised needs three things: what is spelled is read up to its end, what is
read was spelled so, and no placeholder begins inside of another one. The last is a matter of
braces: a placeholder begins with two of them, and behind its first two there is none, so another
one could begin only at its second character, where just one brace is left.

A reader for the placeholders of one name is treated beside the one for all names. The stage of
messages replaces the first kind, the stage of variables the second.

* **Placeholder** — a placeholder as it is written.
* **Placeholder.read_text**, **Placeholder.exists_of_read** — what is read, and nothing else is.
* **freeOf_bracesTail** — what begins with two braces does not begin behind the first brace of it.
* **recognises_placeholder**, **recognises_marker** — placeholders are recognised, those of all
  names or those of one name.
-/

namespace HtmlViews

/-- What begins with two braces does not begin behind the first brace of such a text, if there are
no more opening braces in that. -/
theorem freeOf_bracesTail {s t : Text} (hne : t ≠ []) (ht : '{' ∉ t) :
    FreeOf (openBraces ++ s) ('{' :: t) := by
  obtain ⟨c, t, rfl⟩ := List.exists_cons_of_ne_nil hne
  have hc : '{' ≠ c := List.ne_of_not_mem_cons ht
  refine ⟨?_, ?_, freeOf_of_not_mem rfl ht⟩
  · exact fun h => hc (List.cons_prefix_cons.mp (List.cons_prefix_cons.mp h).2).1
  · exact fun h => hc (List.cons_prefix_cons.mp (List.cons_prefix_cons.mp h).2).1.symm

/-- A placeholder as it is written. -/
structure Placeholder where
  /-- The blanks before the name. -/
  before : Text
  /-- The name. -/
  name : Word
  /-- The blanks behind the name. -/
  behind : Text
  isBlank_before : ∀ c ∈ before, isBlank c = true
  isBlank_behind : ∀ c ∈ behind, isBlank c = true

namespace Placeholder

/-- What stands behind the opening braces. -/
def inside (p : Placeholder) : Text :=
  p.before ++ (p.name.text ++ (p.behind ++ closeBraces))

/-- The text that is written. -/
def text (p : Placeholder) : Text :=
  openBraces ++ p.inside

/-- A placeholder that is written is read, whatever follows. -/
theorem read_text (p : Placeholder) (s : Text) :
    placeholder? (p.text ++ s) = some (p.name.text, s) := by
  have hclose : Text.dropBlanks (p.behind ++ (closeBraces ++ s)) = closeBraces ++ s := by
    apply Text.dropWhile_run p.isBlank_behind
    rintro c ⟨⟩
    decide
  have hend : ∀ c ∈ (p.behind ++ (closeBraces ++ s)).head?, isWord c = false := by
    have hblank : ∀ c ∈ p.behind.head?, isWord c = false :=
      fun c hc => isWord_of_isBlank (p.isBlank_behind c (List.mem_of_mem_head? hc))
    apply Text.forall_head?_append hblank
    rintro c ⟨⟩
    decide +kernel
  have hname : Text.dropBlanks (p.before ++ (p.name.text ++ (p.behind ++ (closeBraces ++ s)))) =
      p.name.text ++ (p.behind ++ (closeBraces ++ s)) :=
    Text.dropWhile_run p.isBlank_before (p.name.isBlank_head _)
  have htext : p.text ++ s =
      openBraces ++ (p.before ++ (p.name.text ++ (p.behind ++ (closeBraces ++ s)))) := by
    simp only [text, inside, List.append_assoc]
  rw [htext, placeholder?, Text.after?_append]
  simp only [Option.bind_eq_bind, Option.bind_some, hname, p.name.word?_append hend, hclose,
    Text.after?_append]
  rfl

/-- What is read as a placeholder is one. -/
theorem exists_of_read {s name r : Text} (h : placeholder? s = some (name, r)) :
    ∃ p : Placeholder, p.name.text = name ∧ s = p.text ++ r := by
  simp only [placeholder?, Option.bind_eq_bind, Option.bind_eq_some_iff, Option.pure_def,
    Option.some.injEq, Prod.exists, Prod.mk.injEq] at h
  obtain ⟨inside, hopen, w, behind, hword, r, hclose, rfl, rfl⟩ := h
  obtain ⟨name, rfl, hname⟩ := Word.exists_of_word? hword
  have hinside : inside = inside.takeWhile isBlank ++ Text.dropBlanks inside :=
    List.takeWhile_append_dropWhile.symm
  have hbehind : behind = behind.takeWhile isBlank ++ Text.dropBlanks behind :=
    List.takeWhile_append_dropWhile.symm
  let p : Placeholder :=
    { before := inside.takeWhile isBlank, name, behind := behind.takeWhile isBlank,
      isBlank_before := fun _ => List.mem_takeWhile_imp,
      isBlank_behind := fun _ => List.mem_takeWhile_imp }
  have htext : p.text ++ r = openBraces ++ (inside.takeWhile isBlank ++ (name.text ++
      (behind.takeWhile isBlank ++ (closeBraces ++ r)))) := by
    simp only [p, text, Placeholder.inside, List.append_assoc]
  refine ⟨p, rfl, ?_⟩
  rw [htext, ← Text.after?_eq_some_iff.mp hclose, ← hbehind, ← hname, ← hinside]
  exact Text.after?_eq_some_iff.mp hopen

/-- No opening brace stands behind the first two. -/
theorem brace_not_mem_inside (p : Placeholder) : '{' ∉ p.inside := by
  have hblank : isBlank '{' = false := by decide
  have hbefore : '{' ∉ p.before := Text.not_mem_of_forall p.isBlank_before hblank
  have hname : '{' ∉ p.name.text := p.name.not_mem_text (by decide +kernel)
  have hbehind : '{' ∉ p.behind := Text.not_mem_of_forall p.isBlank_behind hblank
  have hclose : '{' ∉ closeBraces := by decide
  simp only [inside, List.mem_append, not_or]
  exact ⟨hbefore, hname, hbehind, hclose⟩

/-- Placeholders do not overlap. -/
theorem apart (p q : Placeholder) : FreeOf p.text q.text.tail := by
  apply freeOf_bracesTail _ q.brace_not_mem_inside
  simp [inside, q.name.ne_nil]

end Placeholder

/-- Placeholders are recognised, whatever their names are. -/
theorem recognises_placeholder :
    placeholderReader.Recognises Placeholder.text fun p => p.name.text where
  read_spell := Placeholder.read_text
  spelled h := Placeholder.exists_of_read h
  apart := Placeholder.apart

/-- A placeholder of a given name. -/
def Marker (name : Text) : Type :=
  { p : Placeholder // p.name.text = name }

/-- The text that is written. -/
def Marker.text {name : Text} (m : Marker name) : Text :=
  m.1.text

/-- The placeholders of one name are recognised. -/
theorem recognises_marker (name : Text) :
    (markerReader name).Recognises (fun m : Marker name => m.text) fun _ => () where
  read_spell m s := by
    show marker? name (m.1.text ++ s) = _
    rw [marker?, m.1.read_text]
    exact if_pos m.2
  spelled {s r a} h := by
    have hread : marker? name s = some (a, r) := h
    unfold marker? at hread
    split at hread
    case h_1 found r' hplaceholder =>
      split at hread
      case isTrue hname =>
        cases hread
        obtain ⟨p, hp, hs⟩ := Placeholder.exists_of_read hplaceholder
        exact ⟨⟨p, hp.trans hname⟩, rfl, hs⟩
      case isFalse => cases hread
    case h_2 => cases hread
  apart m m' := m.1.apart m'.1

end HtmlViews
