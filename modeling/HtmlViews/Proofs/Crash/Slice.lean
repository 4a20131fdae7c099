import HtmlViews.Proofs.Crash.Basic
import HtmlViews.Proofs.Text.Basic

/-!
# Parts of texts by places in bytes

A text is kept as its bytes in UTF-8, and its places are numbers of bytes. A part between two places
can be taken when both are in the text and no character stands across them; otherwise the
computation crashes.

A place is the number of bytes before it. That the places of the program are never inside of a
character is no matter of luck: each of them was found as the end of a part that is made of whole
characters. So the main lemma is the equation for a text of three parts (**Text.slice_append**): cut
at the places between its parts, it gives the middle one; and its converse says that nothing else
can be cut (**Text.slice_eq_ok_iff**).

That a place is a boundary is said by the bytes, as it is in the program, by which a byte tells
whether it begins a character; **Text.isBoundary_iff** relates it to the characters.

* **Text.IsBoundary** — a place that no character stands across.
* **Text.isBoundary_iff** — these are the places at which a text can be taken apart.
* **Text.slice** — the part of a text between two places.
* **Text.slice_append** — the part is taken when the places are those of its ends.
* **Text.withoutEnds** — a text without the bytes at its ends.
* **Text.charIndices** — the characters of a text with their places.
-/

namespace HtmlViews.Text

/-! ## Bytes -/

/-- Texts in a row have their bytes in a row. -/
theorem bytes_append (s t : Text) : (s ++ t).bytes = s.bytes ++ t.bytes :=
  List.flatMap_append

/-- The empty text has no bytes. -/
@[simp] theorem utf8Length_nil : utf8Length [] = 0 :=
  rfl

/-- A text is longer by the bytes of a character before it. -/
@[simp] theorem utf8Length_cons (c : Char) (s : Text) :
    utf8Length (c :: s) = c.utf8Size + utf8Length s :=
  rfl

/-- Texts in a row have their lengths together. -/
@[simp] theorem utf8Length_append (s t : Text) :
    utf8Length (s ++ t) = utf8Length s + utf8Length t := by
  rw [← length_bytes, bytes_append, List.length_append, length_bytes, length_bytes]

/-- A place that no character stands across: the end of a text, or the place of a byte that begins a
character. -/
def IsBoundary (s : Text) (i : Nat) : Prop :=
  i = s.bytes.length ∨ ∃ b ∈ s.bytes[i]?, b.IsUTF8FirstByte

instance (s : Text) : DecidablePred s.IsBoundary := fun i =>
  inferInstanceAs (Decidable (i = s.bytes.length ∨ ∃ b ∈ s.bytes[i]?, b.IsUTF8FirstByte))

/-- The bytes of a text begin with those of its first character. -/
theorem bytes_cons (c : Char) (s : Text) : bytes (c :: s) = String.utf8EncodeChar c ++ s.bytes :=
  List.flatMap_cons

/-- No character stands across the beginning of a text. -/
theorem isBoundary_zero (s : Text) : s.IsBoundary 0 := by
  cases s with
  | nil => exact .inl rfl
  | cons c s =>
    have hlength : 0 < (String.utf8EncodeChar c).length := by
      rw [String.length_utf8EncodeChar]
      exact c.utf8Size_pos
    have hfirst : (bytes (c :: s))[0]? = some ((String.utf8EncodeChar c)[0]) := by
      rw [bytes_cons, List.getElem?_append_left hlength, List.getElem?_eq_getElem hlength]
    exact .inr ⟨_, hfirst, UInt8.isUTF8FirstByte_getElem_utf8EncodeChar.mpr rfl⟩

/-- Inside of a character is no boundary. -/
theorem not_isBoundary_of_lt {c : Char} {i : Nat} (hpos : 0 < i) (hlt : i < c.utf8Size) (s : Text) :
    ¬ IsBoundary (c :: s) i := by
  have hlength : i < (String.utf8EncodeChar c).length := by
    rwa [String.length_utf8EncodeChar]
  rintro (h | ⟨b, hb, hfirst⟩)
  · rw [bytes_cons, List.length_append] at h
    omega
  · rw [bytes_cons, List.getElem?_append_left hlength, List.getElem?_eq_getElem hlength] at hb
    obtain rfl := Option.some.inj hb
    have := UInt8.isUTF8FirstByte_getElem_utf8EncodeChar.mp hfirst
    omega

/-- Behind a character the boundaries are those of the text there. -/
theorem isBoundary_cons_add {c : Char} {s : Text} {i : Nat} :
    IsBoundary (c :: s) (c.utf8Size + i) ↔ IsBoundary s i := by
  have hbyte : (bytes (c :: s))[c.utf8Size + i]? = s.bytes[i]? := by
    rw [bytes_cons, ← String.length_utf8EncodeChar,
      List.getElem?_append_right (Nat.le_add_right _ _), Nat.add_sub_cancel_left]
  unfold IsBoundary
  rw [hbyte, bytes_cons, List.length_append, String.length_utf8EncodeChar, Nat.add_left_cancel_iff]

/-- The places that no character stands across are those at which a text can be taken apart. -/
theorem isBoundary_iff {s : Text} {i : Nat} :
    s.IsBoundary i ↔ ∃ p r, s = p ++ r ∧ i = p.utf8Length := by
  constructor
  · intro h
    induction s generalizing i with
    | nil =>
      rcases h with h | ⟨b, hb, -⟩
      · exact ⟨[], [], rfl, h⟩
      · cases hb
    | cons c s ih =>
      by_cases hlt : i < c.utf8Size
      · have hzero : i = 0 := by
          apply Nat.eq_zero_of_not_pos
          intro hpos
          exact not_isBoundary_of_lt hpos hlt s h
        exact ⟨[], c :: s, rfl, hzero⟩
      · obtain ⟨j, rfl⟩ := Nat.exists_eq_add_of_le (Nat.le_of_not_lt hlt)
        obtain ⟨p, r, rfl, rfl⟩ := ih (isBoundary_cons_add.mp h)
        exact ⟨c :: p, r, rfl, rfl⟩
  · rintro ⟨p, r, rfl, rfl⟩
    induction p with
    | nil => exact isBoundary_zero r
    | cons c p ih => exact isBoundary_cons_add.mpr ih

/-- Where two texts meet there is a boundary. -/
theorem isBoundary_append (p r : Text) : (p ++ r).IsBoundary p.utf8Length :=
  isBoundary_iff.mpr ⟨p, r, rfl, rfl⟩

/-! ## Characters with their places -/

/-- The characters of a text with their places; the first one stands at `n`. -/
def charIndices : (n : Nat) → Text → List (Nat × Char)
  | _, [] => []
  | n, c :: s => (n, c) :: charIndices (n + c.utf8Size) s

/-- The characters of texts in a row, with their places. -/
theorem charIndices_append (n : Nat) (s t : Text) :
    charIndices n (s ++ t) = charIndices n s ++ charIndices (n + s.utf8Length) t := by
  induction s generalizing n with
  | nil => rfl
  | cons c s ih =>
    rw [List.cons_append, charIndices, ih, charIndices, utf8Length_cons, Nat.add_assoc]
    rfl

/-- Every character stands between the ends of its text. -/
theorem le_of_mem_charIndices {n : Nat} {s : Text} {e : Nat × Char} (h : e ∈ charIndices n s) :
    n ≤ e.1 ∧ e.1 < n + s.utf8Length := by
  induction s generalizing n with
  | nil => cases h
  | cons c s ih =>
    have hpos := c.utf8Size_pos
    rw [utf8Length_cons]
    rcases List.mem_cons.mp h with rfl | h
    · omega
    · have := ih h
      omega

/-- Without their places these are the characters of the text. -/
theorem map_snd_charIndices (n : Nat) (s : Text) : (charIndices n s).map Prod.snd = s := by
  induction s generalizing n with
  | nil => rfl
  | cons c s ih => exact congrArg (c :: ·) (ih _)

/-- A character stands at the place behind the text before it. -/
theorem mem_charIndices_iff {n i : Nat} {c : Char} {s : Text} :
    (i, c) ∈ charIndices n s ↔ ∃ p r, s = p ++ c :: r ∧ i = n + p.utf8Length := by
  constructor
  · intro h
    induction s generalizing n with
    | nil => cases h
    | cons d s ih =>
      rcases List.mem_cons.mp h with h | h
      · obtain ⟨rfl, rfl⟩ := Prod.mk.inj h
        exact ⟨[], s, rfl, rfl⟩
      · obtain ⟨p, r, rfl, rfl⟩ := ih h
        exact ⟨d :: p, r, rfl, by rw [utf8Length_cons, Nat.add_assoc]⟩
  · rintro ⟨p, r, rfl, rfl⟩
    rw [charIndices_append]
    exact List.mem_append_right _ List.mem_cons_self

/-- What stands behind a number of bytes is found when they are those of a beginning. -/
theorem dropBytes?_append (p r : Text) : dropBytes? p.utf8Length (p ++ r) = some r := by
  induction p with
  | nil => cases r <;> rfl
  | cons c p ih =>
    have hpos := c.utf8Size_pos
    have hlength : c.utf8Size + utf8Length p ≠ 0 := by omega
    obtain ⟨n, hn⟩ := Nat.exists_eq_add_one_of_ne_zero hlength
    have hfits : c.utf8Size ≤ n + 1 := by omega
    have hrest : n + 1 - c.utf8Size = utf8Length p := by omega
    rw [utf8Length_cons, hn, List.cons_append, dropBytes?, if_pos hfits, hrest, ih]

/-! ## Parts -/

/-- The characters of a text that begin from one place on and before another one. -/
def between (s : Text) (a b : Nat) : Text :=
  ((charIndices 0 s).filter fun e => a ≤ e.1 && e.1 < b).map Prod.snd

/-- The part of a text between two places in bytes. -/
def slice (s : Text) (a b : Nat) : Checked Text :=
  if b < a ∨ s.bytes.length < b then .error .outOfRange
  else if s.IsBoundary a ∧ s.IsBoundary b then .ok (s.between a b)
  else .error .insideCharacter

/-- The part of a text from a place on. -/
def sliceFrom (s : Text) (a : Nat) : Checked Text :=
  s.slice a s.bytes.length

/-- Between the places of its ends stands a part. -/
theorem between_append (p t r : Text) :
    between (p ++ (t ++ r)) p.utf8Length (p.utf8Length + t.utf8Length) = t := by
  have hall : ∀ e ∈ charIndices p.utf8Length t,
      (p.utf8Length ≤ e.1 && e.1 < p.utf8Length + t.utf8Length) = true := by
    intro e he
    have := le_of_mem_charIndices he
    simp [this]
  have hbefore : ∀ e ∈ charIndices 0 p,
      ¬ (p.utf8Length ≤ e.1 && e.1 < p.utf8Length + t.utf8Length) = true := by
    intro e he
    have := le_of_mem_charIndices he
    simp
    omega
  have hbehind : ∀ e ∈ charIndices (p.utf8Length + t.utf8Length) r,
      ¬ (p.utf8Length ≤ e.1 && e.1 < p.utf8Length + t.utf8Length) = true := by
    intro e he
    have := le_of_mem_charIndices he
    simp
    omega
  unfold between
  rw [charIndices_append, charIndices_append, Nat.zero_add, List.filter_append, List.filter_append,
    List.filter_eq_nil_iff.mpr hbefore, List.filter_eq_self.mpr hall,
    List.filter_eq_nil_iff.mpr hbehind, List.nil_append, List.append_nil, map_snd_charIndices]

/-- A part is taken when the places are those of its ends. -/
theorem slice_append (p t r : Text) :
    slice (p ++ (t ++ r)) p.utf8Length (p.utf8Length + t.utf8Length) = .ok t := by
  have hrange : ¬ (p.utf8Length + t.utf8Length < p.utf8Length ∨
      (p ++ (t ++ r)).bytes.length < p.utf8Length + t.utf8Length) := by
    rw [length_bytes, utf8Length_append, utf8Length_append]
    omega
  have hend : (p ++ (t ++ r)).IsBoundary (p.utf8Length + t.utf8Length) := by
    rw [← List.append_assoc, ← utf8Length_append]
    exact isBoundary_append _ r
  rw [slice, if_neg hrange, if_pos ⟨isBoundary_append p _, hend⟩, between_append]

/-- The beginning of a text can be taken. -/
theorem slice_zero (t r : Text) : slice (t ++ r) 0 t.utf8Length = .ok t := by
  have h := slice_append [] t r
  rwa [List.nil_append, utf8Length_nil, Nat.zero_add] at h

/-- The end of a text can be taken. -/
theorem sliceFrom_append (p t : Text) : sliceFrom (p ++ t) p.utf8Length = .ok t := by
  have h := slice_append p t []
  rwa [List.append_nil, ← utf8Length_append, ← length_bytes (p ++ t)] at h

/-- A text without length is empty. -/
theorem eq_nil_of_utf8Length {s : Text} (h : s.utf8Length = 0) : s = [] := by
  cases s with
  | nil => rfl
  | cons c s =>
    have := c.utf8Size_pos
    rw [utf8Length_cons] at h
    omega

/-- A part is taken exactly when the text can be taken apart at both places. -/
theorem slice_eq_ok_iff {s t : Text} {a b : Nat} :
    s.slice a b = .ok t ↔
      ∃ p r, s = p ++ (t ++ r) ∧ a = p.utf8Length ∧ b = p.utf8Length + t.utf8Length := by
  constructor
  · intro h
    by_cases hrange : b < a ∨ s.bytes.length < b
    · rw [slice, if_pos hrange] at h
      cases h
    · by_cases hboundary : s.IsBoundary a ∧ s.IsBoundary b
      · obtain ⟨p, u, rfl, rfl⟩ := isBoundary_iff.mp hboundary.1
        obtain ⟨q, r, hq, rfl⟩ := isBoundary_iff.mp hboundary.2
        have hpart : ∃ t', q = p ++ t' ∧ u = t' ++ r := by
          rcases List.append_eq_append_iff.mp hq with ⟨t', hq, hu⟩ | ⟨t', hp, hr⟩
          · exact ⟨t', hq, hu⟩
          · have hempty : t' = [] := by
              apply eq_nil_of_utf8Length
              rw [hp, utf8Length_append] at hrange
              omega
            subst hempty
            exact ⟨[], by rw [hp, List.append_nil, List.append_nil], hr.symm⟩
        obtain ⟨t', rfl, rfl⟩ := hpart
        rw [utf8Length_append, slice_append] at h
        obtain rfl := Except.ok.inj h
        exact ⟨p, r, rfl, rfl, utf8Length_append p t'⟩
      · rw [slice, if_neg hrange, if_neg hboundary] at h
        cases h
  · rintro ⟨p, r, rfl, rfl, rfl⟩
    exact slice_append p t r

/-- What stands behind a place is taken exactly when the text can be taken apart there. -/
theorem sliceFrom_eq_ok_iff {s t : Text} {a : Nat} :
    s.sliceFrom a = .ok t ↔ ∃ p, s = p ++ t ∧ a = p.utf8Length := by
  constructor
  · intro h
    obtain ⟨p, r, rfl, rfl, hend⟩ := slice_eq_ok_iff.mp h
    have hempty : r = [] := by
      apply eq_nil_of_utf8Length
      rw [length_bytes, utf8Length_append, utf8Length_append] at hend
      omega
    subst hempty
    exact ⟨p, by rw [List.append_nil], rfl⟩
  · rintro ⟨p, rfl, rfl⟩
    exact sliceFrom_append p t

/-- A part is as long as its places are apart, and ends within the text. -/
theorem utf8Length_of_slice {s t : Text} {a b : Nat} (h : s.slice a b = .ok t) :
    a + t.utf8Length = b ∧ b ≤ s.utf8Length := by
  obtain ⟨p, r, rfl, rfl, rfl⟩ := slice_eq_ok_iff.mp h
  rw [utf8Length_append, utf8Length_append]
  omega

/-- An end is as long as the text is behind its place. -/
theorem utf8Length_of_sliceFrom {s t : Text} {a : Nat} (h : s.sliceFrom a = .ok t) :
    a + t.utf8Length = s.utf8Length := by
  rw [(utf8Length_of_slice h).1, length_bytes]

/-- What stands behind a place that is not the first one is shorter than the text. -/
theorem utf8Length_lt_of_sliceFrom {s t : Text} {a : Nat} (h : s.sliceFrom (a + 1) = .ok t) :
    t.utf8Length < s.utf8Length := by
  have := utf8Length_of_sliceFrom h
  omega

/-- A text without its first and its last byte. -/
def withoutEnds (t : Text) : Checked Text := do
  let last ← Checked.minus t.utf8Length 1
  t.slice 1 last

/-- Between characters of one byte each is what stands between them. -/
theorem withoutEnds_eq {c d : Char} (hc : c.utf8Size = 1) (hd : d.utf8Size = 1) (body : Text) :
    withoutEnds (c :: body ++ [d]) = .ok body := by
  have hlength : utf8Length (c :: body ++ [d]) = 1 + body.utf8Length + 1 := by
    simp [hc, hd, Nat.add_assoc]
  rw [withoutEnds, hlength, Checked.minus_of_le (Nat.le_add_left _ _)]
  exact slice_eq_ok_iff.mpr ⟨[c], [d], rfl, by simp [hc], by simp [hc]⟩

/-- Quotes are one byte long. -/
theorem utf8Size_of_isQuote {q : Char} (hq : isQuote q = true) : q.utf8Size = 1 := by
  rcases isQuote_iff.mp hq with rfl | rfl <;> rfl

/-- A place inside of a character, and one behind the text. -/
example : slice "é".toList 1 2 = .error .insideCharacter ∧
    slice "é".toList 2 3 = .error .outOfRange ∧ slice "aéb".toList 1 3 = .ok ['é'] ∧
    withoutEnds "'".toList = .error .outOfRange :=
  ⟨rfl, rfl, rfl, rfl⟩

end HtmlViews.Text
