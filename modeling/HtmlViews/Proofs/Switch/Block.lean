import HtmlViews.Proofs.Crash.Switch
import HtmlViews.Proofs.Text.Interleaved

/-!
# Switches that are written out

A switch is written with any number of cases, each of which ends at its own mark, and perhaps with a
default behind them. It shows the content of the first case whose value is compared equal to the
subject, or else the default. In a page with many switches each is replaced by what it shows, and
what it shows is not searched for switches again.

A switch is written in such a way that each mark is found where it was written: in no part of it one
of the marks occurs, and no mark is made where two parts meet, since what stands behind a part
begins with a mark or a parenthesis and no mark goes on with these. Then the search for a case finds
the arms one after the other (**Switch.Arm.next?_text**, **Switch.findCase_arms**), by induction on
their list, and behind the last one it finds none. The default is searched for from the front, past
all arms.

What a switch shows may contain anything; a page of switches is then expanded like every page of
directives that all begin with one mark.

* **Switch.Unmarked** — a text in which no mark of a switch occurs.
* **Switch.Arm**, **Switch.Default**, **Switch.Block** — a switch and its parts as they are written.
* **Switch.Block.shown** — what a switch shows.
* **Switch.findCase_arms** — the search for a case goes from one case to the next.
* **Switch.expand_blocks** — a page with its switches replaced by what they show.
-/

namespace HtmlViews.Switch

/-! ## Marks -/

/-- The marks within a switch. -/
def marks : List Text :=
  ["@case(".toList, "@break".toList, "@default".toList, "@endswitch".toList]

/-- Whether no mark of a switch occurs in a text. -/
def Unmarked (s : Text) : Prop :=
  ∀ m ∈ marks, ¬ m <:+: s

instance : DecidablePred Unmarked := fun s =>
  inferInstanceAs (Decidable (∀ m ∈ marks, ¬ m <:+: s))

section Marks

variable {m p s : Text}

/-- All marks begin with an at sign. -/
theorem head_mark : ∀ m ∈ marks, m.head? = some '@' := by
  decide

/-- Behind its first character no mark has an at sign or a closing parenthesis. -/
theorem not_mem_tail_mark : ∀ m ∈ marks, '@' ∉ m.tail ∧ ')' ∉ m.tail := by
  decide

/-- No mark is the beginning of another one. -/
theorem not_prefix_mark : ∀ m ∈ marks, ∀ w ∈ marks, m ≠ w → ¬ m <+: w := by
  decide

/-- A mark does not occur in another one, whatever stands behind. -/
theorem passes_otherMark (hm : m ∈ marks) {w : Text} (hw : w ∈ marks) (hne : m ≠ w) (s : Text) :
    Passes (Reader.literal m).read w s :=
  passes_mark (head_mark m hm) (not_mem_tail_mark w hw).1 (not_prefix_mark m hm w hw hne)
    (not_prefix_mark w hw m hm hne.symm) s

/-- A mark does not occur where there is none of its first character. -/
theorem passes_of_at_not_mem (hm : m ∈ marks) (hp : '@' ∉ p) (s : Text) :
    Passes (Reader.literal m).read p s :=
  (beginsWith_literal (head_mark m hm)).passes hp s

/-- Blanks are no at signs. -/
theorem at_not_mem_of_blank (hp : ∀ c ∈ p, isBlank c = true) : '@' ∉ p := by
  intro hat
  have := hp '@' hat
  revert this
  decide +kernel

/-- A mark is not made by a text without marks and what stands behind, if that begins with a mark or
a parenthesis. -/
theorem Unmarked.passes (hp : Unmarked p) (hm : m ∈ marks)
    (hs : ∀ d ∈ s.head?, d = '@' ∨ d = ')') : Passes (Reader.literal m).read p s := by
  obtain ⟨hat, hclosing⟩ := not_mem_tail_mark m hm
  apply passes_of_not_infix (fun _ => literal_eq_none) _ (hp m hm)
  intro d hd
  rcases hs d hd with rfl | rfl
  · exact hat
  · exact hclosing

end Marks

/-! ## What is written -/

/-- A case as it is written, with the blanks before it. -/
structure Arm extends Case where
  /-- The blanks before the case. -/
  gap : Text
  isBlank_gap : ∀ c ∈ gap, isBlank c = true
  isArgument_value : Text.IsArgument value
  unmarked_value : Unmarked value
  unmarked_content : Unmarked content

/-- The text that is written. -/
def Arm.text (a : Arm) : Text :=
  a.gap ++ ("@case(".toList ++ (a.value ++ ')' :: (a.content ++ "@break".toList)))

/-- A default as it is written. -/
structure Default where
  /-- What is shown. -/
  content : Text
  /-- The blanks behind the mark that ends the default, if it has one. -/
  ending : Option Text
  unmarked_content : Unmarked content
  isBlank_ending : ∀ blanks ∈ ending, ∀ c ∈ blanks, isBlank c = true

/-- What is written behind the content of a default. -/
def Default.close (d : Default) : Text :=
  match d.ending with
  | none => []
  | some blanks => "@break".toList ++ blanks

/-- The text that is written. -/
def Default.text (d : Default) : Text :=
  "@default".toList ++ (d.content ++ d.close)

/-- A switch as it is written. -/
structure Block where
  /-- The text between the parentheses. -/
  subject : Text
  /-- The cases. -/
  arms : List Arm
  /-- The blanks behind the last case. -/
  gap : Text
  /-- The default, if there is one. -/
  default : Option Default
  isArgument_subject : Text.IsArgument subject
  isBlank_gap : ∀ c ∈ gap, isBlank c = true

namespace Block

/-- What is written behind the cases. -/
def tail (b : Block) : Text :=
  b.gap ++ b.default.elim [] Default.text

/-- What is written between the subject and the end. -/
def body (b : Block) : Text :=
  b.arms.flatMap Arm.text ++ b.tail

/-- The text that is written. -/
def text (b : Block) : Text :=
  opening ++ (b.subject ++ ')' :: (b.body ++ "@endswitch".toList))

/-- What a switch shows: the content of the first case whose value is compared as the same text as
the subject, or else the default, or else nothing. -/
def shown (context : Context) (b : Block) : Text :=
  match b.arms.find? fun a => normalize context a.value = normalize context b.subject with
  | some a => a.content
  | none => b.default.elim [] Default.content

end Block

/-! ## Reading what is written -/

section Reading

variable {m s : Text}

/-- A case holds no mark of the default or of the end. -/
theorem Arm.passes (a : Arm) (hm : m ∈ marks) (hcase : m ≠ "@case(".toList)
    (hbreak : m ≠ "@break".toList) (s : Text) : Passes (Reader.literal m).read a.text s := by
  have hclosing : '@' ∉ [')'] := by decide
  apply (passes_of_at_not_mem hm (at_not_mem_of_blank a.isBlank_gap) _).append
  apply (passes_otherMark hm (by decide) hcase _).append
  apply (a.unmarked_value.passes hm _).append
  · apply (passes_of_at_not_mem hm hclosing _).append
    apply (a.unmarked_content.passes hm _).append
    · exact passes_otherMark hm (by decide) hbreak s
    · rintro d ⟨⟩
      exact .inl rfl
  · rintro d ⟨⟩
    exact .inr rfl

/-- In cases only their own two marks are found. -/
theorem passes_arms (arms : List Arm) (hm : m ∈ marks) (hcase : m ≠ "@case(".toList)
    (hbreak : m ≠ "@break".toList) (s : Text) :
    Passes (Reader.literal m).read (arms.flatMap Arm.text) s := by
  induction arms with
  | nil => trivial
  | cons a arms ih => exact (a.passes hm hcase hbreak _).append ih

/-- Behind the mark of a default stands no other mark than that of its end. -/
theorem Default.passes (d : Default) (hm : m ∈ marks) (hbreak : m ≠ "@break".toList)
    (hs : ∀ c ∈ s.head?, c = '@' ∨ c = ')') :
    Passes (Reader.literal m).read (d.content ++ d.close) s := by
  unfold close
  cases hending : d.ending with
  | none =>
    rw [List.append_nil]
    exact d.unmarked_content.passes hm hs
  | some blanks =>
    have hblanks := at_not_mem_of_blank (d.isBlank_ending blanks hending)
    apply (d.unmarked_content.passes hm _).append
    · apply (passes_otherMark hm (by decide) hbreak _).append
      exact passes_of_at_not_mem hm hblanks s
    · rintro c ⟨⟩
      exact .inl rfl

/-- Behind the cases only the marks of a default are found. -/
theorem Block.passes_tail (b : Block) (hm : m ∈ marks) (hbreak : m ≠ "@break".toList)
    (hdefault : m ≠ "@default".toList) (hs : ∀ c ∈ s.head?, c = '@' ∨ c = ')') :
    Passes (Reader.literal m).read b.tail s := by
  apply (passes_of_at_not_mem hm (at_not_mem_of_blank b.isBlank_gap) _).append
  cases b.default with
  | none => trivial
  | some d => exact (passes_otherMark hm (by decide) hdefault _).append (d.passes hm hbreak hs)

/-- A switch that is written is read up to its end, whatever follows. -/
theorem Block.read_text (b : Block) (s : Text) :
    reader.read (b.text ++ s) = some (.block b.subject b.body, s) := by
  have hend : ∀ c ∈ ("@endswitch".toList ++ s).head?, c = '@' ∨ c = ')' := by
    rintro c ⟨⟩
    exact .inl rfl
  have hbody : Passes (Reader.literal "@endswitch".toList).read b.body
      ("@endswitch".toList ++ s) :=
    (passes_arms b.arms (by decide) (by decide) (by decide) _).append
      (b.passes_tail (by decide) (by decide) (by decide) hend)
  have htext : b.text ++ s =
      opening ++ (b.subject ++ ')' :: (b.body ++ ("@endswitch".toList ++ s))) := by
    simp [text]
  show Found.read? (b.text ++ s) = _
  rw [htext, Found.read?, Text.after?_append]
  simp only [Option.map_some, b.isArgument_subject.closing?, Text.cut?_mark (by decide) hbody]

/-- A case that is written is the next one, whatever follows. -/
theorem Arm.next?_text (a : Arm) (s : Text) :
    Case.next? (a.text ++ s) = .ok (some (a.toCase, s)) := by
  have hgap : Passes (Reader.literal "@case(".toList).read a.gap
      ("@case(".toList ++ (a.value ++ ')' :: (a.content ++ ("@break".toList ++ s)))) :=
    passes_of_at_not_mem (by decide) (at_not_mem_of_blank a.isBlank_gap) _
  have hcontent : Passes (Reader.literal "@break".toList).read a.content
      ("@break".toList ++ s) := by
    apply a.unmarked_content.passes (by decide)
    rintro c ⟨⟩
    exact .inl rfl
  have htext : a.text ++ s = a.gap ++ ("@case(".toList ++
      (a.value ++ ')' :: (a.content ++ ("@break".toList ++ s)))) := by
    simp [text]
  rw [htext, Case.next?, Text.cut?_mark (by decide) hgap]
  simp only [a.isArgument_value.closing?, Text.cut?_mark (by decide) hcontent]

/-- The search goes from one case to the next and stops at the first one that is compared as the
same text as the subject. -/
theorem findCase_arms (context : Context) (subject : Text) (arms : List Arm)
    (hs : Case.next? s = .ok none) :
    findCase context subject (arms.flatMap Arm.text ++ s) =
      pure ((arms.find? fun a => normalize context a.value = subject).map fun a => a.content) := by
  induction arms with
  | nil =>
    rw [List.flatMap_nil, List.nil_append, findCase_eq, hs]
    rfl
  | cons a arms ih =>
    rw [List.flatMap_cons, List.append_assoc, findCase_eq, a.next?_text]
    by_cases hequal : normalize context a.value = subject
    · simp [hequal]
    · simp [hequal, ih]

/-- The mark that ends a default is taken off, if it has one. -/
theorem Default.withoutEnd (d : Default) :
    (Text.before? "@break".toList (Text.trimEnd (d.content ++ d.close))).getD
      (d.content ++ d.close) = d.content := by
  unfold close
  cases hending : d.ending with
  | none =>
    rw [List.append_nil]
    cases hbefore : Text.before? "@break".toList (Text.trimEnd d.content) with
    | none => rfl
    | some front =>
      have htrim := Text.before?_eq_some_iff.mp hbefore
      have hoccurs : "@break".toList <:+: Text.trimEnd d.content :=
        ⟨front, [], by rw [htrim, List.append_nil]⟩
      have hkept := Text.dropEnd_isPrefix isBlank d.content
      exact absurd (hoccurs.trans hkept.isInfix) (d.unmarked_content _ (by decide))
  | some blanks =>
    have hlast : ∀ c ∈ (d.content ++ "@break".toList).getLast?, isBlank c = false := by
      intro c hc
      rw [List.getLast?_append] at hc
      obtain rfl := Option.some.inj hc
      decide +kernel
    have htrim : Text.trimEnd (d.content ++ "@break".toList ++ blanks) =
        d.content ++ "@break".toList :=
      Text.dropEnd_run (d.isBlank_ending blanks hending) hlast
    rw [← List.append_assoc, htrim, Text.before?_eq_some_iff.mpr rfl]
    rfl

/-- The default is what stands behind its mark, without the mark that ends it. -/
theorem Block.defaultContent_body (b : Block) :
    defaultContent b.body = b.default.elim [] Default.content := by
  have harms := passes_arms b.arms (m := "@default".toList) (by decide) (by decide) (by decide)
  have hgap : ∀ s, Passes (Reader.literal "@default".toList).read b.gap s :=
    passes_of_at_not_mem (by decide) (at_not_mem_of_blank b.isBlank_gap)
  have hfront : ∀ s, Passes (Reader.literal "@default".toList).read
      (b.arms.flatMap Arm.text ++ b.gap) s :=
    fun s => (harms _).append (hgap s)
  unfold defaultContent body tail
  rw [← List.append_assoc]
  cases b.default with
  | none =>
    rw [Option.elim_none, List.append_nil, Text.cut?_eq_none (by decide) (hfront [])]
    rfl
  | some d =>
    have hcut : Text.cut? "@default".toList
        (b.arms.flatMap Arm.text ++ b.gap ++ d.text) = _ :=
      Text.cut?_mark (by decide) (hfront ("@default".toList ++ (d.content ++ d.close)))
    rw [Option.elim_some, hcut]
    exact d.withoutEnd

/-- Behind the last case there is no other one. -/
theorem Block.next?_tail (b : Block) : Case.next? b.tail = .ok none := by
  have hpasses : Passes (Reader.literal "@case(".toList).read b.tail [] := by
    apply b.passes_tail (by decide) (by decide) (by decide)
    rintro c ⟨⟩
  rw [Case.next?, Text.cut?_eq_none (by decide) hpasses]

/-- A switch that is written shows what it should, without a warning. -/
theorem Block.show_found (context : Context) (b : Block) :
    Found.show context (.block b.subject b.body) = pure (b.shown context) := by
  have hcase : findCase context (normalize context b.subject) b.body = _ :=
    findCase_arms context (normalize context b.subject) b.arms b.next?_tail
  rw [Found.show, select, hcase, pure_bind, b.defaultContent_body, Block.shown]
  cases b.arms.find? _ <;> rfl

end Reading

/-! ## Pages -/

/-- A page of switches and texts without the beginning of one. -/
abbrev Page : Type :=
  Interleaved (fun t => ¬ opening <:+: t) Block

/-- **Expanding a page keeps its texts and puts in what each switch shows**, which is the content of
its first case that is compared as the same text as the subject, or else the default. Nothing is
warned about, and directives in what is shown stay as they are. -/
theorem expand_blocks (context : Context) (p : Page) :
    expand context (p.text Block.text) = pure (p.text (Block.shown context)) := by
  have hbegins : ∀ b : Block, opening <+: b.text := fun b => List.prefix_append _ _
  rw [expand, Interleaved.expandM_text_of_mark rfl (by decide) (fun _ => read_eq_none) hbegins
    Block.read_text]
  simp only [Block.show_found]
  exact Interleaved.textM_pure (Block.shown context) p

/-- A default is shown when no case has the value of the subject, and what stands in it is kept. -/
example :
    let arm : Arm :=
      { value := "2".toList, content := "b".toList, gap := " ".toList,
        isBlank_gap := List.all_eq_true.mp rfl, isArgument_value := by decide,
        unmarked_value := by decide +kernel, unmarked_content := by decide +kernel }
    let default : Default :=
      { content := " @switch(".toList, ending := some " ".toList,
        unmarked_content := by decide +kernel,
        isBlank_ending := by
          rintro _ ⟨⟩
          exact List.all_eq_true.mp rfl }
    let block : Block :=
      { subject := "$x".toList, arms := [arm], gap := " ".toList, default := some default,
        isArgument_subject := by decide, isBlank_gap := List.all_eq_true.mp rfl }
    let page : Page :=
      { parts := [("a".toList, block)], last := "c".toList,
        kind := by decide +kernel, kind_last := by decide +kernel }
    page.text Block.text =
        "a@switch($x) @case(2)b@break @default @switch(@break @endswitchc".toList ∧
      page.text (Block.shown .empty) = "a @switch(c".toList := by
  refine ⟨rfl, ?_⟩
  decide +kernel

end HtmlViews.Switch
