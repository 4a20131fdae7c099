import HtmlViews.Proofs.Crash.Directive
import HtmlViews.Proofs.Text.Balance
import Mathlib.Order.Bounds.Basic

/-!
# Where an argument ends

The search for the end of an argument keeps the quote that it stands in and a count of the
parentheses that are open. What it finds can be said without either: the strings are left out, and
the argument ends at the first closing parenthesis up to which as many parentheses are closed as are
opened.

The search is followed from left to right. As long as it has not ended, its count is the number of
parentheses that are open and closed in what it has read, strings left out
(**Text.Unquoted.ends_or_leads**), and at no time more are closed than opened
(**Text.Unquoted.count_le**). Where both numbers are equal, the search ends; and since it ends at the
first such place, the place is the least one. In the other direction, where such a place exists, the
text up to it closes its strings and parentheses, so the search ends there or before.

Places are numbers of bytes. They are compared as lengths of beginnings of the text.

* **Text.Unquoted** — a text and what is left of it without its strings.
* **Text.Leads** — that the search goes on behind a text with a certain count.
* **Text.Unquoted.ends_or_leads** — what the search does with a text that closes its strings.
* **Text.Closes** — the places up to which as many parentheses are closed as are opened.
* **Text.closingOffset?_isLeast** — the search finds the first of these places.
-/

namespace HtmlViews.Text

/-! ## Texts without their strings -/

/-- `u` is `p` without its strings. A string begins at a quote and ends at the next same quote, and
all strings that begin in `p` end in it. -/
inductive Unquoted : (p u : Text) → Prop
  | nil : Unquoted [] []
  | plain {c : Char} {p u : Text} (hc : isQuote c = false) (h : Unquoted p u) :
    Unquoted (c :: p) (c :: u)
  | string {q : Char} {body p u : Text} (hq : isQuote q = true) (hbody : q ∉ body)
    (h : Unquoted p u) : Unquoted (q :: (body ++ q :: p)) u

/-- The same for a text in front of which a string with the quote `quote` may have begun. -/
def UnquotedIn : (quote : Option Char) → (p u : Text) → Prop
  | none, p, u => Unquoted p u
  | some q, p, u => ∃ body r, q ∉ body ∧ p = body ++ q :: r ∧ Unquoted r u

/-- A quote begins a string. -/
theorem UnquotedIn.unquoted_cons {q : Char} {p u : Text} (hq : isQuote q = true)
    (h : UnquotedIn (some q) p u) : Unquoted (q :: p) u := by
  obtain ⟨body, r, hbody, rfl, hr⟩ := h
  exact .string hq hbody hr

/-- A character of a string is its closing quote, or the string goes on behind it. -/
theorem UnquotedIn.cons {q c : Char} {p u : Text}
    (h : UnquotedIn (if c = q then none else some q) p u) : UnquotedIn (some q) (c :: p) u := by
  by_cases hc : c = q
  · rw [if_pos hc] at h
    exact ⟨[], p, List.not_mem_nil, by rw [hc]; rfl, h⟩
  · rw [if_neg hc] at h
    obtain ⟨body, r, hbody, rfl, hr⟩ := h
    have hfree : q ∉ c :: body := by
      simp [hbody, Ne.symm hc]
    exact ⟨c :: body, r, hfree, rfl, hr⟩

/-! ## Steps of the search -/

/-- Whether the search goes on behind `p` with `d` parentheses open when `depth` of them are open
before it. -/
def Leads (p : Text) (depth d : Nat) : Prop :=
  ∀ s, closingFrom depth none (p ++ s) =
    (closingFrom d none s).map fun (inside, r) => (p ++ inside, r)

namespace Leads

variable {p q s inside r : Text} {depth d e : Nat}

/-- Without any text the search stays at its depth. -/
theorem nil (depth : Nat) : Leads [] depth depth :=
  Balanced.nil depth

/-- The search goes on from one text into the next. -/
theorem append (hp : Leads p depth d) (hq : Leads q d e) : Leads (p ++ q) depth e := by
  intro s
  rw [List.append_assoc, hp, hq, Option.map_map]
  simp [Function.comp_def]

/-- What the search finds behind `p` is found with `p` before it. -/
theorem found (hp : Leads p depth d) (h : closingFrom d none s = some (inside, r)) :
    closingFrom depth none (p ++ s) = some (p ++ inside, r) := by
  rw [hp, h]
  rfl

/-- The search ends in `q` or goes on behind it, with `p` before as without. -/
theorem ends_or_leads {P Q : Nat → Prop} (hp : Leads p depth d) (hcount : ∀ e, P e → Q e)
    (h : (∃ inside r, closingFrom d none q = some (inside, r)) ∨ ∃ e, P e ∧ Leads q d e) :
    (∃ inside r, closingFrom depth none (p ++ q) = some (inside, r)) ∨
      ∃ e, Q e ∧ Leads (p ++ q) depth e := by
  rcases h with ⟨inside, r, h⟩ | ⟨e, he, hq⟩
  · exact .inl ⟨p ++ inside, r, hp.found h⟩
  · exact .inr ⟨e, hcount e he, hp.append hq⟩

end Leads

/-! ## The search and the count -/

namespace Unquoted

variable {p u : Text}

/-- In a text that closes all its strings the search ends, or it goes on behind it and has counted
the parentheses outside of strings. -/
theorem ends_or_leads (h : Unquoted p u) (depth : Nat) :
    (∃ inside r, closingFrom depth none p = some (inside, r)) ∨
      ∃ d, d + u.count ')' = depth + u.count '(' ∧ Leads p depth d := by
  induction h generalizing depth with
  | nil => exact .inr ⟨depth, rfl, .nil depth⟩
  | @plain c p u hc _ ih =>
    rcases eq_paren_or_isNeutral hc with rfl | rfl | hneutral
    · have hstep : Leads ['('] depth (depth + 1) := closingFrom_opening depth
      refine hstep.ends_or_leads (fun d hd => ?_) (ih (depth + 1))
      rw [List.count_cons_self, List.count_cons_of_ne (by decide)]
      omega
    · cases depth with
      | zero => exact .inl ⟨[], p, rfl⟩
      | succ depth =>
        have hstep : Leads [')'] (depth + 1) depth := closingFrom_closing depth
        refine hstep.ends_or_leads (fun d hd => ?_) (ih depth)
        rw [List.count_cons_self, List.count_cons_of_ne (by decide)]
        omega
    · have hstep : Leads [c] depth depth := Balanced.neutral hneutral depth
      obtain ⟨-, hopening, hclosing⟩ := isNeutral_iff.mp hneutral
      rw [List.count_cons_of_ne hopening, List.count_cons_of_ne hclosing]
      exact hstep.ends_or_leads (fun _ => id) (ih depth)
  | @string q body p u hq hbody _ ih =>
    have hstep : Leads (q :: body ++ [q]) depth depth := Balanced.quoted hq hbody depth
    have hshape : q :: (body ++ q :: p) = q :: body ++ [q] ++ p := by simp
    rw [hshape]
    exact hstep.ends_or_leads (fun _ => id) (ih depth)

/-- A text that closes its strings and its parentheses ends at the parenthesis behind it, if not
before. -/
theorem exists_closing? (h : Unquoted p u) (heven : u.count ')' = u.count '(') (r : Text) :
    ∃ inside t, closing? (p ++ ')' :: r) = some (inside, t) ∧ inside <+: p := by
  rcases h.ends_or_leads 0 with ⟨inside, t, hends⟩ | ⟨d, hd, hleads⟩
  · refine ⟨inside, t ++ ')' :: r, closingFrom_append _ hends, ?_⟩
    exact ⟨')' :: t, (eq_of_closingFrom hends).symm⟩
  · obtain rfl : d = 0 := by omega
    refine ⟨p, r, ?_, List.prefix_rfl⟩
    rw [closing?, hleads]
    simp [closingFrom, isQuote]

/-- As long as the search goes on, no more parentheses are closed than are opened. -/
theorem count_le (h : Unquoted p u) {r : Text}
    (hreached : ∀ inside t, closing? (p ++ ')' :: r) = some (inside, t) → ¬ inside ++ [')'] <+: p) :
    u.count ')' ≤ u.count '(' := by
  rcases h.ends_or_leads 0 with ⟨inside, t, hends⟩ | ⟨d, hd, -⟩
  · refine absurd ?_ (hreached inside (t ++ ')' :: r) (closingFrom_append _ hends))
    exact ⟨t, by rw [eq_of_closingFrom hends]; simp⟩
  · omega

end Unquoted

/-- What the search finds closes its strings, and its parentheses with those open before. -/
theorem exists_unquoted_of_closingFrom {depth : Nat} {quote : Option Char} {s inside r : Text}
    (h : closingFrom depth quote s = some (inside, r)) :
    ∃ u, UnquotedIn quote inside u ∧ u.count ')' = depth + u.count '(' := by
  induction s generalizing depth quote inside with
  | nil => simp [closingFrom] at h
  | cons c s ih =>
    have tail : ∀ {d : Nat} {q : Option Char},
        (closingFrom d q s).map (fun (i, t) => (c :: i, t)) = some (inside, r) →
          ∃ i u, inside = c :: i ∧ UnquotedIn q i u ∧ u.count ')' = d + u.count '(' := by
      intro d q hd
      simp only [Option.map_eq_some_iff, Prod.exists, Prod.mk.injEq] at hd
      obtain ⟨i, t, hi, rfl, rfl⟩ := hd
      obtain ⟨u, hu, hcount⟩ := ih hi
      exact ⟨i, u, rfl, hu, hcount⟩
    cases quote with
    | some q =>
      obtain ⟨i, u, rfl, hu, hcount⟩ := tail h
      exact ⟨u, hu.cons, hcount⟩
    | none =>
      by_cases hquote : isQuote c = true
      · rw [closingFrom_quote hquote] at h
        obtain ⟨i, u, rfl, hu, hcount⟩ := tail h
        exact ⟨u, hu.unquoted_cons hquote, hcount⟩
      · have hplain : isQuote c = false := Bool.eq_false_iff.mpr hquote
        rcases eq_paren_or_isNeutral hplain with rfl | rfl | hneutral
        · rw [closingFrom_opening] at h
          obtain ⟨i, u, rfl, hu, hcount⟩ := tail h
          refine ⟨'(' :: u, .plain hplain hu, ?_⟩
          rw [List.count_cons_self, List.count_cons_of_ne (by decide)]
          omega
        · cases depth with
          | zero =>
            obtain ⟨rfl, rfl⟩ := Prod.mk.inj (Option.some.inj h)
            exact ⟨[], .nil, rfl⟩
          | succ depth =>
            obtain ⟨i, u, rfl, hu, hcount⟩ := tail h
            refine ⟨')' :: u, .plain hplain hu, ?_⟩
            rw [List.count_cons_self, List.count_cons_of_ne (by decide)]
            omega
        · rw [closingFrom_neutral hneutral] at h
          obtain ⟨i, u, rfl, hu, hcount⟩ := tail h
          obtain ⟨-, hopening, hclosing⟩ := isNeutral_iff.mp hneutral
          refine ⟨c :: u, .plain hplain hu, ?_⟩
          rw [List.count_cons_of_ne hopening, List.count_cons_of_ne hclosing, hcount]

/-! ## Places -/

/-- At the place `c` behind the place `opening` stands a closing parenthesis outside of strings,
when the text is read from `opening` on; `u` is what stands before it without strings. -/
structure ClosingAt (s : Text) (opening c : Nat) (u : Text) : Prop where
  behind : opening < c
  closing : (c, ')') ∈ charIndices 0 s
  unquoted : Unquoted (s.between opening c) u

/-- A place behind `opening` with a closing parenthesis outside of strings, up to which as many
parentheses are closed as are opened outside of strings, those at both places included. -/
def Closes (s : Text) (opening c : Nat) : Prop :=
  ∃ u, ClosingAt s opening c u ∧ (u ++ [')']).count '(' = (u ++ [')']).count ')'

/-- The search at an opening parenthesis gives the place behind its argument. -/
theorem closingOffset?_append (front t : Text) :
    closingOffset? (front ++ '(' :: t) front.utf8Length =
      (closing? t).map fun (inside, _) => front.utf8Length + (1 + utf8Length inside) := by
  rw [closingOffset?, dropBytes?_append]
  simp only [Nat.add_assoc]

/-- A balanced text between parentheses ends at the second one. -/
theorem Balanced.closingOffset? {p : Text} (h : p.Balanced) (front s : Text) :
    closingOffset? (front ++ '(' :: (p ++ ')' :: s)) front.utf8Length =
      some (front.utf8Length + (1 + p.utf8Length)) := by
  rw [closingOffset?_append, h.argument.closing?]
  rfl

/-- The places of closing parentheses are those behind a part of the argument. -/
theorem closingAt_iff {front t u : Text} {c : Nat} :
    ClosingAt (front ++ '(' :: t) front.utf8Length c u ↔
      ∃ p r v, t = p ++ ')' :: r ∧ c = front.utf8Length + (1 + utf8Length p) ∧ u = '(' :: v ∧
        Unquoted p v := by
  have hplace : ∀ p : Text, front.utf8Length + (1 + p.utf8Length) =
      front.utf8Length + utf8Length ('(' :: p) := fun _ => rfl
  have hbetween : ∀ p r : Text, between (front ++ '(' :: (p ++ ')' :: r)) front.utf8Length
      (front.utf8Length + (1 + p.utf8Length)) = '(' :: p :=
    fun p r => between_append front ('(' :: p) (')' :: r)
  constructor
  · rintro ⟨hbehind, hclosing, hunquoted⟩
    obtain ⟨before, r, hsplit, rfl⟩ := mem_charIndices_iff.mp hclosing
    rw [Nat.zero_add] at hbehind hunquoted
    rcases append_eq_append_cons hsplit with ⟨p, rfl, hp⟩ | ⟨back, rfl, -⟩
    · cases p with
      | nil => cases hp
      | cons d p =>
        simp only [List.cons_append, List.cons.injEq] at hp
        obtain ⟨rfl, rfl⟩ := hp
        rw [utf8Length_append, ← hplace, hbetween] at hunquoted
        cases hunquoted with
        | plain _ h => exact ⟨p, r, _, rfl, by rw [Nat.zero_add, utf8Length_append]; rfl, rfl, h⟩
        | string hq => cases hq
    · rw [utf8Length_append] at hbehind
      omega
  · rintro ⟨p, r, v, rfl, rfl, rfl, h⟩
    refine ⟨by omega, ?_, ?_⟩
    · apply mem_charIndices_iff.mpr
      exact ⟨front ++ '(' :: p, r, by simp, by rw [Nat.zero_add, utf8Length_append]; rfl⟩
    · rw [hbetween]
      exact .plain rfl h

/-- A place closes the opening one exactly if a closing parenthesis stands there outside of strings
and, strings apart, as many are opened as closed between the two. -/
theorem closes_iff {front t : Text} {c : Nat} :
    Closes (front ++ '(' :: t) front.utf8Length c ↔
      ∃ p r v, t = p ++ ')' :: r ∧ c = front.utf8Length + (1 + utf8Length p) ∧ Unquoted p v ∧
        v.count ')' = v.count '(' := by
  have hcount : ∀ v : Text, ('(' :: v ++ [')']).count '(' = ('(' :: v ++ [')']).count ')' ↔
      v.count ')' = v.count '(' := by
    intro v
    simp [List.count_append]
    omega
  constructor
  · rintro ⟨u, hat, heven⟩
    obtain ⟨p, r, v, ht, hc, rfl, hv⟩ := closingAt_iff.mp hat
    exact ⟨p, r, v, ht, hc, hv, (hcount v).mp heven⟩
  · rintro ⟨p, r, v, ht, hc, hv, heven⟩
    exact ⟨'(' :: v, closingAt_iff.mpr ⟨p, r, v, ht, hc, rfl, hv⟩, (hcount v).mpr heven⟩

/-! ## The end of an argument -/

/-- A beginning has no more bytes. -/
theorem utf8Length_le_of_prefix {p q : Text} (h : p <+: q) : p.utf8Length ≤ q.utf8Length := by
  obtain ⟨r, rfl⟩ := h
  rw [utf8Length_append]
  exact Nat.le_add_right _ _

section Places

variable {front t u : Text} {c : Nat}

/-- The place that is found closes the argument. -/
theorem closes_of_closingOffset?
    (h : closingOffset? (front ++ '(' :: t) front.utf8Length = some c) :
    Closes (front ++ '(' :: t) front.utf8Length c := by
  rw [closingOffset?_append] at h
  simp only [Option.map_eq_some_iff, Prod.exists] at h
  obtain ⟨inside, r, hclosing, rfl⟩ := h
  obtain ⟨u, hu, hcount⟩ := exists_unquoted_of_closingFrom hclosing
  rw [Nat.zero_add] at hcount
  exact closes_iff.mpr ⟨inside, r, u, eq_of_closing? hclosing, rfl, hu, hcount⟩

/-- Where a place closes the argument, one that is not behind it is found. -/
theorem exists_closingOffset?_le (h : Closes (front ++ '(' :: t) front.utf8Length c) :
    ∃ d ≤ c, closingOffset? (front ++ '(' :: t) front.utf8Length = some d := by
  obtain ⟨p, r, v, rfl, rfl, hv, heven⟩ := closes_iff.mp h
  obtain ⟨inside, u, hclosing, hbegins⟩ := hv.exists_closing? heven r
  refine ⟨front.utf8Length + (1 + utf8Length inside), ?_, ?_⟩
  · have := utf8Length_le_of_prefix hbegins
    omega
  · rw [closingOffset?_append, hclosing]
    rfl

/-- Up to the place that is found, every closing parenthesis outside of strings closes one that is
open. -/
theorem ClosingAt.count_lt (h : ClosingAt (front ++ '(' :: t) front.utf8Length c u)
    (hreached : ∀ d, closingOffset? (front ++ '(' :: t) front.utf8Length = some d → c ≤ d) :
    u.count ')' < u.count '(' := by
  obtain ⟨p, r, v, rfl, rfl, rfl, hv⟩ := closingAt_iff.mp h
  have hle : v.count ')' ≤ v.count '(' := by
    apply hv.count_le
    intro inside u hclosing hbegins
    have hlength := utf8Length_le_of_prefix hbegins
    have hplace := hreached (front.utf8Length + (1 + utf8Length inside)) <| by
      rw [closingOffset?_append, hclosing]
      rfl
    rw [utf8Length_append, utf8Length_cons] at hlength
    have := ')'.utf8Size_pos
    omega
  rw [List.count_cons_self, List.count_cons_of_ne (by decide)]
  omega

end Places

/-- **An argument ends at the first closing parenthesis outside of strings up to which as many
parentheses are closed as are opened**, those outside of strings counted from the opening one on; if
there is none, it does not end. The end is the place of a character, and every closing parenthesis
outside of strings on the way to it closes one that is open: so the search that keeps count of those
never counts below zero, and finds the same place. -/
theorem closingOffset?_isLeast {s : Text} {opening : Nat} (h : (opening, '(') ∈ charIndices 0 s) :
    (∀ c, closingOffset? s opening = some c ↔ IsLeast {c | Closes s opening c} c) ∧
    (closingOffset? s opening = none ↔ ∀ c, ¬ Closes s opening c) ∧
    (∀ c, closingOffset? s opening = some c → s.IsBoundary c) ∧
    closingParen s opening = .ok (closingOffset? s opening) ∧
    ∀ c u, ClosingAt s opening c u → (∀ d, closingOffset? s opening = some d → c ≤ d) →
      u.count ')' < u.count '(' := by
  obtain ⟨front, t, rfl, hopening⟩ := mem_charIndices_iff.mp h
  obtain rfl : opening = front.utf8Length := hopening.trans (Nat.zero_add _)
  have hleast : ∀ c, closingOffset? (front ++ '(' :: t) front.utf8Length = some c →
      IsLeast {c | Closes (front ++ '(' :: t) front.utf8Length c} c := by
    intro c hc
    refine ⟨closes_of_closingOffset? hc, fun d hd => ?_⟩
    obtain ⟨e, he, hfound⟩ := exists_closingOffset?_le hd
    rwa [← Option.some.inj (hfound.symm.trans hc)]
  refine ⟨fun c => ⟨hleast c, fun hc => ?_⟩, ⟨fun hnone c hc => ?_, fun hnone => ?_⟩, ?_, ?_, ?_⟩
  · obtain ⟨d, -, hfound⟩ := exists_closingOffset?_le hc.1
    rw [hfound, (hleast d hfound).unique hc]
  · obtain ⟨d, -, hfound⟩ := exists_closingOffset?_le hc
    rw [hnone] at hfound
    cases hfound
  · apply Option.eq_none_iff_forall_ne_some.mpr
    intro c hc
    exact hnone c (closes_of_closingOffset? hc)
  · intro c hc
    obtain ⟨u, hat, -⟩ := closes_of_closingOffset? hc
    obtain ⟨before, r, hsplit, hplace⟩ := mem_charIndices_iff.mp hat.closing
    rw [Nat.zero_add] at hplace
    exact isBoundary_iff.mpr ⟨before, ')' :: r, hsplit, hplace⟩
  · rw [closingParen_append, closingOffset?_append]
  · intro c u hat hreached
    exact hat.count_lt hreached

/-- The first closing parenthesis stands in a string, the second one closes an inner one, and behind
the end of the argument stands a string that does not end. -/
theorem closingOffset?_isLeast_strings :
    (2, '(') ∈ charIndices 0 "é(')' == (\"é'\")) 'é)".toList ∧
      IsLeast {c | Closes "é(')' == (\"é'\")) 'é)".toList 2 c} 17 ∧
      IsBoundary "é(')' == (\"é'\")) 'é)".toList 17 := by
  have hopening : (2, '(') ∈ charIndices 0 "é(')' == (\"é'\")) 'é)".toList := by decide
  have hfound : closingOffset? "é(')' == (\"é'\")) 'é)".toList 2 = some 17 := rfl
  obtain ⟨hleast, -, hboundary, -⟩ := closingOffset?_isLeast hopening
  exact ⟨hopening, (hleast 17).mp hfound, hboundary 17 hfound⟩

end HtmlViews.Text
