import HtmlViews.Session.CsrfToken

/-!
# Which texts are accepted as a token

A text that a form sent back is compared with the token byte by byte, and the differences of all
bytes are gathered before any is looked at. None of them can be lost on the way, so what is accepted
is the token itself. Asking whether a text is accepted makes no difference to what is asked later.

The comparison does not stop at the first difference. It takes the exclusive or of each pair of
bytes and gathers all bits by an inclusive or, so a difference in one byte cannot be undone by
another byte; what was gathered is zero exactly if every pair is equal, by induction on the row.
Rows of different lengths are told apart before. Texts are compared as their bytes in UTF-8, which
say which text it is.

Requests are served one after the other, each at its time; to leave the validations out changes no
other answer and not the token, since a validation does not change it.

* **constantTimeEqual_iff** — gathered differences tell equal rows of bytes from all others.
* **CsrfToken.validate_iff** — a text is accepted if it is the token and the token has not expired.
* **CsrfToken.validate_iff_current** — what is accepted is what a form would carry now.
* **CsrfToken.serve** — the answers to requests, and the token after them.
* **CsrfToken.validate_exact** — the token alone is accepted, and validations leave no trace.
-/

namespace HtmlViews

/-! ## Gathered differences -/

/-- Nothing that was gathered is lost when more is gathered. -/
theorem foldl_or_eq_zero_iff (differences : List UInt8) (gathered : UInt8) :
    differences.foldl (fun gathered x => gathered ||| x) gathered = 0 ↔
      gathered = 0 ∧ ∀ x ∈ differences, x = 0 := by
  induction differences generalizing gathered with
  | nil => simp
  | cons x differences ih =>
    rw [List.foldl_cons, ih, UInt8.or_eq_zero_iff, List.forall_mem_cons, and_assoc]

/-- Rows of one length without a difference are equal. -/
theorem forall_mem_zipWith_xor_iff {a b : List UInt8} (h : a.length = b.length) :
    (∀ x ∈ List.zipWith (fun x y => x ^^^ y) a b, x = 0) ↔ a = b := by
  induction a generalizing b with
  | nil =>
    obtain rfl := List.length_eq_zero_iff.mp h.symm
    simp
  | cons x a ih =>
    cases b with
    | nil => cases h
    | cons y b =>
      rw [List.zipWith_cons_cons, List.forall_mem_cons, UInt8.xor_eq_zero_iff,
        ih (Nat.succ.inj h), List.cons.injEq]

/-- The comparison that takes the same time for all bytes finds exactly equal bytes equal. -/
theorem constantTimeEqual_iff (a b : List UInt8) : constantTimeEqual a b = true ↔ a = b := by
  unfold constantTimeEqual
  by_cases h : a.length = b.length
  · rw [if_pos h, beq_iff_eq, foldl_or_eq_zero_iff, forall_mem_zipWith_xor_iff h]
    simp
  · rw [if_neg h]
    refine ⟨fun hfalse => (Bool.false_ne_true hfalse).elim, fun heq => ?_⟩
    exact absurd (congrArg List.length heq) h

/-- The differences of the two bytes are the same, and do not cancel each other. -/
example : constantTimeEqual [1, 2] [2, 1] = false := by
  decide

/-- Texts with the same bytes are equal. -/
theorem toUTF8_toList_inj {s t : String} :
    s.toUTF8.data.toList = t.toUTF8.data.toList ↔ s = t := by
  constructor
  · intro h
    exact String.toByteArray_inj.mp (ByteArray.ext (Array.toList_inj.mp h))
  · rintro rfl
    rfl

namespace CsrfToken

variable {t : CsrfToken} {now : Nat} {candidate : String}

/-! ## One token -/

/-- A token is good as long as it is no older than its lifetime. -/
theorem expired_eq_false_iff : t.expired now = false ↔ now - t.issuedAt ≤ t.lifetime := by
  rw [expired, decide_eq_false_iff_not, Nat.not_lt]

/-- A text is accepted exactly if the token is not older than its lifetime and the text is the
token. -/
theorem validate_iff :
    t.validate now candidate = true ↔
      now - t.issuedAt ≤ t.lifetime ∧ candidate = t.value := by
  rw [validate, Bool.and_eq_true, Bool.not_eq_true', expired_eq_false_iff, constantTimeEqual_iff,
    toUTF8_toList_inj, eq_comm (a := t.value)]

/-- A fresh token has not expired. -/
theorem expired_issue (lifetime now : Nat) (bytes : List UInt8) :
    (issue lifetime now bytes).expired now = false := by
  rw [expired_eq_false_iff]
  show now - now ≤ lifetime
  omega

/-- What is accepted is exactly what a form would carry now, without a new token being issued for
it, whatever the bytes of that would be. -/
theorem validate_iff_current :
    t.validate now candidate = true ↔ ∀ fresh, t.current now fresh = (candidate, t) := by
  rw [validate_iff, ← expired_eq_false_iff]
  cases hexpired : t.expired now with
  | true =>
    refine ⟨fun h => (Bool.false_ne_true h.1.symm).elim, fun h => ?_⟩
    have hfresh : issue t.lifetime now [] = t := by
      simpa [current, hexpired] using congrArg Prod.snd (h [])
    rw [← hfresh, expired_issue] at hexpired
    cases hexpired
  | false => simp [current, hexpired, eq_comm]

/-! ## A token over time -/

/-- What can be asked of a token. -/
inductive Request where
  /-- The token for a form, with the bytes of a fresh one in case that it has expired. -/
  | current (fresh : List UInt8)
  /-- Whether a text is accepted. -/
  | validate (candidate : String)
deriving DecidableEq, Repr

/-- The answer to a request. -/
inductive Answer where
  /-- The token for a form. -/
  | token (value : String)
  /-- Whether a text is accepted. -/
  | accepted (yes : Bool)
deriving DecidableEq, Repr

/-- Whether a request asks for the token for a form. -/
def Request.asksToken : Request → Bool
  | .current _ => true
  | .validate _ => false

/-- Whether an answer is the token for a form. -/
def Answer.isToken : Answer → Bool
  | .token _ => true
  | .accepted _ => false

/-- The answer to a request at a time, and the token after it. -/
def Request.run (now : Nat) : Request → CsrfToken → Answer × CsrfToken
  | .current fresh, t => (.token (t.current now fresh).1, (t.current now fresh).2)
  | .validate candidate, t => (.accepted (t.validate now candidate), t)

/-- The answers to requests at their times, and the token after them. -/
def serve : List (Nat × Request) → CsrfToken → List Answer × CsrfToken
  | [], t => ([], t)
  | (now, request) :: later, t =>
    let (answer, t) := request.run now t
    let (answers, t) := serve later t
    (answer :: answers, t)

/-- The first request is served first, and leaves the token to the later ones. -/
theorem serve_cons (now : Nat) (request : Request) (later : List (Nat × Request))
    (t : CsrfToken) :
    serve ((now, request) :: later) t =
      ((request.run now t).1 :: (serve later (request.run now t).2).1,
        (serve later (request.run now t).2).2) :=
  rfl

/-- Without the validations among them, requests leave the same token and get the same answers. -/
theorem serve_filter (history : List (Nat × Request)) (t : CsrfToken) :
    serve (history.filter fun e => e.2.asksToken) t =
      ((serve history t).1.filter Answer.isToken, (serve history t).2) := by
  induction history generalizing t with
  | nil => rfl
  | cons e later ih =>
    obtain ⟨now, request⟩ := e
    cases request with
    | current fresh =>
      rw [List.filter_cons_of_pos rfl, serve_cons, serve_cons, ih]
      rfl
    | validate candidate =>
      rw [List.filter_cons_of_neg Bool.false_ne_true, ih, serve_cons]
      rfl

/-- **The current token is accepted, and nothing else is.** Two rows of bytes are told apart
whatever the differences between them are. So a text is accepted exactly if the token is not older
than its lifetime and the text is the token: the one that a form would carry now, without a new one
being issued. Validations neither change nor replace the token. Whatever is asked of it, they make
no difference to the token after that, nor to the tokens that forms carry meanwhile. -/
theorem validate_exact (t : CsrfToken) :
    (∀ a b, constantTimeEqual a b = true ↔ a = b) ∧
    (∀ now candidate, t.validate now candidate = true ↔
      now - t.issuedAt ≤ t.lifetime ∧ candidate = t.value) ∧
    (∀ now candidate, t.validate now candidate = true ↔
      ∀ fresh, t.current now fresh = (candidate, t)) ∧
    ∀ history, serve (history.filter fun e => e.2.asksToken) t =
      ((serve history t).1.filter Answer.isToken, (serve history t).2) :=
  ⟨constantTimeEqual_iff, fun _ _ => validate_iff, fun _ _ => validate_iff_current,
    fun history => serve_filter history t⟩

/-- A token is accepted until it is older than its lifetime, and is not replaced before a form asks
for it. -/
example :
    let t := issue 10 5 [255]
    (serve [(15, .validate "ff"), (16, .validate "ff"), (17, .current [0])] t) =
      ([.accepted true, .accepted false, .token "00"], issue 10 17 [0]) := by
  decide

end CsrfToken

end HtmlViews
