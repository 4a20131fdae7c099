import HtmlViews.Condition.Token

/-!
# Cutting a condition into tokens

One walk from left to right decides whether a text is a condition at all: it alternates between
places where an operand is due and places behind an operand, and counts the parentheses that are
open. Whatever is wrong with the form of a condition is found here, at the first character that
cannot go on.

Every token leaves a shorter text, which is why the walk ends. Between tokens there may be gaps;
they are dropped before anything is looked for, so the place of an error is never in a gap. A
parenthesis may close only as many as are open, and at the end of the text none may be open; both
are decided here, with a count and without a stack.

* **Place** — where the walk stands.
* **Expected** — what could have stood at the place of a syntax error.
* **scan** — the tokens of a condition, or the place where it stops being one.
-/

namespace HtmlViews.Condition

/-- Where the reading of a condition stands. -/
inductive Place where
  /-- An operand is due; `fresh` at the beginning of the condition or of a parenthesis. -/
  | operand (fresh : Bool)
  /-- An operand was read. -/
  | behind
deriving DecidableEq, Repr

/-- What could have stood where a condition stops being one. -/
inductive Expected where
  /-- A whole expression. -/
  | expression
  /-- An operand of an operator, or a further negation. -/
  | operand
  /-- An operator inside of parentheses. -/
  | operator
  /-- An operator, or the end of the condition. -/
  | operatorOrEnd
deriving DecidableEq, Repr

/-- A place where a condition stops being one. -/
structure SyntaxError where
  /-- The text from that place on. -/
  rest : Text
  /-- What could have stood there. -/
  expected : Expected
deriving DecidableEq, Repr

/-- The tokens of a text from a place on, with `depth` parentheses open. -/
def scanFrom (place : Place) (depth : Nat) (s : Text) : Except SyntaxError (List Token) :=
  match place with
  | .operand fresh =>
    match hs : dropGap s with
    | '(' :: r => (scanFrom (.operand true) (depth + 1) r).map (.opening :: ·)
    | '!' :: r => (scanFrom (.operand false) depth r).map (.bang :: ·)
    | u =>
      match _ht : operand? u with
      | some (t, r) => (scanFrom .behind depth r).map (t :: ·)
      | none => .error ⟨u, if fresh then .expression else .operand⟩
  | .behind =>
    match _ho : operator? (dropGap s) with
    | some (op, r) => (scanFrom (.operand false) depth r).map (.operator op :: ·)
    | none =>
      match _hs : dropGap s with
      | [] => if depth = 0 then .ok [] else .error ⟨[], .operator⟩
      | c :: r =>
        match depth with
        | 0 => .error ⟨c :: r, .operatorOrEnd⟩
        | outer + 1 =>
          if c = ')' then (scanFrom .behind outer r).map (.closing :: ·)
          else .error ⟨c :: r, .operator⟩
termination_by s.length
decreasing_by
  all_goals
    have hle := length_dropGap_le s
  · rw [hs, List.length_cons] at hle
    omega
  · rw [hs, List.length_cons] at hle
    omega
  · have := length_of_operand? _ht
    rw [hs] at hle
    omega
  · have := length_of_operator? _ho
    omega
  · rw [_hs, List.length_cons] at hle
    omega

/-- The tokens of a condition. -/
def scan (s : Text) : Except SyntaxError (List Token) :=
  scanFrom (.operand true) 0 s

end HtmlViews.Condition
