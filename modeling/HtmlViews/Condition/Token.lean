import HtmlViews.Condition.Syntax

/-!
# Tokens of conditions

A condition is a row of tokens with gaps of spaces, tabs and line ends between them. What a
character begins depends on the place: where an operand is due, `!` negates; behind an operand it
begins an operator.

A token keeps its spelling: the digits of a number, the quote of a string. What a literal stands for
is decided later, when tokens are grouped, so that an integer that is too great is found only in a
condition whose form is right. Strings have no escapes: they end at the next quote of their own
kind, and the other quote may stand in them. Letters of names are those of ASCII.

Every token that is read is what the text begins with, and it has characters; the second part of
this file proves it, since the walk along a text ends because of it.

* **Token** — a token with its spelling.
* **operand?**, **operator?** — the token that a text begins with in either place.
* **Token.spelling** — the characters of a token.
-/

namespace HtmlViews.Condition

/-- A token of a condition. -/
inductive Token where
  /-- Decimal digits, perhaps behind a minus. -/
  | integer (t : Text)
  /-- Decimal digits on both sides of a point, perhaps behind a minus. -/
  | decimal (t : Text)
  /-- A string between two equal quotes. -/
  | quoted (quote : Char) (body : Text)
  /-- A word without quotes: a keyword or a string. -/
  | word (w : Text)
  /-- A name behind a dollar sign. -/
  | variable (name : Text)
  /-- A binary operator. -/
  | operator (op : Operator)
  /-- The negation sign. -/
  | bang
  /-- An opening parenthesis. -/
  | opening
  /-- A closing parenthesis. -/
  | closing
deriving DecidableEq, Repr

/-- The characters of a token. -/
def Token.spelling : Token → Text
  | .integer t => t
  | .decimal t => t
  | .quoted quote body => quote :: body ++ [quote]
  | .word w => w
  | .variable name => '$' :: name
  | .operator op => op.symbol
  | .bang => ['!']
  | .opening => ['(']
  | .closing => [')']

/-! ## Classes of characters -/

/-- Whether a character may stand between tokens. -/
def isGap (c : Char) : Bool :=
  c = ' ' || c = '\t' || c = '\r' || c = '\n'

/-- Whether a character can begin a name. -/
def isNameStart (c : Char) : Bool :=
  ('a' ≤ c && c ≤ 'z') || ('A' ≤ c && c ≤ 'Z') || c = '_'

/-- Whether a character can stand in a name behind its beginning. -/
def isNamePart (c : Char) : Bool :=
  isNameStart c || isDigit c

/-- A text without the gap at its beginning. -/
def dropGap (s : Text) : Text :=
  s.dropWhile isGap

/-! ## Reading tokens -/

/-- A minus at the beginning of a text, if there is one, and what follows. -/
def minus (s : Text) : Text × Text :=
  match s with
  | '-' :: s => (['-'], s)
  | s => ([], s)

/-- The number that a text begins with. A point belongs to it only with digits on both sides. -/
def number? (s : Text) : Option (Token × Text) :=
  let (sign, s) := minus s
  let whole := s.takeWhile isDigit
  let rest := s.dropWhile isDigit
  if whole = [] then none
  else
    match rest with
    | '.' :: behind =>
      if behind.takeWhile isDigit = [] then some (.integer (sign ++ whole), rest)
      else
        some (.decimal (sign ++ whole ++ '.' :: behind.takeWhile isDigit),
          behind.dropWhile isDigit)
    | _ => some (.integer (sign ++ whole), rest)

/-- The string that a text behind an opening quote begins with. -/
def stringBody? (quote : Char) : Text → Option (Text × Text)
  | [] => none
  | c :: s =>
    if c = quote then some ([], s)
    else (stringBody? quote s).map fun (body, r) => (c :: body, r)

/-- The name that a text begins with. -/
def name? (s : Text) : Option (Text × Text) :=
  match s with
  | [] => none
  | c :: s =>
    if isNameStart c then some (c :: s.takeWhile isNamePart, s.dropWhile isNamePart) else none

/-- The literal or the variable that a text begins with. -/
def operand? (s : Text) : Option (Token × Text) :=
  match s with
  | [] => none
  | c :: r =>
    if c = '"' || c = '\'' then (stringBody? c r).map fun (body, r) => (.quoted c body, r)
    else if c = '$' then (name? r).map fun (name, r) => (.variable name, r)
    else if isNameStart c then (name? s).map fun (w, r) => (.word w, r)
    else number? s

/-- The operators in the order in which they are tried: one that begins with another comes before
it. -/
def operators : List Operator :=
  [.or, .and, .identical, .notIdentical, .equal, .notEqual, .lessEqual, .greaterEqual, .less,
   .greater]

/-- The operator that a text begins with. -/
def operator? (s : Text) : Option (Operator × Text) :=
  operators.findSome? fun op => (Text.after? op.symbol s).map fun r => (op, r)

/-! ## Nothing is lost -/

/-- What is read up to a quote stands before it. -/
theorem eq_of_stringBody? {quote : Char} {s body r : Text}
    (h : stringBody? quote s = some (body, r)) : s = body ++ quote :: r := by
  induction s generalizing body with
  | nil => simp [stringBody?] at h
  | cons c s ih =>
    unfold stringBody? at h
    split at h
    · rename_i hc
      simp only [Option.some.injEq, Prod.mk.injEq] at h
      obtain ⟨rfl, rfl⟩ := h
      simp [hc]
    · simp only [Option.map_eq_some_iff, Prod.exists, Prod.mk.injEq] at h
      obtain ⟨b, t, hb, rfl, rfl⟩ := h
      simp [ih hb]

/-- A name that is read stands at the beginning, and has characters. -/
theorem eq_of_name? {s w r : Text} (h : name? s = some (w, r)) : s = w ++ r ∧ w ≠ [] := by
  unfold name? at h
  split at h
  · simp at h
  · split at h
    · simp only [Option.some.injEq, Prod.mk.injEq] at h
      obtain ⟨rfl, rfl⟩ := h
      simp
    · simp at h

/-- A minus is taken off and nothing is lost. -/
theorem minus_append (s : Text) : (minus s).1 ++ (minus s).2 = s := by
  unfold minus
  split <;> simp

/-- A number that is read stands at the beginning as it is spelled. -/
theorem eq_of_number? {s r : Text} {t : Token} (h : number? s = some (t, r)) :
    s = t.spelling ++ r ∧ t.spelling ≠ [] := by
  have hs := minus_append s
  unfold number? at h
  generalize minus s = m at h hs
  obtain ⟨sign, s'⟩ := m
  simp only at h hs
  split at h
  · simp at h
  · rename_i hw
    have hd : s'.takeWhile isDigit ++ s'.dropWhile isDigit = s' :=
      List.takeWhile_append_dropWhile
    split at h
    · rename_i behind hrest
      split at h
      · simp only [Option.some.injEq, Prod.mk.injEq] at h
        obtain ⟨rfl, rfl⟩ := h
        refine ⟨?_, by simp [Token.spelling, hw]⟩
        rw [← hs, Token.spelling, List.append_assoc, hd]
      · simp only [Option.some.injEq, Prod.mk.injEq] at h
        obtain ⟨rfl, rfl⟩ := h
        refine ⟨?_, by simp [Token.spelling]⟩
        have hb : behind.takeWhile isDigit ++ behind.dropWhile isDigit = behind :=
          List.takeWhile_append_dropWhile
        rw [← hs, Token.spelling, List.append_assoc, List.append_assoc, List.cons_append, hb,
          ← hrest, hd]
    · simp only [Option.some.injEq, Prod.mk.injEq] at h
      obtain ⟨rfl, rfl⟩ := h
      refine ⟨?_, by simp [Token.spelling, hw]⟩
      rw [← hs, Token.spelling, List.append_assoc, hd]

/-- An operand that was read is what the text begins with, and it is not empty. -/
theorem eq_of_operand? {s r : Text} {t : Token} (h : operand? s = some (t, r)) :
    s = t.spelling ++ r ∧ t.spelling ≠ [] := by
  unfold operand? at h
  split at h
  · simp at h
  · split at h
    · simp only [Option.map_eq_some_iff, Prod.exists, Prod.mk.injEq] at h
      obtain ⟨body, u, hb, rfl, rfl⟩ := h
      simp [Token.spelling, eq_of_stringBody? hb]
    · split at h
      · rename_i hc
        simp only [Option.map_eq_some_iff, Prod.exists, Prod.mk.injEq] at h
        obtain ⟨name, u, hn, rfl, rfl⟩ := h
        simp [Token.spelling, hc, (eq_of_name? hn).1]
      · split at h
        · simp only [Option.map_eq_some_iff, Prod.exists, Prod.mk.injEq] at h
          obtain ⟨w, u, hn, rfl, rfl⟩ := h
          exact eq_of_name? hn
        · exact eq_of_number? h

/-- Every operator has characters. -/
theorem symbol_ne_nil (op : Operator) : op.symbol ≠ [] := by
  cases op <;> simp [Operator.symbol]

/-- An operator that was read is what the text begins with. -/
theorem eq_of_operator? {s r : Text} {op : Operator} (h : operator? s = some (op, r)) :
    s = op.symbol ++ r := by
  obtain ⟨_, o, _, _, ho, _⟩ := List.findSome?_eq_some_iff.mp h
  simp only [Option.map_eq_some_iff, Prod.mk.injEq] at ho
  obtain ⟨t, ht, rfl, rfl⟩ := ho
  exact Text.after?_eq_some_iff.mp ht

/-- Reading an operand makes the text shorter. -/
theorem length_of_operand? {s r : Text} {t : Token} (h : operand? s = some (t, r)) :
    r.length < s.length := by
  obtain ⟨hs, ht⟩ := eq_of_operand? h
  have := List.length_pos_iff.mpr ht
  rw [hs, List.length_append]
  omega

/-- Reading an operator makes the text shorter. -/
theorem length_of_operator? {s r : Text} {op : Operator} (h : operator? s = some (op, r)) :
    r.length < s.length := by
  have := List.length_pos_iff.mpr (symbol_ne_nil op)
  rw [eq_of_operator? h, List.length_append]
  omega

/-- Without its blanks a text is no longer. -/
theorem length_dropGap_le (s : Text) : (dropGap s).length ≤ s.length :=
  (List.dropWhile_suffix isGap).length_le

end HtmlViews.Condition
