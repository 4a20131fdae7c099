import HtmlViews.Text.Blank

/-!
# Patterns of paths

A pattern describes relative paths, as bytes. A star stands for any bytes of a name, a question mark
for one, and a set between brackets for one of its own, which may be a slash; braces hold choices
between commas, and a backslash takes the meaning from the character behind it. Two stars between
slashes stand for any number of folders. A pattern without a slash describes names at any depth.

A pattern is read into choices, each a row of signs that stand for bytes, and a path is matched
against the row from left to right. The matching is one on bytes and not on characters: a question
mark is one byte, and a set with characters of several bytes is a set of these bytes.

A text that spells no pattern has a fault, whose wording goes into the failure of the load. The
first fault from the left counts; that a brace is never closed is known at the end only.

* **Pattern** — the choices of a pattern, each a row of signs.
* **Pattern.parse** — the pattern that a text spells, or why it spells none.
* **Pattern.describes** — a path against a pattern.
* **Pattern.Sign**, **Pattern.ByteClass** — what stands for bytes of a path.
* **Pattern.Fault** — why a text spells no pattern.
-/

namespace HtmlViews

namespace Pattern

/-- What a byte of a path can be. -/
inductive ByteClass where
  /-- One byte. -/
  | one (b : UInt8)
  /-- Any byte of a name. -/
  | inName
  /-- Any byte. -/
  | all
  /-- A byte of some ranges, or one outside of all of them. -/
  | within (negated : Bool) (ranges : List (UInt8 × UInt8))
deriving DecidableEq, Repr

/-- What stands for bytes of a path: a class, of one byte or of any number of them. -/
structure Sign where
  /-- What each byte can be. -/
  byte : ByteClass
  /-- Whether any number of bytes is meant. -/
  repeats : Bool := false
deriving DecidableEq, Repr

namespace Sign

/-- The byte between the names of a path. -/
def slash : Sign :=
  { byte := .one 0x2f }

/-- Any bytes of a name. -/
def star : Sign :=
  { byte := .inName, repeats := true }

/-- Any bytes. -/
def anything : Sign :=
  { byte := .all, repeats := true }

end Sign

/-- Why a text spells no pattern. -/
inductive Fault where
  /-- A bracket is never closed. -/
  | openSet
  /-- The ends of a range are in the wrong order. -/
  | badRange (first last : Char)
  /-- A brace is never closed. -/
  | openGroup
  /-- A brace is closed that was not opened. -/
  | strayBrace
  /-- A backslash stands at the end. -/
  | danglingEscape
deriving DecidableEq, Repr

/-- The text that describes a fault. -/
def Fault.message : Fault → String
  | .openSet => "unclosed character class; missing ']'"
  | .badRange first last =>
    "invalid range; '" ++ first.toString ++ "' > '" ++ last.toString ++ "'"
  | .openGroup =>
    "unclosed alternate group; missing '\x7d' (maybe escape '\x7b' with '[\x7b]'?)"
  | .strayBrace =>
    "unopened alternate group; missing '\x7b' (maybe escape '\x7d' with '[\x7d]'?)"
  | .danglingEscape => "dangling '\\'"

/-! ## Sets -/

/-- The ranges of a set, the last one first, and what follows its closing bracket. Before, the
ranges `seen` were read; with `dash` the next character ends the last of them. A closing bracket
right at the beginning of a set belongs to it. -/
def readRanges (fresh dash : Bool) (seen : List (Char × Char)) :
    Text → Except Fault (List (Char × Char) × Text)
  | [] => .error .openSet
  | c :: s =>
    if c = ']' && !fresh then .ok (if dash then ('-', '-') :: seen else seen, s)
    else if c = '-' && !fresh && !dash then readRanges false true seen s
    else
      match dash, seen with
      | true, (first, _) :: seen =>
        if c < first then .error (.badRange first c)
        else readRanges false false ((first, c) :: seen) s
      | _, seen => readRanges false false ((c, c) :: seen) s

/-- The bytes of a range of characters; of characters with several bytes, each byte counts. -/
def byteRanges (range : Char × Char) : List (UInt8 × UInt8) :=
  let first := Text.bytes [range.1]
  let last := Text.bytes [range.2]
  if range.1 = range.2 then first.map fun b => (b, b)
  else
    first.dropLast.map (fun b => (b, b)) ++ [(first.getLastD 0, last.headD 0)]
      ++ last.tail.map fun b => (b, b)

/-- The set that a text behind an opening bracket begins with, and what follows it. -/
def readSet (s : Text) : Except Fault (Sign × Text) :=
  let (negated, s) := match s with
    | '!' :: s | '^' :: s => (true, s)
    | s => (false, s)
  (readRanges true false [] s).map fun (ranges, r) =>
    ({ byte := .within negated (ranges.reverse.flatMap byteRanges) }, r)

/-- Reading the ranges of a set makes the text shorter. -/
theorem length_of_readRanges {fresh dash : Bool} {seen ranges : List (Char × Char)} {s r : Text}
    (h : readRanges fresh dash seen s = .ok (ranges, r)) : r.length < s.length := by
  induction s generalizing fresh dash seen with
  | nil => simp [readRanges] at h
  | cons c s ih =>
    unfold readRanges at h
    split at h
    · simp only [Except.ok.injEq, Prod.mk.injEq] at h
      obtain ⟨-, rfl⟩ := h
      simp
    · have step : ∀ {d : Bool} {ts : List (Char × Char)},
          readRanges false d ts s = .ok (ranges, r) → r.length < (c :: s).length :=
        fun hd => Nat.lt_trans (ih hd) (by simp)
      split at h
      · exact step h
      · split at h
        · split at h
          · simp at h
          · exact step h
        · exact step h

/-- Reading a set makes the text shorter. -/
theorem length_of_readSet {s r : Text} {sign : Sign} (h : readSet s = .ok (sign, r)) :
    r.length < s.length := by
  unfold readSet at h
  split at h
  rename_i negated u hu
  have hle : u.length ≤ s.length := by
    split at hu <;> simp only [Prod.mk.injEq] at hu <;> obtain ⟨-, rfl⟩ := hu <;> simp
  cases hr : readRanges true false [] u with
  | error e => simp [hr, Except.map] at h
  | ok p =>
    simp only [hr, Except.map, Except.ok.injEq, Prod.mk.injEq] at h
    obtain ⟨-, rfl⟩ := h
    exact Nat.lt_of_lt_of_le (length_of_readRanges hr) hle

/-! ## Folders -/

/-- Whether the folders that two stars stand for are the end of a choice, and what follows them, for
a text behind a slash that begins with two stars between slashes. Several of them in a row count as
one. In braces a choice also ends at a comma or a closing brace. -/
def folders? (inBraces : Bool) : Text → Option (Bool × Text)
  | '*' :: '*' :: '/' :: s => some ((folders? inBraces s).getD (false, s))
  | ['*', '*'] => some (true, [])
  | '*' :: '*' :: c :: s =>
    if inBraces && (c = ',' || c = '}') then some (true, c :: s) else none
  | _ => none

/-- Reading two stars between slashes makes the text shorter. -/
theorem length_of_folders? {inBraces last : Bool} {s r : Text}
    (h : folders? inBraces s = some (last, r)) : r.length < s.length := by
  fun_induction folders? inBraces s generalizing last r with
  | case1 s ih =>
    cases hs : folders? inBraces s with
    | none =>
      simp only [hs, Option.getD_none, Option.some.injEq, Prod.mk.injEq] at h
      obtain ⟨-, rfl⟩ := h
      simp only [List.length_cons]
      omega
    | some p =>
      simp only [hs, Option.getD_some, Option.some.injEq] at h
      have := ih (by rw [hs, h])
      simp only [List.length_cons]
      omega
  | case2 =>
    simp only [Option.some.injEq, Prod.mk.injEq] at h
    obtain ⟨-, rfl⟩ := h
    simp
  | case3 c s =>
    simp only [Option.some.injEq, Prod.mk.injEq] at h
    obtain ⟨-, rfl⟩ := h
    simp only [List.length_cons]
    omega
  | case4 => simp at h
  | case5 => simp at h

/-! ## Choices -/

/-- A pattern that is being read: the choices that the text read so far spells. -/
structure Groups where
  /-- The choices since the last comma or brace. -/
  current : List (List Sign) := [[]]
  /-- Whether nothing was read since the last comma or opening brace. -/
  atStart : Bool := true
  /-- For every open brace, the innermost first: the choices before it and, comma by comma, those
  behind it. -/
  outer : List (List (List Sign) × List (List (List Sign))) := []

namespace Groups

/-- One of some rows of signs behind every choice. -/
def addEither (g : Groups) (rows : List (List Sign)) : Groups :=
  { g with
    current := g.current.flatMap fun front => rows.map (front ++ ·)
    atStart := false }

/-- One more sign behind every choice. -/
def add (g : Groups) (sign : Sign) : Groups :=
  g.addEither [[sign]]

/-- One more character that stands for itself. -/
def addChar (g : Groups) (c : Char) : Groups :=
  g.addEither [(Text.bytes [c]).map fun b => { byte := .one b }]

/-- An opening brace. -/
def enter (g : Groups) : Groups :=
  { current := [[]], outer := (g.current, []) :: g.outer }

/-- A comma, which stands for itself outside of braces. -/
def next (g : Groups) : Groups :=
  match g.outer with
  | [] => g.addChar ','
  | (before, done) :: outer =>
    { current := [[]], outer := (before, done ++ [g.current]) :: outer }

/-- A closing brace. Empty choices do not count, unless there is no other. -/
def leave? (g : Groups) : Option Groups :=
  match g.outer with
  | [] => none
  | (before, done) :: outer =>
    let inner := ((done ++ [g.current]).filter (· ≠ [[]])).flatten
    let inner := if inner = [] then [[]] else inner
    some ({ g with current := before, outer }.addEither inner)

/-- Whether a brace is open. -/
def inBraces (g : Groups) : Bool :=
  !g.outer.isEmpty

/-- A slash and the folders behind it, with what follows them. -/
def addSlash (g : Groups) (s : Text) : Groups × Text :=
  match folders? g.inBraces s with
  | none => (g.add .slash, s)
  | some (true, r) => (g.addEither [[.slash, .anything]], r)
  | some (false, r) => (g.addEither [[.slash], [.slash, .anything, .slash]], r)

/-- Adding a slash does not make the rest longer. -/
theorem length_addSlash_le (g : Groups) (s : Text) : (g.addSlash s).2.length ≤ s.length := by
  unfold addSlash
  split
  · exact Nat.le_refl _
  all_goals
    rename_i h
    exact Nat.le_of_lt (length_of_folders? h)

/-- Two stars, with what follows them. At the start of a choice they stand for folders if a slash or
nothing follows; elsewhere they are stars. -/
def addStars (g : Groups) (s : Text) : Groups × Text :=
  let folders := g.addEither [[], [.anything, .slash]]
  match g.atStart, s with
  | true, [] => (folders, [])
  | true, '/' :: s => (folders, ((folders? g.inBraces s).map (·.2)).getD s)
  | _, s => ((g.add .star).add .star, s)

/-- Adding stars does not make the rest longer. -/
theorem length_addStars_le (g : Groups) (s : Text) : (g.addStars s).2.length ≤ s.length := by
  unfold addStars
  split
  · exact Nat.le_refl _
  · rename_i s _
    cases h : folders? g.inBraces s with
    | none => simp
    | some p =>
      have := length_of_folders? h
      simp only [Option.map_some, Option.getD_some, List.length_cons]
      omega
  · exact Nat.le_refl _

end Groups

/-- The choices after one more text was read. -/
def readFrom (g : Groups) (s : Text) : Except Fault Groups :=
  match s with
  | [] => .ok g
  | '\\' :: [] => .error .danglingEscape
  | '\\' :: c :: s =>
    if c = '/' then readFrom (g.addSlash s).1 (g.addSlash s).2 else readFrom (g.addChar c) s
  | '*' :: '*' :: s => readFrom (g.addStars s).1 (g.addStars s).2
  | '[' :: s =>
    match _h : readSet s with
    | .error e => .error e
    | .ok (sign, r) => readFrom (g.add sign) r
  | '/' :: s => readFrom (g.addSlash s).1 (g.addSlash s).2
  | '}' :: s =>
    match g.leave? with
    | none => .error .strayBrace
    | some g => readFrom g s
  | '?' :: s => readFrom (g.add { byte := .inName }) s
  | '*' :: s => readFrom (g.add .star) s
  | '{' :: s => readFrom g.enter s
  | ',' :: s => readFrom g.next s
  | c :: s => readFrom (g.addChar c) s
termination_by s.length
decreasing_by
  all_goals simp only [List.length_cons]
  all_goals try omega
  · have := g.length_addSlash_le s
    omega
  · have := g.length_addStars_le s
    omega
  · have := length_of_readSet _h
    omega
  · have := g.length_addSlash_le s
    omega

/-- The choices that a text spells. Two stars alone stand for any path. -/
def readChoices (s : Text) : Except Fault (List (List Sign)) := do
  let g ← readFrom {} s
  if s = ['*', '*'] then .ok [[.anything]]
  else if g.inBraces then .error .openGroup
  else .ok g.current

/-! ## Matching -/

/-- Whether a byte is in a class. -/
def ByteClass.covers (b : UInt8) : ByteClass → Bool
  | .one c => c = b
  | .inName => b ≠ 0x2f
  | .all => true
  | .within negated ranges =>
    (ranges.any fun (first, last) => first ≤ b && b ≤ last) != negated

/-- Whether bytes have the form of a row of signs. -/
def matchesBytes : (signs : List Sign) → (bytes : List UInt8) → Bool
  | [], [] => true
  | [], _ :: _ => false
  | sign :: signs, [] => sign.repeats && matchesBytes signs []
  | sign :: signs, b :: bytes =>
    if sign.repeats then
      matchesBytes signs (b :: bytes) || sign.byte.covers b && matchesBytes (sign :: signs) bytes
    else sign.byte.covers b && matchesBytes signs bytes
termination_by signs bytes => signs.length + bytes.length

end Pattern

/-! ## Patterns -/

/-- A pattern of paths. -/
structure Pattern where
  /-- The choices. A path has to have the form of one of them. -/
  choices : List (List Pattern.Sign)
deriving DecidableEq, Repr

namespace Pattern

/-- The pattern that describes no path. -/
def never : Pattern :=
  ⟨[]⟩

/-- A text with folders put before it, unless it describes paths from their beginning: with
`anchored`, with a slash in it, or if it is two stars. -/
def atAnyDepth (anchored : Bool) (line : Text) : Text :=
  if anchored || line.contains '/' || line = ['*', '*'] then line
  else '*' :: '*' :: '/' :: line

/-- The pattern that a text without blanks at its end spells. What it describes in a folder at its
end is at least a name. -/
def ofLine (anchored : Bool) (line : Text) : Except Fault Pattern := do
  let line := atAnyDepth anchored line
  let isFolder := (Text.before? "/**".toList line).isSome
  let choices ← readChoices (if isFolder then line ++ "/*".toList else line)
  .ok ⟨choices⟩

/-- A text without the blanks at its end. They stay if a backslash stands before the last one. -/
def lineOf (s : Text) : Text :=
  if (Text.before? ['\\', ' '] s).isSome then s else Text.trimEnd s

/-- The pattern that a text spells, without the blanks at its end. A single star describes the names
at the top only. A text that begins with `#` or `!`, or ends with a slash, describes no file. -/
def parse (s : Text) : Except Fault Pattern := do
  match lineOf s with
  | [] => .ok never
  | '#' :: _ => .ok never
  | '!' :: line =>
    let _ ← readChoices line
    .ok never
  | line =>
    match Text.before? ['/'] line with
    | some folder =>
      let _ ← readChoices ((Text.before? ['\\'] folder).getD folder)
      .ok never
    | none => ofLine (s = ['*']) line

/-- Whether a path has the form of the pattern. -/
def describes (p : Pattern) (path : List Text) : Bool :=
  let bytes := Text.bytes (Text.joinWith ['/'] path)
  p.choices.any fun signs => matchesBytes signs bytes

end Pattern

end HtmlViews
