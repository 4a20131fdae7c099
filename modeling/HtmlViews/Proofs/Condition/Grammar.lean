import HtmlViews.Condition.Parser
import HtmlViews.Text.Quote

/-!
# The grammar of conditions

Which texts spell a condition, said without reading them: a token stands for a literal or a
variable, tokens are grouped by how tightly operators bind, and gaps may stand between tokens.

This is what the reading of conditions is measured by. The grammar does not speak of scanning or of
builders: a rendering of a condition is any text with gaps that spells a row of tokens
(**Spelled**), in which the parts of the condition are grouped with parentheses where operators ask
for them, or where somebody likes to write them (**Expr.Grouped**). Several texts are renderings of
one condition; that none is a rendering of two is a result and not a part of the definition.

* **Token.Atom** — the tokens that can stand for an operand, by their characters.
* **Token.Denotes** — the literal or the variable that such a token stands for.
* **Expr.Grouped** — the rows of tokens of a condition.
* **Spelled** — the texts of a row of tokens.
* **Expr.Rendering** — the texts of a condition.
* **Expr.Writable** — the conditions that have a text.
-/

namespace HtmlViews.Condition

/-! ## Operands -/

/-- A word of ASCII letters, digits and underscores that does not begin with a digit. -/
def IsName (w : Text) : Prop :=
  ∃ c s, w = c :: s ∧ isNameStart c ∧ ∀ d ∈ s, isNamePart d

/-- One or more decimal digits. -/
def IsDigits (ds : Text) : Prop :=
  ds ≠ [] ∧ ∀ d ∈ ds, isDigit d

/-- A minus, or nothing. -/
def IsSign (sign : Text) : Prop :=
  sign = [] ∨ sign = ['-']

/-- The words that stand for true, false and null. -/
def keywords : List Text :=
  truthWords.map Prod.fst ++ nullWords

/-- The tokens that can stand for an operand. -/
inductive Token.Atom : Token → Prop
  | integer {sign ds : Text} : IsSign sign → IsDigits ds → Atom (.integer (sign ++ ds))
  | decimal {sign ds fs : Text} : IsSign sign → IsDigits ds → IsDigits fs →
      Atom (.decimal (sign ++ ds ++ '.' :: fs))
  | quoted {q : Char} {body : Text} : isQuote q → q ∉ body → Atom (.quoted q body)
  | word {w : Text} : IsName w → Atom (.word w)
  | name {name : Text} : IsName name → Atom (.variable name)

/-- The literal or the variable that a token stands for. Integers fit into 64 bits, decimal numbers
are finite, and a word that is no keyword is a string. -/
inductive Token.Denotes : Token → Expr → Prop
  | integer {t : Text} {i : Int} : integerValue t = i →
      -9223372036854775808 ≤ i → i ≤ 9223372036854775807 →
      Denotes (.integer t) (.literal (.number (.int i)))
  | decimal {t : Text} {x : Finite} : Binary64.read? t = some (.finite x) →
      Denotes (.decimal t) (.literal (.number (.float x)))
  | quoted {q : Char} {body : Text} :
      Denotes (.quoted q body) (.literal (.str (String.ofList body)))
  | truth {w : Text} {b : Bool} : (w, b) ∈ truthWords → Denotes (.word w) (.literal (.bool b))
  | null {w : Text} : w ∈ nullWords → Denotes (.word w) (.literal .null)
  | word {w : Text} : w ∉ keywords → Denotes (.word w) (.literal (.str (String.ofList w)))
  | name {name : Text} : Denotes (.variable name) (.variable (String.ofList name))

/-! ## Grouping -/

/-- A level above those of all operators. -/
def tightest : Nat := 4

/-- The rows of tokens of a condition in a place where operators below a level need parentheses
around them. Negation binds more tightly than any operator; the left side of an operator may hold
operators of the same level, its right side may not. Parentheses may stand around any condition. -/
inductive Expr.Grouped : (level : Nat) → Expr → List Token → Prop
  | operand {level : Nat} {t : Token} {e : Expr} : t.Atom → t.Denotes e → Grouped level e [t]
  | not {level : Nat} {e : Expr} {ts : List Token} :
      Grouped tightest e ts → Grouped level (.not e) (.bang :: ts)
  | binary {level : Nat} {op : Operator} {lhs rhs : Expr} {ts us : List Token} :
      level ≤ op.level → Grouped op.level lhs ts → Grouped (op.level + 1) rhs us →
      Grouped level (.binary op lhs rhs) (ts ++ .operator op :: us)
  | parenthesised {level : Nat} {e : Expr} {ts : List Token} :
      Grouped 0 e ts → Grouped level e (.opening :: ts ++ [.closing])

/-! ## Layout -/

/-- A run of spaces, tabs and line ends, perhaps empty. -/
def IsGap (s : Text) : Prop :=
  ∀ c ∈ s, isGap c

/-- The texts of a row of tokens: the tokens in their order, with gaps around them. -/
inductive Spelled : List Token → Text → Prop
  | nil {gap : Text} : IsGap gap → Spelled [] gap
  | cons {gap s : Text} {t : Token} {ts : List Token} :
      IsGap gap → Spelled ts s → Spelled (t :: ts) (gap ++ (t.spelling ++ s))

/-- The texts of a condition. -/
def Expr.Rendering (e : Expr) (s : Text) : Prop :=
  ∃ ts, e.Grouped 0 ts ∧ Spelled ts s

/-- The conditions that have a text, decimal numbers apart: names are ASCII words, integers fit into
64 bits, and no string holds both quotes. -/
inductive Expr.Writable : Expr → Prop
  | integer {i : Int} : -9223372036854775808 ≤ i → i ≤ 9223372036854775807 →
      Writable (.literal (.number (.int i)))
  | bool (b : Bool) : Writable (.literal (.bool b))
  | null : Writable (.literal .null)
  | str {s : String} : ('"' ∉ s.toList ∨ '\'' ∉ s.toList) → Writable (.literal (.str s))
  | name {name : String} : IsName name.toList → Writable (.variable name)
  | not {e : Expr} : e.Writable → Writable (.not e)
  | binary {op : Operator} {lhs rhs : Expr} :
      lhs.Writable → rhs.Writable → Writable (.binary op lhs rhs)

end HtmlViews.Condition
