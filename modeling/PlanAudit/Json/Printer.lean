import PlanAudit.Json.Basic
import PlanAudit.Json.FloatFormat

/-! JSON text, on one line or indented. -/
namespace PlanAudit.Json

/-- Floats are written without an exponent from 0.00001 up to, but not including, 1e16. -/
def floatLayout : DecimalLayout :=
  ⟨-5, 15⟩

def intChars (n : Int) : List Char :=
  if n < 0 then '-' :: Nat.toDigits 10 n.natAbs else Nat.toDigits 10 n.natAbs

/-- Two hexadecimal digits. -/
def hexPair (n : Nat) : List Char :=
  [Nat.digitChar (n / 16), Nat.digitChar (n % 16)]

/-- Only the quotation mark, the backslash and the characters below the blank are escaped. -/
def escape (c : Char) : List Char :=
  match c with
  | '"' => ['\\', '"']
  | '\\' => ['\\', '\\']
  | '\x08' => ['\\', 'b']
  | '\t' => ['\\', 't']
  | '\n' => ['\\', 'n']
  | '\x0c' => ['\\', 'f']
  | '\r' => ['\\', 'r']
  | c => if c.toNat < 32 then ['\\', 'u', '0', '0'] ++ hexPair c.toNat else [c]

def stringChars (s : String) : List Char :=
  '"' :: s.toList.flatMap escape ++ ['"']

variable [FloatFormat]

mutual

/-- The text of a value without any blanks. -/
def chars : Json → List Char
  | null => ['n', 'u', 'l', 'l']
  | bool true => ['t', 'r', 'u', 'e']
  | bool false => ['f', 'a', 'l', 's', 'e']
  | integer n => intChars n
  | float x => (FloatFormat.digits x).write floatLayout x.negative
  | string s => stringChars s
  | array [] => ['[', ']']
  | array (item :: items) => '[' :: chars item ++ itemsTail items
  | object [] => ['\x7b', '\x7d']
  | object ((key, value) :: members) =>
    '\x7b' :: stringChars key ++ ':' :: chars value ++ membersTail members

/-- The items after the first one, up to the closing bracket. -/
def itemsTail : List Json → List Char
  | [] => [']']
  | item :: items => ',' :: chars item ++ itemsTail items

/-- The members after the first one, up to the closing brace. -/
def membersTail : List (String × Json) → List Char
  | [] => ['\x7d']
  | (key, value) :: members =>
    ',' :: stringChars key ++ ':' :: chars value ++ membersTail members

end

def compact (value : Json) : String :=
  String.ofList value.chars

/-- A new line that is indented by two blanks a level. -/
def lineBreak (level : Nat) : List Char :=
  '\n' :: List.replicate (2 * level) ' '

mutual

/-- The text of a value with every item and member on a line of its own, inside `level` brackets. -/
def prettyChars (level : Nat) : Json → List Char
  | array (item :: items) =>
    '[' :: lineBreak (level + 1) ++ prettyChars (level + 1) item ++ prettyItemsTail level items
  | object ((key, value) :: members) =>
    '\x7b' :: lineBreak (level + 1) ++ stringChars key ++ ':' :: ' ' :: prettyChars (level + 1) value
      ++ prettyMembersTail level members
  | value => chars value

def prettyItemsTail (level : Nat) : List Json → List Char
  | [] => lineBreak level ++ [']']
  | item :: items =>
    ',' :: lineBreak (level + 1) ++ prettyChars (level + 1) item ++ prettyItemsTail level items

def prettyMembersTail (level : Nat) : List (String × Json) → List Char
  | [] => lineBreak level ++ ['\x7d']
  | (key, value) :: members =>
    ',' :: lineBreak (level + 1) ++ stringChars key ++ ':' :: ' ' :: prettyChars (level + 1) value
      ++ prettyMembersTail level members

end

def pretty (value : Json) : String :=
  String.ofList (value.prettyChars 0)

end PlanAudit.Json
