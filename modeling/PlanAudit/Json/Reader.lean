import PlanAudit.Json.Basic
import PlanAudit.Json.FloatFormat
import PlanAudit.Json.ReadError

/-! Reading JSON text. Every reader takes the text from its place on and gives back what is left. -/
namespace PlanAudit.Json

def isBlank (c : Char) : Bool :=
  c == ' ' || c == '\t' || c == '\n' || c == '\r'

def skipBlanks (cs : List Char) : List Char :=
  cs.dropWhile isBlank

/-- The rest of a word whose first letter has been read. -/
def readWord : (word : List Char) → List Char → Except Stop (List Char)
  | [], rest => .ok rest
  | _ :: _, [] => .error (.atEnd .endInValue)
  | w :: ws, c :: cs => if c = w then readWord ws cs else .error (.on .expectedIdent (c :: cs))

/-! Numbers -/

variable [FloatFormat]

/-- A float, or the fault at the given place if the number is too large for one. -/
def floatOf (n : Numeral) (place rest : List Char) : Except Stop (Json × List Char) :=
  match FloatFormat.read n with
  | some x => .ok (.float x, rest)
  | none => .error (.before .numberOutOfRange place)

/-- An integer where it fits 64 bits, signed or not; the negative zero and all others are floats. -/
def integerOf (negative : Bool) (digits rest : List Char) : Except Stop (Json × List Char) :=
  let n := natOfDigits digits
  if negative then
    if 0 < n ∧ n ≤ 9223372036854775808 then .ok (.integer (-n), rest)
    else floatOf ⟨true, digits, [], 0⟩ rest rest
  else
    if n < 18446744073709551616 then .ok (.integer n, rest)
    else floatOf ⟨false, digits, [], 0⟩ rest rest

/-- What follows the digit that takes an exponent beyond 32 bits, if there is such a digit. -/
def exponentExcess (value : Nat) : List Char → Option (List Char)
  | [] => none
  | c :: cs =>
    if c.isDigit then
      let value := 10 * value + digitValue c
      if value < 2147483648 then exponentExcess value cs else some cs
    else none

/-- The exponent behind its mark, with the digits before the mark. -/
def readExponent (negative : Bool) (whole fraction cs : List Char) :
    Except Stop (Json × List Char) :=
  let (down, cs) :=
    match cs with
    | '+' :: cs => (false, cs)
    | '-' :: cs => (true, cs)
    | cs => (false, cs)
  match cs with
  | [] => .error (.atEnd .endInValue)
  | c :: _ =>
    if c.isDigit then
      let power := natOfDigits (cs.takeWhile Char.isDigit)
      let rest := cs.dropWhile Char.isDigit
      floatOf ⟨negative, whole, fraction, if down then -power else power⟩
        ((exponentExcess 0 cs).getD rest) rest
    else .error (.on .invalidNumber cs)

/-- The fraction behind the decimal point. -/
def readFraction (negative : Bool) (whole cs : List Char) : Except Stop (Json × List Char) :=
  let fraction := cs.takeWhile Char.isDigit
  let rest := cs.dropWhile Char.isDigit
  match fraction, rest with
  | [], [] => .error (.atEnd .endInValue)
  | [], rest => .error (.on .invalidNumber rest)
  | _, 'e' :: cs => readExponent negative whole fraction cs
  | _, 'E' :: cs => readExponent negative whole fraction cs
  | _, rest => floatOf ⟨negative, whole, fraction, 0⟩ rest rest

/-- A number whose sign has been read. No digit may follow a leading zero. -/
def readNumber (negative : Bool) (cs : List Char) : Except Stop (Json × List Char) :=
  let digits := cs.takeWhile Char.isDigit
  let rest := cs.dropWhile Char.isDigit
  match digits, rest with
  | [], [] => .error (.atEnd .endInValue)
  | [], rest => .error (.on .invalidNumber rest)
  | '0' :: d :: ds, rest => .error (.on .invalidNumber (d :: ds ++ rest))
  | digits, '.' :: cs => readFraction negative digits cs
  | digits, 'e' :: cs => readExponent negative digits [] cs
  | digits, 'E' :: cs => readExponent negative digits [] cs
  | digits, rest => integerOf negative digits rest

/-! Strings -/

def hexValue? (c : Char) : Option Nat :=
  let n := c.toNat
  if '0'.toNat ≤ n ∧ n ≤ '9'.toNat then some (n - '0'.toNat)
  else if 'a'.toNat ≤ n ∧ n ≤ 'f'.toNat then some (n - 'a'.toNat + 10)
  else if 'A'.toNat ≤ n ∧ n ≤ 'F'.toNat then some (n - 'A'.toNat + 10)
  else none

def hexQuad? : List Char → Option Nat
  | a :: b :: c :: d :: _ => do
    let a ← hexValue? a
    let b ← hexValue? b
    let c ← hexValue? c
    let d ← hexValue? d
    return ((a * 16 + b) * 16 + c) * 16 + d
  | _ => none

/-- Four hexadecimal digits. What stands in their place is taken as four bytes, whatever it is. -/
def readHexQuad (cs : List Char) : Except Stop Nat :=
  match hexQuad? cs with
  | some n => .ok n
  | none =>
    if Text.byteLength cs < 4 then .error (.atEnd .endInString)
    else .error ⟨.invalidEscape, Text.byteLength cs - 4⟩

def isHighSurrogate (n : Nat) : Bool :=
  0xD800 ≤ n && n < 0xDC00

def isLowSurrogate (n : Nat) : Bool :=
  0xDC00 ≤ n && n < 0xE000

/-- The second half of a surrogate pair, and how many characters were read for it. -/
def readLowSurrogate (high : Nat) : List Char → Except Stop (Char × Nat)
  | [] => .error (.atEnd .endInString)
  | '\\' :: [] => .error (.atEnd .endInString)
  | '\\' :: 'u' :: cs => do
    let low ← readHexQuad cs
    if isLowSurrogate low then
      return (Char.ofNat (0x10000 + (high - 0xD800) * 0x400 + (low - 0xDC00)), 6)
    else .error (.before .loneSurrogate (cs.drop 4))
  | '\\' :: cs => .error (.on .unfinishedSurrogate cs)
  | cs => .error (.on .unfinishedSurrogate cs)

/-- The character that an escape stands for, and how many characters behind the backslash it takes. -/
def readEscape : List Char → Except Stop (Char × Nat)
  | [] => .error (.atEnd .endInString)
  | '"' :: _ => .ok ('"', 1)
  | '\\' :: _ => .ok ('\\', 1)
  | '/' :: _ => .ok ('/', 1)
  | 'b' :: _ => .ok ('\x08', 1)
  | 'f' :: _ => .ok ('\x0c', 1)
  | 'n' :: _ => .ok ('\n', 1)
  | 'r' :: _ => .ok ('\r', 1)
  | 't' :: _ => .ok ('\t', 1)
  | 'u' :: cs => do
    let n ← readHexQuad cs
    if isLowSurrogate n then .error (.before .loneSurrogate (cs.drop 4))
    else if isHighSurrogate n then
      let (c, size) ← readLowSurrogate n (cs.drop 4)
      return (c, 5 + size)
    else return (Char.ofNat n, 5)
  | cs => .error (.on .invalidEscape cs)

/-- A string behind its opening quotation mark. `done` holds what has been read, last character first,
and the next `skip` characters belong to an escape that is already among it. -/
def readString (done : List Char) : (skip : Nat) → List Char → Except Stop (String × List Char)
  | _, [] => .error (.atEnd .endInString)
  | skip + 1, _ :: cs => readString done skip cs
  | 0, c :: cs =>
    if c = '"' then .ok (String.ofList done.reverse, cs)
    else if c = '\\' then
      match readEscape cs with
      | .ok (e, size) => readString (e :: done) size cs
      | .error stop => .error stop
    else if c.toNat < 32 then .error (.before .controlCharacter cs)
    else readString (c :: done) 0 cs

/-! Values -/

/-- The colon between a key and its value. -/
def readColon (cs : List Char) : Except Stop (List Char) :=
  match skipBlanks cs with
  | ':' :: rest => .ok rest
  | [] => .error (.atEnd .endInObject)
  | rest => .error (.on .expectedColon rest)

mutual

/-- A value with at most `depth` more brackets inside each other. Every value, item and member takes a
step, so three steps for each character are more than enough. -/
def readValue : (steps depth : Nat) → List Char → Except Stop (Json × List Char)
  | 0, _, cs => .error (.on .endInValue cs)
  | steps + 1, depth, cs =>
    match skipBlanks cs with
    | [] => .error (.atEnd .endInValue)
    | 'n' :: rest => do return (.null, ← readWord ['u', 'l', 'l'] rest)
    | 't' :: rest => do return (.bool true, ← readWord ['r', 'u', 'e'] rest)
    | 'f' :: rest => do return (.bool false, ← readWord ['a', 'l', 's', 'e'] rest)
    | '"' :: rest => do
      let (s, rest) ← readString [] 0 rest
      return (.string s, rest)
    | '[' :: rest =>
      match depth with
      | 0 => .error (.on .tooDeep ('[' :: rest))
      | depth + 1 =>
        match skipBlanks rest with
        | [] => .error (.atEnd .endInList)
        | ']' :: rest => .ok (.array [], rest)
        | rest => do
          let (item, rest) ← readValue steps depth rest
          let (items, rest) ← readItems steps depth rest
          return (.array (item :: items), rest)
    | '\x7b' :: rest =>
      match depth with
      | 0 => .error (.on .tooDeep ('\x7b' :: rest))
      | depth + 1 =>
        match skipBlanks rest with
        | [] => .error (.atEnd .endInObject)
        | '\x7d' :: rest => .ok (.object [], rest)
        | '"' :: rest => do
          let (member, rest) ← readMember steps depth rest
          let (members, rest) ← readMembers steps depth rest
          return (.object (sortKeys (member :: members)), rest)
        | rest => .error (.on .keyMustBeString rest)
    | '-' :: rest => readNumber true rest
    | c :: rest =>
      if c.isDigit then readNumber false (c :: rest) else .error (.on .expectedValue (c :: rest))
termination_by structural steps => steps

/-- The items behind the first one, and the closing bracket. -/
def readItems : (steps depth : Nat) → List Char → Except Stop (List Json × List Char)
  | 0, _, cs => .error (.on .endInList cs)
  | steps + 1, depth, cs =>
    match skipBlanks cs with
    | [] => .error (.atEnd .endInList)
    | ']' :: rest => .ok ([], rest)
    | ',' :: rest =>
      match skipBlanks rest with
      | [] => .error (.atEnd .endInValue)
      | ']' :: rest => .error (.on .trailingComma (']' :: rest))
      | rest => do
        let (item, rest) ← readValue steps depth rest
        let (items, rest) ← readItems steps depth rest
        return (item :: items, rest)
    | rest => .error (.on .expectedCommaOrBracket rest)
termination_by structural steps => steps

/-- A member behind the opening quotation mark of its key. -/
def readMember : (steps depth : Nat) → List Char → Except Stop ((String × Json) × List Char)
  | 0, _, cs => .error (.on .endInObject cs)
  | steps + 1, depth, cs => do
    let (key, rest) ← readString [] 0 cs
    let rest ← readColon rest
    let (value, rest) ← readValue steps depth rest
    return ((key, value), rest)
termination_by structural steps => steps

/-- The members behind the first one as they are written, and the closing brace. -/
def readMembers : (steps depth : Nat) → List Char → Except Stop (List (String × Json) × List Char)
  | 0, _, cs => .error (.on .endInObject cs)
  | steps + 1, depth, cs =>
    match skipBlanks cs with
    | [] => .error (.atEnd .endInObject)
    | '\x7d' :: rest => .ok ([], rest)
    | ',' :: rest =>
      match skipBlanks rest with
      | [] => .error (.atEnd .endInValue)
      | '"' :: rest => do
        let (member, rest) ← readMember steps depth rest
        let (members, rest) ← readMembers steps depth rest
        return (member :: members, rest)
      | '\x7d' :: rest => .error (.on .trailingComma ('\x7d' :: rest))
      | rest => .error (.on .keyMustBeString rest)
    | rest => .error (.on .expectedCommaOrBrace rest)
termination_by structural steps => steps

end

/-- How many brackets may stand inside each other. -/
def maxDepth : Nat :=
  127

/-- A text that holds one value and nothing but blanks around it. -/
def readText (cs : List Char) : Except Stop Json := do
  let (value, rest) ← readValue (3 * cs.length + 3) maxDepth cs
  match skipBlanks rest with
  | [] => return value
  | rest => .error (.on .trailingCharacters rest)

def read (text : String) : Except ReadError Json :=
  (readText text.toList).mapError (Stop.locate text.toList)

end PlanAudit.Json
