import PlanAudit.Text.Window

/-! Why a text is no JSON, and where. -/
namespace PlanAudit.Json

inductive Fault where
  | endInValue
  | endInList
  | endInObject
  | endInString
  | expectedValue
  | expectedIdent
  | keyMustBeString
  | expectedColon
  | expectedCommaOrBracket
  | expectedCommaOrBrace
  | trailingComma
  | trailingCharacters
  | invalidNumber
  | numberOutOfRange
  | controlCharacter
  | invalidEscape
  | loneSurrogate
  | unfinishedSurrogate
  | tooDeep
  deriving Repr, DecidableEq

def Fault.message : Fault → String
  | endInValue => "EOF while parsing a value"
  | endInList => "EOF while parsing a list"
  | endInObject => "EOF while parsing an object"
  | endInString => "EOF while parsing a string"
  | expectedValue => "expected value"
  | expectedIdent => "expected ident"
  | keyMustBeString => "key must be a string"
  | expectedColon => "expected `:`"
  | expectedCommaOrBracket => "expected `,` or `]`"
  | expectedCommaOrBrace => "expected `,` or `\x7d`"
  | trailingComma => "trailing comma"
  | trailingCharacters => "trailing characters"
  | invalidNumber => "invalid number"
  | numberOutOfRange => "number out of range"
  | controlCharacter => "control character (\\u0000-\\u001F) found while parsing a string"
  | invalidEscape => "invalid escape"
  | loneSurrogate => "lone leading surrogate in hex escape"
  | unfinishedSurrogate => "unexpected end of hex escape"
  | tooDeep => "recursion limit exceeded"

/-- A fault, and the number of bytes of the text that lie behind its place. -/
structure Stop where
  fault : Fault
  left : Nat
  deriving Repr, DecidableEq

namespace Stop

/-- All before `rest` was read when the fault showed. -/
def before (fault : Fault) (rest : List Char) : Stop :=
  ⟨fault, Text.byteLength rest⟩

/-- The first byte of `rest` is at fault, or the end of the text if nothing is left. -/
def on (fault : Fault) (rest : List Char) : Stop :=
  ⟨fault, Text.byteLength rest - 1⟩

def atEnd (fault : Fault) : Stop :=
  ⟨fault, 0⟩

end Stop

/-- Line and column of the place behind the first `bytes` bytes, from a place that is known. The first
line is number 1, and a column counts the bytes of its line. -/
def lineColumn (line column : Nat) : (bytes : Nat) → List Char → Nat × Nat
  | _, [] => (line, column)
  | bytes, c :: cs =>
    if bytes < c.utf8Size then (line, column + bytes)
    else if c = '\n' then lineColumn (line + 1) 0 (bytes - 1) cs
    else lineColumn line (column + c.utf8Size) (bytes - c.utf8Size) cs

structure ReadError where
  fault : Fault
  line : Nat
  column : Nat
  deriving Repr, DecidableEq

def ReadError.message (e : ReadError) : String :=
  s!"{e.fault.message} at line {e.line} column {e.column}"

/-- The place of a fault in the text that was read. -/
def Stop.locate (text : List Char) (stop : Stop) : ReadError :=
  let (line, column) := lineColumn 1 0 (Text.byteLength text - stop.left) text
  ⟨stop.fault, line, column⟩

end PlanAudit.Json
