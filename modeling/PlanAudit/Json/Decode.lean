import PlanAudit.Json.Printer
import PlanAudit.Text.Quoted

/-! Taking typed data out of JSON values. -/
namespace PlanAudit.Json

/-- What a value was expected to be. -/
inductive Shape where
  | string
  | boolean
  | sequence
  | map
  | byte
  | unit
  | stringOrMap
  | record (name : String)
  deriving Repr, DecidableEq

def Shape.text : Shape → String
  | string => "a string"
  | boolean => "a boolean"
  | sequence => "a sequence"
  | map => "a map"
  | byte => "u8"
  | unit => "unit"
  | stringOrMap => "string or map"
  | record name => s!"struct {name}"

/-- A value as messages name it. -/
def describe : Json → String
  | null => "null"
  | bool b => s!"boolean `{b}`"
  | integer n => s!"integer `{n}`"
  | float x => s!"floating point `{(float x).compact}`"
  | string s => s!"string {Text.quoted s}"
  | array _ => "sequence"
  | object _ => "map"

/-- Why a value does not hold the data that was asked for. -/
inductive Mismatch where
  | wrongType (found : Json) (expected : Shape)
  | byteOutOfRange (n : Int)
  | notSingleKey
  | unknownVariant (name : String) (known : List String)
  | missingField (name : String)
  | tooFew (count : Nat) (record : String) (fields : Nat)
  | tooMany (count : Nat)
  deriving Repr

def Mismatch.message : Mismatch → String
  | wrongType found expected => s!"invalid type: {found.describe}, expected {expected.text}"
  | byteOutOfRange n => s!"invalid value: integer `{n}`, expected {Shape.byte.text}"
  | notSingleKey => "invalid value: map, expected map with a single key"
  | unknownVariant name known =>
    s!"unknown variant `{name}`, expected one of " ++ ", ".intercalate (known.map fun variant => s!"`{variant}`")
  | missingField name => s!"missing field `{name}`"
  | tooFew count record fields =>
    s!"invalid length {count}, expected struct {record} with {fields} elements"
  | tooMany count => s!"invalid length {count}, expected fewer elements in array"

/-- How data of a type is taken out of a value. -/
abbrev Decoder (α : Type) := Json → Except Mismatch α

def asString : Decoder String
  | string s => .ok s
  | value => .error (.wrongType value .string)

def asBool : Decoder Bool
  | bool b => .ok b
  | value => .error (.wrongType value .boolean)

def asByte : Decoder UInt8
  | integer n => if 0 ≤ n ∧ n ≤ 255 then .ok n.toNat.toUInt8 else .error (.byteOutOfRange n)
  | value => .error (.wrongType value .byte)

def asList {α : Type} (decode : Decoder α) : Decoder (List α)
  | array items => items.mapM decode
  | value => .error (.wrongType value .sequence)

def asMap {α : Type} (decode : Decoder α) : Decoder (SortedMap α)
  | object members => do
    let entries ← members.mapM fun (key, value) => do return (key, ← decode value)
    return .ofList entries
  | value => .error (.wrongType value .map)

def variantNamed {α : Type} (variants : List (String × α)) (name : String) : Except Mismatch α :=
  match variants.lookup name with
  | some a => .ok a
  | none => .error (.unknownVariant name (variants.map (·.1)))

/-- One of several names, alone or as the key of an object whose value is null. -/
def asVariant {α : Type} (variants : List (String × α)) : Decoder α
  | string name => variantNamed variants name
  | object [(name, value)] => do
    let a ← variantNamed variants name
    if value.isNull then return a else .error (.wrongType value .unit)
  | object _ => .error .notSingleKey
  | value => .error (.wrongType value .stringOrMap)

/-- The field of an object. -/
def field {α : Type} (members : Members) (name : String) (decode : Decoder α) :
    Except Mismatch α :=
  match members.get? name with
  | some value => decode value
  | none => .error (.missingField name)

/-- The item at a place of an array that lists the fields of a record. -/
def item {α : Type} (record : String) (fields : Nat) (items : List Json) (index : Nat)
    (decode : Decoder α) : Except Mismatch α :=
  match items[index]? with
  | some value => decode value
  | none => .error (.tooFew index record fields)

/-- A decoder that only tells whether the value can be decoded. -/
def Decoder.check {α : Type} (decode : Decoder α) : Decoder Unit :=
  fun value => (decode value).map fun _ => ()

/-- The first member in the object's order that cannot be decoded is the one that is reported. Members
that are no fields are left alone. -/
def checkMembers (fields : List (String × Decoder Unit)) (members : Members) :
    Except Mismatch Unit :=
  members.forM fun (key, value) =>
    match fields.lookup key with
    | some decode => decode value
    | none => .ok ()

/-- No more items than the record has fields. -/
def checkLength (fields : Nat) (items : List Json) : Except Mismatch Unit :=
  if fields < items.length then .error (.tooMany items.length) else .ok ()

end PlanAudit.Json
