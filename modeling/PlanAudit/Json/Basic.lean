import PlanAudit.Decimal.Binary64
import PlanAudit.SortedMap

/-! JSON values. The members of an object that was read stand in the order of their keys. -/
namespace PlanAudit

inductive Json where
  | null
  | bool (b : Bool)
  | integer (n : Int)
  | float (x : Binary64)
  | string (s : String)
  | array (items : List Json)
  | object (members : List (String × Json))
  deriving Repr

namespace Json

/-- The members of an object. -/
abbrev Members := List (String × Json)

def Members.get? (members : Members) (key : String) : Option Json :=
  members.lookup key

def Members.has (members : Members) (key : String) : Bool :=
  (members.get? key).isSome

/-- The member of an object; other values have none. -/
def get? : Json → (key : String) → Option Json
  | object members, key => Members.get? members key
  | _, _ => none

def string? : Json → Option String
  | string s => some s
  | _ => none

def array? : Json → Option (List Json)
  | array items => some items
  | _ => none

def object? : Json → Option Members
  | object members => some members
  | _ => none

theorem bind_array?_eq_some_iff {value : Option Json} {items : List Json} :
    value.bind array? = some items ↔ value = some (array items) := by
  rcases value with _ | value
  · simp
  · cases value <;> simp [array?]

theorem bind_array?_eq_none_iff {value : Option Json} :
    value.bind array? = none ↔ ∀ items, value ≠ some (array items) := by
  rcases value with _ | value
  · simp
  · cases value <;> simp [array?]

theorem bind_object?_eq_some_iff {value : Option Json} {members : Members} :
    value.bind object? = some members ↔ value = some (object members) := by
  rcases value with _ | value
  · simp
  · cases value <;> simp [object?]

def isNull : Json → Bool
  | null => true
  | _ => false

def isObject : Json → Bool
  | object _ => true
  | _ => false

mutual

/-- Equality by kind and value: the integer 1 is not the float 1.0, and both float zeros are equal. -/
def same : Json → Json → Bool
  | null, null => true
  | bool a, bool b => a == b
  | integer a, integer b => a == b
  | float a, float b => a.sameValue b
  | string a, string b => a == b
  | array a, array b => sameItems a b
  | object a, object b => sameMembers a b
  | _, _ => false

def sameItems : List Json → List Json → Bool
  | [], [] => true
  | a :: as, b :: bs => same a b && sameItems as bs
  | _, _ => false

def sameMembers : List (String × Json) → List (String × Json) → Bool
  | [], [] => true
  | (k, a) :: as, (l, b) :: bs => k == l && same a b && sameMembers as bs
  | _, _ => false

end

end Json

end PlanAudit
