import PlanAudit.Text.Blank

/-! Places in a text, counted in the bytes of its UTF-8 form. -/
namespace PlanAudit.Text

def byteLength (cs : List Char) : Nat :=
  cs.foldl (fun length c => length + c.utf8Size) 0

/-- The first characters of a text, as many as `bytes` bytes hold. -/
def takeBytes : (bytes : Nat) → List Char → List Char
  | _, [] => []
  | bytes, c :: cs =>
    if c.utf8Size ≤ bytes then c :: takeBytes (bytes - c.utf8Size) cs else []

/-- The characters that have a byte in `lo..hi`, in a text whose first byte is number `offset`. -/
def window (lo hi : Nat) : (offset : Nat) → List Char → List Char
  | _, [] => []
  | offset, c :: cs =>
    let next := offset + c.utf8Size
    if offset < hi ∧ lo < next then c :: window lo hi next cs else window lo hi next cs

/-- The surroundings of `start..stop`: all characters within `radius` bytes of it, without the blanks
at the ends. A character that is only partly within reach is taken whole. -/
def excerpt (text : List Char) (start stop radius : Nat) : List Char :=
  trim (window (start - radius) (stop + radius) 0 text)

end PlanAudit.Text
