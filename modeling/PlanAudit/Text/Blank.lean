import PlanAudit.Text.CodeRange

/-! Blank characters (Unicode's White_Space), trimming and counting words. -/
namespace PlanAudit.Text

def blanks : CodeRanges :=
  [(0x09, 0x0D), (0x20, 0x20), (0x85, 0x85), (0xA0, 0xA0), (0x1680, 0x1680), (0x2000, 0x200A),
   (0x2028, 0x2029), (0x202F, 0x202F), (0x205F, 0x205F), (0x3000, 0x3000)]

def isBlank (c : Char) : Bool :=
  blanks.covers c.toNat

/-- Drop the blanks at both ends. -/
def trim (cs : List Char) : List Char :=
  ((cs.dropWhile isBlank).reverse.dropWhile isBlank).reverse

/-- The number of words that begin in a text, where `inWord` says that one is already going on. -/
def wordStarts : (inWord : Bool) → List Char → Nat
  | _, [] => 0
  | inWord, c :: cs =>
    if isBlank c then wordStarts false cs
    else if inWord then wordStarts true cs
    else wordStarts true cs + 1

/-- Words are the longest runs of characters that are not blank. -/
def wordCount (s : String) : Nat :=
  wordStarts false s.toList

end PlanAudit.Text
