import PlanAudit.Pattern.Basic
import PlanAudit.Text.Window

/-! Matches of a pattern in a text, from left to right and without overlap. -/
namespace PlanAudit

/-- A match and the bytes `start..stop` that it takes. -/
structure Match where
  start : Nat
  stop : Nat
  text : List Char
  deriving Repr, DecidableEq

namespace Pattern

/-- A match can start at byte `resume` at the earliest. -/
def matchesFrom (p : Pattern) (resume offset : Nat) (before : Option Char) : List Char → List Match
  | [] =>
    if offset < resume then [] else
    match p.end? ⟨offset, before, []⟩ with
    | none => []
    | some d => [⟨offset, d.offset, []⟩]
  | x :: rest =>
    let next := offset + x.utf8Size
    if offset < resume then p.matchesFrom resume next (some x) rest else
    match p.end? ⟨offset, before, x :: rest⟩ with
    | none => p.matchesFrom resume next (some x) rest
    | some d =>
      ⟨offset, d.offset, Text.takeBytes (d.offset - offset) (x :: rest)⟩
        :: p.matchesFrom d.offset next (some x) rest

/-- The leftmost match, then the leftmost one behind it, and so on. -/
def matchesIn (p : Pattern) (text : List Char) : List Match :=
  p.matchesFrom 0 0 none text

def find? (p : Pattern) (text : List Char) : Option Match :=
  (p.matchesIn text).head?

def occursIn (p : Pattern) (text : List Char) : Bool :=
  !(p.matchesIn text).isEmpty

def count (p : Pattern) (text : List Char) : Nat :=
  (p.matchesIn text).length

end Pattern

/-- Put one character in the place of each match. The matches are those of the text, whose first byte
is number `offset`, from left to right. -/
def Match.replaceAll (filler : Char) : List Match → (offset : Nat) → List Char → List Char
  | _, _, [] => []
  | [], _, cs => cs
  | m :: ms, offset, c :: cs =>
    let next := offset + c.utf8Size
    if offset < m.start then c :: replaceAll filler (m :: ms) next cs
    else if next < m.stop then replaceAll filler (m :: ms) next cs
    else filler :: replaceAll filler ms next cs

/-- The text with every match of the pattern replaced by a character. -/
def Pattern.replaceIn (p : Pattern) (filler : Char) (text : List Char) : List Char :=
  Match.replaceAll filler (p.matchesIn text) 0 text

end PlanAudit
