import PlanAudit.Text.Blank
import PlanAudit.Text.Case
import PlanAudit.Text.DecimalDigit
import PlanAudit.Text.WordChar

/-! Text patterns and the places where their matches can end. -/
namespace PlanAudit

/-- Sets of characters that one place of a pattern accepts. -/
inductive CharSet where
  | only (c : Char)
  | caseless (c : Char)
  | range (first last : Char)
  | union (a b : CharSet)
  | digit
  | blank
  deriving Repr, DecidableEq

def CharSet.contains : CharSet → Char → Bool
  | only a, c => c == a
  | caseless a, c => Text.foldChar c == Text.foldChar a
  | range first last, c => first.toNat ≤ c.toNat && c.toNat ≤ last.toNat
  | union a b, c => a.contains c || b.contains c
  | digit, c => Text.isDecimalDigit c
  | blank, c => Text.isBlank c

/-- In `alt` the first alternative is preferred, and `many` prefers another round to stopping. -/
inductive Pattern where
  | empty
  | one (set : CharSet)
  | seq (p q : Pattern)
  | alt (p q : Pattern)
  | many (p : Pattern)
  | wordEdge
  | textStart
  | textEnd
  deriving Repr, DecidableEq

/-- A place in a text: the number of bytes before it, the character before it and what follows. -/
structure Cursor where
  offset : Nat
  before : Option Char
  rest : List Char
  deriving Repr, DecidableEq

namespace Cursor

def start (text : List Char) : Cursor :=
  ⟨0, none, text⟩

/-- A word edge parts a word character from a character of another kind or from an end of the text. -/
def atWordEdge (c : Cursor) : Bool :=
  c.before.any Text.isWordChar != c.rest.head?.any Text.isWordChar

end Cursor

namespace Pattern

/-- The ends of rounds of a step, more rounds first, with at most one round for each character of
`room`. A round that reads nothing is no round, so the text that is left is always room enough. -/
def rounds (step : Cursor → List Cursor) : (room : List Char) → Cursor → List Cursor
  | [], c => [c]
  | _ :: room, c => ((step c).filter (c.offset < ·.offset)).flatMap (rounds step room) ++ [c]

/-- All ends of a match that starts at the cursor, in the order of preference. -/
def ends : Pattern → Cursor → List Cursor
  | empty, c => [c]
  | one set, c =>
    match c.rest with
    | [] => []
    | x :: rest => if set.contains x then [⟨c.offset + x.utf8Size, some x, rest⟩] else []
  | seq p q, c => (p.ends c).flatMap fun d => q.ends d
  | alt p q, c => p.ends c ++ q.ends c
  | many p, c => rounds (fun d => p.ends d) c.rest c
  | wordEdge, c => if c.atWordEdge then [c] else []
  | textStart, c => if c.before.isNone then [c] else []
  | textEnd, c => if c.rest.isEmpty then [c] else []

/-- Like `rounds`, for a step that goes on by itself. -/
def runRounds (step : Cursor → (Cursor → Option Cursor) → Option Cursor) :
    (room : List Char) → Cursor → (Cursor → Option Cursor) → Option Cursor
  | [], c, next => next c
  | _ :: room, c, next =>
    match step c fun d => if c.offset < d.offset then runRounds step room d next else none with
    | some e => some e
    | none => next c

/-- Match from the cursor and go on with `next` at the first end from which it succeeds. -/
def run : Pattern → Cursor → (next : Cursor → Option Cursor) → Option Cursor
  | empty, c, next => next c
  | one set, c, next =>
    match c.rest with
    | [] => none
    | x :: rest => if set.contains x then next ⟨c.offset + x.utf8Size, some x, rest⟩ else none
  | seq p q, c, next => p.run c fun d => q.run d next
  | alt p q, c, next =>
    match p.run c next with
    | some e => some e
    | none => q.run c next
  | many p, c, next => runRounds (fun d go => p.run d go) c.rest c next
  | wordEdge, c, next => if c.atWordEdge then next c else none
  | textStart, c, next => if c.before.isNone then next c else none
  | textEnd, c, next => if c.rest.isEmpty then next c else none

/-- The preferred end of a match that starts at the cursor. -/
def end? (p : Pattern) (c : Cursor) : Option Cursor :=
  p.run c some

private theorem findSome?_flatMap {α β γ : Type} (f : α → List β) (g : β → Option γ) (l : List α) :
    (l.flatMap f).findSome? g = l.findSome? fun a => (f a).findSome? g := by
  induction l with
  | nil => rfl
  | cons a l ih =>
    rw [List.flatMap_cons, List.findSome?_append, List.findSome?_cons, ih]
    cases (f a).findSome? g <;> rfl

private theorem findSome?_filter {α β : Type} (keep : α → Bool) (g : α → Option β) (l : List α) :
    (l.filter keep).findSome? g = l.findSome? fun a => if keep a then g a else none := by
  induction l with
  | nil => rfl
  | cons a l ih => cases h : keep a <;> simp [h, ih, List.findSome?_cons]

private theorem runRounds_eq_findSome? {step : Cursor → (Cursor → Option Cursor) → Option Cursor}
    {ends : Cursor → List Cursor} (hstep : ∀ c next, step c next = (ends c).findSome? next)
    (room : List Char) (c : Cursor) (next : Cursor → Option Cursor) :
    runRounds step room c next = (rounds ends room c).findSome? next := by
  induction room generalizing c with
  | nil => simp [runRounds, rounds]
  | cons x room ih =>
    rw [runRounds, rounds, List.findSome?_append, findSome?_flatMap, findSome?_filter, hstep]
    simp only [ih, decide_eq_true_eq]
    cases (ends c).findSome? fun d =>
        if c.offset < d.offset then (rounds ends room d).findSome? next else none with
    | none => simp
    | some e => simp

/-- The first end from which the rest succeeds is found among the ends in their order. -/
theorem run_eq_findSome? (p : Pattern) (c : Cursor) (next : Cursor → Option Cursor) :
    p.run c next = (p.ends c).findSome? next := by
  induction p generalizing c next with
  | empty => simp [run, ends]
  | one set =>
    cases h : c.rest with
    | nil => simp [run, ends, h]
    | cons x rest =>
      simp only [run, ends, h]
      split <;> simp
  | seq p q hp hq => simp only [run, ends, hp, hq, findSome?_flatMap]
  | alt p q hp hq =>
    simp only [run, ends, hp, hq, List.findSome?_append]
    cases (p.ends c).findSome? next <;> rfl
  | many p hp => exact runRounds_eq_findSome? hp c.rest c next
  | wordEdge => simp only [run, ends]; split <;> simp
  | textStart => simp only [run, ends]; split <;> simp
  | textEnd => simp only [run, ends]; split <;> simp

theorem end?_eq_head? (p : Pattern) (c : Cursor) : p.end? c = (p.ends c).head? := by
  rw [end?, run_eq_findSome?]
  cases p.ends c <;> simp

/-- One pattern after another. -/
def sequence : List Pattern → Pattern
  | [] => empty
  | [p] => p
  | p :: ps => seq p (sequence ps)

/-- The first of the patterns that matches. -/
def oneOf (p : Pattern) : List Pattern → Pattern
  | [] => p
  | q :: qs => alt p (oneOf q qs)

def optional (p : Pattern) : Pattern :=
  alt p empty

def many1 (p : Pattern) : Pattern :=
  seq p (many p)

def literal (s : String) : Pattern :=
  sequence (s.toList.map fun c => one (.only c))

/-- The letters of the text in either case. -/
def caseless (s : String) : Pattern :=
  sequence (s.toList.map fun c => one (.caseless c))

end Pattern

end PlanAudit
