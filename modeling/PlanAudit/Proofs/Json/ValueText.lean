import Mathlib.Data.List.DropRight
import PlanAudit.Proofs.Json.NumberText
import PlanAudit.Proofs.Json.StringText

/-! Values in JSON text. What is written for a value, on one line or indented, is read as that value
with the members of its objects in the order of their keys. -/
namespace PlanAudit

theorem exists_of_bind_eq_ok {ε α β : Type} {x : Except ε α} {f : α → Except ε β} {b : β}
    (h : (x >>= f) = .ok b) : ∃ a, x = .ok a ∧ f a = .ok b := by
  cases x with
  | error e => cases h
  | ok a => exact ⟨a, rfl, h⟩

theorem mapError_eq_ok_iff {ε δ α : Type} {x : Except ε α} {f : ε → δ} {a : α} :
    x.mapError f = .ok a ↔ x = .ok a := by
  cases x with
  | error e => constructor <;> (intro h; cases h)
  | ok b =>
    show Except.ok b = .ok a ↔ Except.ok b = .ok a
    rw [Except.ok.injEq, Except.ok.injEq]

namespace Json

section Blanks

variable {blanks : List Char} (h : ∀ c ∈ blanks, isBlank c = true)
include h

private theorem skipBlanks_append (cs : List Char) : skipBlanks (blanks ++ cs) = skipBlanks cs :=
  List.dropWhile_append_of_pos h

private theorem endsValue_append {rest : List Char} (hrest : EndsValue rest) :
    EndsValue (blanks ++ rest) := by
  cases blanks with
  | nil => exact hrest
  | cons c blanks => exact endsValue_cons (.inl (h c List.mem_cons_self)) _

end Blanks

private theorem skipBlanks_cons {c : Char} (h : isBlank c = false) (cs : List Char) :
    skipBlanks (c :: cs) = c :: cs := by
  apply List.dropWhile_cons_of_neg
  rw [h]
  exact Bool.false_ne_true

def valueStarts : List Char :=
  ['n', 't', 'f', '"', '[', '\x7b', '-'] ++ (List.range' 48 10).map Char.ofNat

private theorem mem_valueStarts_of_isDigit {c : Char} (h : c.isDigit = true) : c ∈ valueStarts := by
  have hcode := isDigit_bounds h
  apply List.mem_append_right
  rw [List.mem_map]
  refine ⟨c.toNat, List.mem_range'_1.2 ?_, Char.ofNat_toNat c⟩
  omega

private theorem isBlank_of_mem_valueStarts {c : Char} (h : c ∈ valueStarts) :
    isBlank c = false := by
  have hall : valueStarts.all (fun c => isBlank c == false) = true := by decide
  exact beq_iff_eq.1 (List.all_eq_true.1 hall c h)

section Reading

variable [FloatFormat] {steps depth : Nat} {cs ds rest rest' : List Char}

private theorem readValue_congr (h : skipBlanks cs = skipBlanks ds) :
    readValue (steps + 1) depth cs = readValue (steps + 1) depth ds := by
  rw [readValue, readValue, h]

private theorem readItems_congr (h : skipBlanks cs = skipBlanks ds) :
    readItems (steps + 1) depth cs = readItems (steps + 1) depth ds := by
  rw [readItems, readItems, h]

private theorem readMembers_congr (h : skipBlanks cs = skipBlanks ds) :
    readMembers (steps + 1) depth cs = readMembers (steps + 1) depth ds := by
  rw [readMembers, readMembers, h]

/-- A value begins behind the blanks, and not with a closing bracket. -/
theorem skipBlanks_of_readValue {result : Json × List Char}
    (h : readValue steps depth cs = .ok result) :
    ∃ c rest, skipBlanks cs = c :: rest ∧ c ∈ valueStarts ∧
      readValue steps depth (c :: rest) = .ok result := by
  cases steps with
  | zero => cases h
  | succ steps =>
    cases hcs : skipBlanks cs with
    | nil =>
      rw [readValue, hcs] at h
      cases h
    | cons c rest =>
      refine ⟨c, rest, rfl, ?_, ?_⟩
      · rw [readValue, hcs] at h
        split at h
        case h_1 heq => cases heq
        case h_9 heq =>
          cases heq
          split at h
          case isTrue hdigit => exact mem_valueStarts_of_isDigit hdigit
          case isFalse => cases h
        all_goals
          rename_i heq
          cases heq
          decide
      · rw [← h, ← hcs]
        exact readValue_congr (List.dropWhile_idempotent _ _)

/-- A number is read behind its sign. -/
theorem readValue_signed (negative : Bool) {c : Char} (hc : c.isDigit = true) (cs : List Char) :
    readValue (steps + 1) depth (signed negative (c :: cs)) = readNumber negative (c :: cs) := by
  cases negative with
  | true => rfl
  | false =>
    have hblank := isBlank_of_mem_valueStarts (mem_valueStarts_of_isDigit hc)
    unfold signed
    rw [if_neg Bool.false_ne_true, readValue, skipBlanks_cons hblank]
    split
    case h_1 heq => cases heq
    case h_9 heq =>
      cases heq
      rw [if_pos hc]
    all_goals
      rename_i heq
      cases heq
      cases hc

theorem readValue_of_readNumber {negative : Bool} {result : Json × List Char}
    (h : readNumber negative cs = .ok result) :
    readValue (steps + 1) depth (signed negative cs) = .ok result := by
  obtain ⟨c, rest, rfl, hc⟩ := isDigit_of_readNumber h
  rw [readValue_signed negative hc, h]

theorem readValue_string (s : String) (rest : List Char) :
    readValue (steps + 1) depth (stringChars s ++ rest) = .ok (.string s, rest) := by
  have htext : stringChars s ++ rest = '"' :: (s.toList.flatMap escape ++ '"' :: rest) := by
    simp [stringChars]
  rw [htext, readValue, skipBlanks_cons rfl]
  simp only [readString_toList, bind, Except.bind]
  rfl

theorem readValue_array {item : Json} {items : List Json}
    (hitem : readValue steps depth cs = .ok (item, rest))
    (hitems : readItems steps depth rest = .ok (items, rest')) :
    readValue (steps + 1) (depth + 1) ('[' :: cs) = .ok (.array (item :: items), rest') := by
  obtain ⟨c, ds, hcs, hstart, hread⟩ := skipBlanks_of_readValue hitem
  rw [readValue, skipBlanks_cons rfl]
  simp only [hcs]
  split
  case h_1 heq => cases heq
  case h_2 heq =>
    rw [(List.cons.inj heq).1] at hstart
    exact absurd hstart (by decide)
  case h_3 =>
    simp only [hread, hitems, bind, Except.bind]
    rfl

theorem readItems_cons {item : Json} {items : List Json}
    (hitem : readValue steps depth cs = .ok (item, rest))
    (hitems : readItems steps depth rest = .ok (items, rest')) :
    readItems (steps + 1) depth (',' :: cs) = .ok (item :: items, rest') := by
  obtain ⟨c, ds, hcs, hstart, hread⟩ := skipBlanks_of_readValue hitem
  rw [readItems, skipBlanks_cons rfl]
  simp only [hcs]
  split
  case h_1 heq => cases heq
  case h_2 heq =>
    rw [(List.cons.inj heq).1] at hstart
    exact absurd hstart (by decide)
  case h_3 =>
    simp only [hread, hitems, bind, Except.bind]
    rfl

theorem readMember_eq (key : String) {value : Json}
    (hvalue : readValue steps depth cs = .ok (value, rest)) :
    readMember (steps + 1) depth (key.toList.flatMap escape ++ '"' :: ':' :: cs) =
      .ok ((key, value), rest) := by
  have hcolon : readColon (':' :: cs) = .ok cs := rfl
  rw [readMember, readString_toList]
  simp only [hcolon, hvalue, bind, Except.bind]
  rfl

theorem readValue_object {member : String × Json} {members : Members}
    (hcs : skipBlanks cs = '"' :: ds)
    (hmember : readMember steps depth ds = .ok (member, rest))
    (hmembers : readMembers steps depth rest = .ok (members, rest')) :
    readValue (steps + 1) (depth + 1) ('\x7b' :: cs) =
      .ok (.object (sortKeys (member :: members)), rest') := by
  rw [readValue, skipBlanks_cons rfl]
  simp only [hcs, hmember, hmembers, bind, Except.bind]
  rfl

theorem readMembers_cons {member : String × Json} {members : Members}
    (hcs : skipBlanks cs = '"' :: ds)
    (hmember : readMember steps depth ds = .ok (member, rest))
    (hmembers : readMembers steps depth rest = .ok (members, rest')) :
    readMembers (steps + 1) depth (',' :: cs) = .ok (member :: members, rest') := by
  rw [readMembers, skipBlanks_cons rfl]
  simp only [hcs, hmember, hmembers, bind, Except.bind]
  rfl

end Reading

section Floats

variable [FloatFormat]

def FloatReadsBack (x : Binary64) : Prop :=
  read (float x).compact = .ok (.float x)

/-- The text of a float is read as the float if the numeral is that it spells. -/
theorem floatReadsBack_iff {x : Binary64} {n : Numeral} (hsign : n.negative = x.negative)
    (hspells : Spells ((FloatFormat.digits x).writeUnsigned floatLayout) n) :
    FloatReadsBack x ↔ FloatFormat.read n = some x := by
  obtain ⟨c, cs, hstart, hc⟩ := hspells.starts
  obtain ⟨place, hplace⟩ := hspells.reads [] endsValue_nil
  have hchars : (float x).chars = signed x.negative (c :: cs) := by
    rw [← hstart]
    rfl
  have hvalue : readValue (3 * (float x).chars.length + 3) maxDepth (float x).chars =
      floatOf n place [] := by
    rw [hchars, readValue_signed x.negative hc, ← hstart, ← hsign, ← hplace, List.append_nil]
  have htext : FloatReadsBack x ↔ readText (float x).chars = .ok (.float x) := by
    rw [FloatReadsBack, read, mapError_eq_ok_iff, compact, String.toList_ofList]
  rw [htext, readText, hvalue, floatOf]
  cases FloatFormat.read n with
  | none =>
    constructor <;> (intro h; cases h)
  | some y =>
    constructor
    · intro h
      cases h
      rfl
    · intro h
      cases h
      rfl

/-- Where the text of a float alone is read as the float, it is so in front of whatever ends a value. -/
theorem FloatReadsBack.readNumber {x : Binary64} (h : FloatReadsBack x) :
    ∃ text, (float x).chars = signed x.negative text ∧
      ∀ rest, EndsValue rest → readNumber x.negative (text ++ rest) = .ok (.float x, rest) := by
  obtain ⟨n, hsign, -, hspells⟩ :=
    spells_writeUnsigned floatLayout x.negative (FloatFormat.digits x)
  have hread := (floatReadsBack_iff hsign hspells).1 h
  refine ⟨_, rfl, fun rest hrest => ?_⟩
  obtain ⟨place, hplace⟩ := hspells.reads rest hrest
  rw [← hsign, hplace, floatOf_eq hread]

end Floats

/-- A float is the nearest one to the digits that are written for it. -/
theorem floatReadsBack_nearest (x : Binary64) : FloatReadsBack x := by
  obtain ⟨n, hsign, hvalue, hspells⟩ := spells_writeUnsigned floatLayout x.negative x.shortest
  have hread : Binary64.ofDecimal? n.negative n.decimal = some x := by
    rw [hsign, Binary64.ofDecimal?_congr _ hvalue, Binary64.ofDecimal?_shortest]
  exact (floatReadsBack_iff hsign hspells).2 hread

private theorem lineBreak_blank (level : Nat) : ∀ c ∈ lineBreak level, isBlank c = true := by
  intro c hc
  rcases List.mem_cons.1 hc with rfl | hc
  · rfl
  · rw [List.eq_of_mem_replicate hc]
    rfl

/-- The blanks in the text of a value: before each item and member and before the bracket that closes
them, inside `level` brackets, and behind each colon. -/
structure Spacing where
  line : (level : Nat) → List Char
  colon : List Char
  line_blank : ∀ level, ∀ c ∈ line level, isBlank c = true
  colon_blank : ∀ c ∈ colon, isBlank c = true

namespace Spacing

variable [FloatFormat]

mutual

def chars (sp : Spacing) (level : Nat) : Json → List Char
  | array (item :: items) =>
    '[' :: sp.line (level + 1) ++ sp.chars (level + 1) item ++ sp.itemsTail level items
  | object ((key, value) :: members) =>
    '\x7b' :: sp.line (level + 1) ++ stringChars key
      ++ ':' :: (sp.colon ++ sp.chars (level + 1) value) ++ sp.membersTail level members
  | value => value.chars

def itemsTail (sp : Spacing) (level : Nat) : List Json → List Char
  | [] => sp.line level ++ [']']
  | item :: items =>
    ',' :: sp.line (level + 1) ++ sp.chars (level + 1) item ++ sp.itemsTail level items

def membersTail (sp : Spacing) (level : Nat) : List (String × Json) → List Char
  | [] => sp.line level ++ ['\x7d']
  | (key, value) :: members =>
    ',' :: sp.line (level + 1) ++ stringChars key
      ++ ':' :: (sp.colon ++ sp.chars (level + 1) value) ++ sp.membersTail level members

end

def none : Spacing :=
  ⟨fun _ => [], [], fun _ => List.forall_mem_nil _, List.forall_mem_nil _⟩

def indented : Spacing :=
  ⟨lineBreak, [' '], lineBreak_blank, List.forall_mem_singleton.2 rfl⟩

mutual

theorem chars_none (level : Nat) : (value : Json) → none.chars level value = value.chars
  | null | bool _ | integer _ | float _ | string _ | array [] | object [] => by
    rw [chars]
    all_goals simp
  | array (item :: items) => by
    rw [chars, Json.chars, chars_none (level + 1) item, itemsTail_none level items]
    rfl
  | object ((key, value) :: members) => by
    rw [chars, Json.chars, chars_none (level + 1) value, membersTail_none level members]
    rfl

private theorem itemsTail_none (level : Nat) : (items : List Json) →
    none.itemsTail level items = Json.itemsTail items
  | [] => rfl
  | item :: items => by
    rw [itemsTail, Json.itemsTail, chars_none (level + 1) item, itemsTail_none level items]
    rfl

private theorem membersTail_none (level : Nat) : (members : List (String × Json)) →
    none.membersTail level members = Json.membersTail members
  | [] => rfl
  | (key, value) :: members => by
    rw [membersTail, Json.membersTail, chars_none (level + 1) value, membersTail_none level members]
    rfl

end

mutual

theorem chars_indented (level : Nat) : (value : Json) →
    indented.chars level value = value.prettyChars level
  | null | bool _ | integer _ | float _ | string _ | array [] | object [] => by
    rw [chars, prettyChars]
    all_goals simp
  | array (item :: items) => by
    rw [chars, prettyChars, chars_indented (level + 1) item, itemsTail_indented level items]
    rfl
  | object ((key, value) :: members) => by
    rw [chars, prettyChars, chars_indented (level + 1) value, membersTail_indented level members]
    rfl

private theorem itemsTail_indented (level : Nat) : (items : List Json) →
    indented.itemsTail level items = prettyItemsTail level items
  | [] => rfl
  | item :: items => by
    rw [itemsTail, prettyItemsTail, chars_indented (level + 1) item, itemsTail_indented level items]
    rfl

private theorem membersTail_indented (level : Nat) : (members : List (String × Json)) →
    indented.membersTail level members = prettyMembersTail level members
  | [] => rfl
  | (key, value) :: members => by
    rw [membersTail, prettyMembersTail, chars_indented (level + 1) value,
      membersTail_indented level members]
    rfl

end

end Spacing

/-- A value that can be read inside brackets when at most `depth` more may be opened. -/
inductive Fits [FloatFormat] : (depth : Nat) → Json → Prop where
  | null {depth : Nat} : Fits depth .null
  | bool {depth : Nat} (b : Bool) : Fits depth (.bool b)
  | integer {depth : Nat} {n : Int} : InRange n → Fits depth (.integer n)
  | float {depth : Nat} {x : Binary64} : FloatReadsBack x → Fits depth (.float x)
  | string {depth : Nat} (s : String) : Fits depth (.string s)
  | array {depth : Nat} {items : List Json} :
    (∀ item ∈ items, Fits depth item) → Fits (depth + 1) (.array items)
  | object {depth : Nat} {members : Members} :
    (∀ member ∈ members, Fits depth member.2) → Fits (depth + 1) (.object members)

mutual

def sorted : Json → Json
  | array items => array (sortedItems items)
  | object members => object (sortKeys (sortedMembers members))
  | value => value

def sortedItems : List Json → List Json
  | [] => []
  | item :: items => sorted item :: sortedItems items

def sortedMembers : List (String × Json) → List (String × Json)
  | [] => []
  | (key, value) :: members => (key, sorted value) :: sortedMembers members

end

namespace Spacing

private theorem skipBlanks_line (sp : Spacing) (level : Nat) (cs : List Char) :
    skipBlanks (sp.line level ++ '"' :: cs) = '"' :: cs := by
  rw [skipBlanks_append (sp.line_blank level), skipBlanks_cons rfl]

variable [FloatFormat] (sp : Spacing)

def ReadsBack (depth : Nat) (value : Json) : Prop :=
  ∀ (level steps : Nat) (rest : List Char), EndsValue rest →
    (sp.chars level value).length ≤ steps + 1 →
      readValue (steps + 1) depth (sp.chars level value ++ rest) = .ok (value.sorted, rest)

private theorem endsValue_itemsTail (level : Nat) (items : List Json) (rest : List Char) :
    EndsValue (sp.itemsTail level items ++ rest) := by
  cases items with
  | nil =>
    rw [itemsTail, List.append_assoc]
    exact endsValue_append (sp.line_blank level) (endsValue_cons (.inr (by decide)) _)
  | cons item items => exact endsValue_cons (.inr (by decide)) _

private theorem endsValue_membersTail (level : Nat) (members : Members) (rest : List Char) :
    EndsValue (sp.membersTail level members ++ rest) := by
  cases members with
  | nil =>
    rw [membersTail, List.append_assoc]
    exact endsValue_append (sp.line_blank level) (endsValue_cons (.inr (by decide)) _)
  | cons member members => exact endsValue_cons (.inr (by decide)) _

variable {sp} {depth : Nat}

theorem ReadsBack.blanks {value : Json} (h : sp.ReadsBack depth value) {blanks : List Char}
    (hblanks : ∀ c ∈ blanks, isBlank c = true) (level steps : Nat) {rest : List Char}
    (hrest : EndsValue rest) (hsteps : (sp.chars level value).length ≤ steps + 1) :
    readValue (steps + 1) depth (blanks ++ (sp.chars level value ++ rest)) =
      .ok (value.sorted, rest) := by
  rw [← h level steps rest hrest hsteps]
  exact readValue_congr (skipBlanks_append hblanks _)

/-- A member of an object, behind the opening quotation mark of its key. -/
theorem ReadsBack.member {value : Json} (h : sp.ReadsBack depth value) (key : String)
    (level steps : Nat) {rest : List Char} (hrest : EndsValue rest)
    (hsteps : (sp.chars level value).length ≤ steps + 1) :
    readMember (steps + 2) depth (key.toList.flatMap escape ++
      '"' :: ':' :: (sp.colon ++ (sp.chars level value ++ rest))) =
        .ok ((key, value.sorted), rest) :=
  readMember_eq key (h.blanks sp.colon_blank level steps hrest hsteps)

theorem readItems_itemsTail {items : List Json} (h : ∀ item ∈ items, sp.ReadsBack depth item)
    (level steps : Nat) (rest : List Char)
    (hsteps : (sp.itemsTail level items).length ≤ steps + 1) :
    readItems (steps + 1) depth (sp.itemsTail level items ++ rest) =
      .ok (sortedItems items, rest) := by
  induction items generalizing steps with
  | nil =>
    rw [itemsTail, List.append_assoc, readItems_congr (skipBlanks_append (sp.line_blank level) _)]
    rfl
  | cons item items ih =>
    obtain ⟨hfirst, hothers⟩ := List.forall_mem_cons.1 h
    have htail : 0 < (sp.itemsTail level items).length := by
      cases items <;> simp [itemsTail]
    simp only [itemsTail, List.length_append, List.length_cons] at hsteps
    obtain ⟨steps, rfl⟩ : ∃ n, steps = n + 1 := ⟨steps - 1, by omega⟩
    have hitem := hfirst.blanks (sp.line_blank (level + 1)) (level + 1) steps
      (sp.endsValue_itemsTail level items rest) (by omega)
    have hitems := ih hothers steps (by omega)
    rw [itemsTail, List.append_assoc, List.append_assoc, List.cons_append, sortedItems]
    exact readItems_cons hitem hitems

theorem readMembers_membersTail {members : Members}
    (h : ∀ member ∈ members, sp.ReadsBack depth member.2) (level steps : Nat) (rest : List Char)
    (hsteps : (sp.membersTail level members).length ≤ steps + 1) :
    readMembers (steps + 1) depth (sp.membersTail level members ++ rest) =
      .ok (sortedMembers members, rest) := by
  induction members generalizing steps with
  | nil =>
    rw [membersTail, List.append_assoc,
      readMembers_congr (skipBlanks_append (sp.line_blank level) _)]
    rfl
  | cons member members ih =>
    obtain ⟨key, value⟩ := member
    obtain ⟨hfirst, hothers⟩ := List.forall_mem_cons.1 h
    simp only [membersTail, stringChars, List.length_append, List.length_cons] at hsteps
    obtain ⟨steps, rfl⟩ : ∃ n, steps = n + 2 := ⟨steps - 2, by omega⟩
    have hmember := ReadsBack.member hfirst key (level + 1) steps
      (sp.endsValue_membersTail level members rest) (show (sp.chars _ value).length ≤ _ by omega)
    have hmembers := ih hothers (steps + 1) (by omega)
    have hread := readMembers_cons (sp.skipBlanks_line (level + 1) _) hmember hmembers
    simpa only [membersTail, sortedMembers, stringChars, List.append_assoc, List.cons_append,
      List.nil_append] using hread

variable (sp) in
/-- The invariant is the text's length: all parts of a text are shorter than the text, and each step is
spent on a shorter one. -/
theorem readsBack_of_fits {value : Json} (h : Fits depth value) : sp.ReadsBack depth value := by
  induction h with
  | null =>
    intro level steps rest hrest hsteps
    rfl
  | bool b =>
    intro level steps rest hrest hsteps
    cases b <;> rfl
  | @integer _ n hn =>
    intro level steps rest hrest hsteps
    obtain ⟨negative, text, htext, hread⟩ := readNumber_intChars hn
    show readValue _ _ (intChars n ++ rest) = _
    rw [htext, signed_append]
    exact readValue_of_readNumber (hread rest hrest)
  | @float _ x hx =>
    intro level steps rest hrest hsteps
    obtain ⟨text, htext, hread⟩ := hx.readNumber
    show readValue _ _ ((float x).chars ++ rest) = _
    rw [htext, signed_append]
    exact readValue_of_readNumber (hread rest hrest)
  | string s =>
    intro level steps rest hrest hsteps
    exact readValue_string s rest
  | @array depth items _ ih =>
    intro level steps rest hrest hsteps
    cases items with
    | nil => rfl
    | cons item items =>
      obtain ⟨hfirst, hothers⟩ := List.forall_mem_cons.1 ih
      have htail : 0 < (sp.itemsTail level items).length := by
        cases items <;> simp [itemsTail]
      simp only [chars, List.length_append, List.length_cons] at hsteps
      obtain ⟨steps, rfl⟩ : ∃ n, steps = n + 1 := ⟨steps - 1, by omega⟩
      have hitem := hfirst.blanks (sp.line_blank (level + 1)) (level + 1) steps
        (sp.endsValue_itemsTail level items rest) (by omega)
      have hitems := readItems_itemsTail hothers level steps rest (by omega)
      rw [chars, List.append_assoc, List.append_assoc, List.cons_append, sorted, sortedItems]
      exact readValue_array hitem hitems
  | @object depth members _ ih =>
    intro level steps rest hrest hsteps
    cases members with
    | nil => rfl
    | cons member members =>
      obtain ⟨key, value⟩ := member
      obtain ⟨hfirst, hothers⟩ := List.forall_mem_cons.1 ih
      simp only [chars, stringChars, List.length_append, List.length_cons] at hsteps
      obtain ⟨steps, rfl⟩ : ∃ n, steps = n + 2 := ⟨steps - 2, by omega⟩
      have hmember := ReadsBack.member hfirst key (level + 1) steps
        (sp.endsValue_membersTail level members rest) (show (sp.chars _ value).length ≤ _ by omega)
      have hmembers := readMembers_membersTail hothers level (steps + 1) rest (by omega)
      have hread := readValue_object (sp.skipBlanks_line (level + 1) _) hmember hmembers
      simpa only [chars, sorted, sortedMembers, stringChars, List.append_assoc, List.cons_append,
        List.nil_append] using hread

variable (sp) in
/-- A text that holds what is written for a value, and blanks behind it. -/
theorem readText_chars {value : Json} (h : Fits maxDepth value) (blanks : List Char)
    (hblanks : ∀ c ∈ blanks, isBlank c = true) :
    readText (sp.chars 0 value ++ blanks) = .ok value.sorted := by
  have hrest : EndsValue blanks := by
    rw [← List.append_nil blanks]
    exact endsValue_append hblanks endsValue_nil
  have hvalue := readsBack_of_fits sp h 0 (3 * (sp.chars 0 value ++ blanks).length + 2) blanks hrest
    (by rw [List.length_append]; omega)
  have hend : skipBlanks blanks = [] := by
    rw [← List.append_nil blanks, skipBlanks_append hblanks]
    rfl
  unfold readText
  rw [hvalue]
  simp only [bind, Except.bind, hend]
  rfl

end Spacing

variable [FloatFormat]

theorem read_compact {value : Json} (h : Fits maxDepth value) :
    read value.compact = .ok value.sorted := by
  have hread := Spacing.readText_chars .none h [] (List.forall_mem_nil _)
  rw [List.append_nil, Spacing.chars_none] at hread
  unfold read compact
  rw [String.toList_ofList, hread]
  rfl

theorem read_pretty {value : Json} (h : Fits maxDepth value) :
    read value.pretty = .ok value.sorted := by
  have hread := Spacing.readText_chars .indented h [] (List.forall_mem_nil _)
  rw [List.append_nil, Spacing.chars_indented] at hread
  unfold read pretty
  rw [String.toList_ofList, hread]
  rfl

end Json

end PlanAudit
