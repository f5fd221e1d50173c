import Galley.Json.Parser
import Galley.Proofs.Json.Members
import Mathlib.Logic.Basic
import Mathlib.Tactic.SplitIfs
/-!
# What values are read from

The first character of a value tells its kind, and the strings, arrays and objects of a value are
read from the text behind it. So whatever is inside a value was read from less text than the value
itself.

## Main result

`size_string_lt_of_parse`.
-/
namespace Galley.Json

open Galley.Text (size)

variable {depth : Nat} {cs rest : List Char} {v : Value} {first : Bool}

/-! ### Values by their first character -/

theorem bare_takeValue_cons {c : Char} {inner : List Char} (starts : skipSpaces cs = c :: inner) :
    bare (takeValue depth cs) =
      if c = 'n' then (bare (takeWord ['u', 'l', 'l'] inner)).map fun taken => (.null, taken.2)
      else if c = 't' then
        (bare (takeWord ['r', 'u', 'e'] inner)).map fun taken => (.bool true, taken.2)
      else if c = 'f' then
        (bare (takeWord ['a', 'l', 's', 'e'] inner)).map fun taken => (.bool false, taken.2)
      else if c = '-' then
        (bare (takeNumber true inner)).map fun taken => (.number taken.1, taken.2)
      else if isDigit c then
        (bare (takeNumber false (c :: inner))).map fun taken => (.number taken.1, taken.2)
      else if c = '"' then (bare (takeText inner)).map fun taken => (.string taken.1, taken.2)
      else if c = '[' then
        match depth with
        | 0 => faultPast .tooDeep (c :: inner)
        | depth + 1 =>
          (bare (takeItems depth true inner)).map fun taken => (.array taken.1, taken.2)
      else if c = '\x7b' then
        match depth with
        | 0 => faultPast .tooDeep (c :: inner)
        | depth + 1 =>
          (bare (takeMembers depth true inner)).map fun taken => (.object taken.1, taken.2)
      else faultPast .noValue (c :: inner) := by
  rw [takeValue]
  split
  next missing => rw [starts] at missing; cases missing
  next d rest same =>
    rw [starts] at same
    cases same
    unfold takeWordValue
    refine bare_ite ?_ (bare_ite ?_ (bare_ite ?_ (bare_ite ?_ (bare_ite ?_ (bare_ite ?_
      (bare_ite ?_ (bare_ite ?_ rfl)))))))
    · cases takeWord ['u', 'l', 'l'] inner <;> rfl
    · cases takeWord ['r', 'u', 'e'] inner <;> rfl
    · cases takeWord ['a', 'l', 's', 'e'] inner <;> rfl
    · cases takeNumber true inner <;> rfl
    · cases takeNumber false (c :: inner) <;> rfl
    · cases takeText inner <;> rfl
    · cases depth with
      | zero => rfl
      | succ depth =>
        dsimp only
        cases takeItems depth true inner <;> rfl
    · cases depth with
      | zero => rfl
      | succ depth =>
        dsimp only
        cases takeMembers depth true inner <;> rfl

/-- What stands behind the first character of a value before `rest`; of a number or a truth value
this does not tell. -/
inductive Begins (rest : List Char) : Nat → Char → List Char → Value → Prop
  | null {depth : Nat} {inner : List Char}
      (word : bare (takeWord ['u', 'l', 'l'] inner) = .ok ((), rest)) :
    Begins rest depth 'n' inner .null
  | bool (depth : Nat) (c : Char) (inner : List Char) (b : Bool) :
    Begins rest depth c inner (.bool b)
  | number (depth : Nat) (c : Char) (inner : List Char) (n : Number) :
    Begins rest depth c inner (.number n)
  | string {depth : Nat} {inner : List Char} {text : String}
      (spelled : bare (takeText inner) = .ok (text, rest)) :
    Begins rest depth '"' inner (.string text)
  | array {depth : Nat} {inner : List Char} {items : List Value}
      (listed : bare (takeItems depth true inner) = .ok (items, rest)) :
    Begins rest (depth + 1) '[' inner (.array items)
  | object {depth : Nat} {inner : List Char} {members : List (String × Value)}
      (listed : bare (takeMembers depth true inner) = .ok (members, rest)) :
    Begins rest (depth + 1) '\x7b' inner (.object members)

theorem begins_of_takeValue (taken : bare (takeValue depth cs) = .ok (v, rest)) :
    ∃ c inner, skipSpaces cs = c :: inner ∧ Begins rest depth c inner v := by
  cases starts : skipSpaces cs with
  | nil =>
    rw [takeValue] at taken
    split at taken
    · cases taken
    next c inner same => rw [starts] at same; cases same
  | cons c inner =>
    refine ⟨c, inner, rfl, ?_⟩
    rw [bare_takeValue_cons starts] at taken
    obtain ⟨rfl, taken⟩ | ⟨-, taken⟩ := ite_eq_iff.mp taken
    · obtain ⟨⟨⟨⟩, after⟩, word, same⟩ := map_eq_ok_iff.mp taken
      cases same
      exact .null word
    obtain ⟨-, taken⟩ | ⟨-, taken⟩ := ite_eq_iff.mp taken
    · obtain ⟨found, -, same⟩ := map_eq_ok_iff.mp taken
      cases same
      exact .bool ..
    obtain ⟨-, taken⟩ | ⟨-, taken⟩ := ite_eq_iff.mp taken
    · obtain ⟨found, -, same⟩ := map_eq_ok_iff.mp taken
      cases same
      exact .bool ..
    obtain ⟨-, taken⟩ | ⟨-, taken⟩ := ite_eq_iff.mp taken
    · obtain ⟨found, -, same⟩ := map_eq_ok_iff.mp taken
      cases same
      exact .number ..
    obtain ⟨-, taken⟩ | ⟨-, taken⟩ := ite_eq_iff.mp taken
    · obtain ⟨found, -, same⟩ := map_eq_ok_iff.mp taken
      cases same
      exact .number ..
    obtain ⟨rfl, taken⟩ | ⟨-, taken⟩ := ite_eq_iff.mp taken
    · obtain ⟨found, spelled, same⟩ := map_eq_ok_iff.mp taken
      cases same
      exact .string spelled
    -- arrays and objects need a bracket to be left
    cases depth with
    | zero =>
      obtain ⟨-, taken⟩ | ⟨-, taken⟩ := ite_eq_iff.mp taken
      · cases taken
      obtain ⟨-, taken⟩ | ⟨-, taken⟩ := ite_eq_iff.mp taken <;> cases taken
    | succ depth =>
      obtain ⟨rfl, taken⟩ | ⟨-, taken⟩ := ite_eq_iff.mp taken
      · obtain ⟨found, listed, same⟩ := map_eq_ok_iff.mp taken
        cases same
        exact .array listed
      obtain ⟨rfl, taken⟩ | ⟨-, taken⟩ := ite_eq_iff.mp taken
      · obtain ⟨found, listed, same⟩ := map_eq_ok_iff.mp taken
        cases same
        exact .object listed
      · cases taken

/-! ### Items and members -/

/-- What comes next in an array. -/
def aheadItem (first : Bool) (cs : List Char) : Except Fault Ahead :=
  match skipSpaces cs with
  | [] => .error ⟨.endInList, 0⟩
  | c :: rest =>
    if c = ']' then .ok (.closing rest)
    else if first then .ok (.next (c :: rest))
    else if c = ',' then
      match skipSpaces rest with
      | [] => .error ⟨.endInValue, 0⟩
      | d :: more =>
        if d = ']' then faultPast .trailingComma (d :: more) else .ok (.next (d :: more))
    else faultPast .noListEnd (c :: rest)

/-- What was taken first, in front of what was taken behind it. -/
def before {β : Type} (item : β) (taken : List β × List Char) : List β × List Char :=
  (item :: taken.1, taken.2)

/-- A sequence up to its end, by what takes one item and what takes the others behind it. -/
def sequence {β : Type} (next : Except Fault Ahead)
    (take : List Char → Except Fault (β × List Char))
    (others : List Char → Except Fault (List β × List Char)) :
    Except Fault (List β × List Char) :=
  next.bind fun
    | .closing after => .ok ([], after)
    | .next inner => (take inner).bind fun taken => (others taken.2).map (before taken.1)

theorem bare_takeItems (first : Bool) (cs : List Char) :
    bare (takeItems depth first cs) = sequence (aheadItem first cs)
      (fun inner => bare (takeValue depth inner))
      fun after => bare (takeItems depth false after) := by
  rw [takeItems]
  split
  next starts =>
    simp only [aheadItem, starts]
    rfl
  next c after starts =>
    simp only [aheadItem, starts]
    split_ifs
    · rfl
    · exact bare_bind _ fun found => bare_bind_map (before found.1.1) _ _
    · split
      next starts' =>
        simp only [starts']
        rfl
      next d more starts' =>
        simp only [starts']
        split_ifs
        · rfl
        · exact bare_bind _ fun found => bare_bind_map (before found.1.1) _ _
    · rfl

theorem bare_takeMembers (first : Bool) (cs : List Char) :
    bare (takeMembers depth first cs) = sequence (ahead first cs)
      (fun inner => bare (takeMember depth inner))
      fun after => bare (takeMembers depth false after) := by
  rw [takeMembers]
  split
  next starts =>
    simp only [ahead, starts]
    rfl
  next c after starts =>
    simp only [ahead, starts]
    split_ifs
    · rfl
    · exact bare_bind _ fun found => bare_bind_map (before found.1.1) _ _
    · rfl
    · split
      next starts' =>
        simp only [starts']
        rfl
      next d more starts' =>
        simp only [starts']
        split_ifs
        · exact bare_bind _ fun found => bare_bind_map (before found.1.1) _ _
        · rfl
        · rfl
    · rfl

/-- A sequence is empty at its end, and otherwise has an item and the others behind it. -/
theorem sequence_ok_iff {β : Type} {next : Except Fault Ahead}
    {take : List Char → Except Fault (β × List Char)}
    {others : List Char → Except Fault (List β × List Char)} {items : List β} :
    sequence next take others = .ok (items, rest) ↔
      next = .ok (.closing rest) ∧ items = [] ∨
      ∃ inner item after more, next = .ok (.next inner) ∧ take inner = .ok (item, after) ∧
        others after = .ok (more, rest) ∧ items = item :: more := by
  constructor
  · intro taken
    obtain ⟨ahead, found, taken⟩ := bind_eq_ok_iff.mp taken
    cases ahead with
    | closing after =>
      cases taken
      exact .inl ⟨found, rfl⟩
    | next inner =>
      obtain ⟨⟨item, after⟩, read, taken⟩ := bind_eq_ok_iff.mp taken
      obtain ⟨⟨more, behind⟩, listed, same⟩ := map_eq_ok_iff.mp taken
      cases same
      exact .inr ⟨inner, item, after, more, found, read, listed, rfl⟩
  · rintro (⟨rfl, rfl⟩ | ⟨inner, item, after, more, rfl, read, listed, rfl⟩)
    · rfl
    · simp only [sequence, Except.bind, read, listed]
      rfl

theorem takeItems_ok_iff {items : List Value} :
    bare (takeItems depth first cs) = .ok (items, rest) ↔
      aheadItem first cs = .ok (.closing rest) ∧ items = [] ∨
      ∃ inner item after more, aheadItem first cs = .ok (.next inner) ∧
        bare (takeValue depth inner) = .ok (item, after) ∧
        bare (takeItems depth false after) = .ok (more, rest) ∧ items = item :: more := by
  rw [bare_takeItems]
  exact sequence_ok_iff

theorem takeMembers_ok_iff {members : List (String × Value)} :
    bare (takeMembers depth first cs) = .ok (members, rest) ↔
      ahead first cs = .ok (.closing rest) ∧ members = [] ∨
      ∃ inner member after more, ahead first cs = .ok (.next inner) ∧
        bare (takeMember depth inner) = .ok (member, after) ∧
        bare (takeMembers depth false after) = .ok (more, rest) ∧ members = member :: more := by
  rw [bare_takeMembers]
  exact sequence_ok_iff

theorem bare_takeMember (cs : List Char) :
    bare (takeMember depth cs) = (bare (takeText cs)).bind fun named =>
      (behindColon named.2).bind fun inner =>
        (bare (takeValue depth inner)).map fun taken => ((named.1, taken.1), taken.2) := by
  rw [takeMember]
  refine bare_bind _ fun named => ?_
  dsimp only
  split
  next starts =>
    simp only [behindColon, starts]
    rfl
  next c rest starts =>
    simp only [behindColon, starts]
    split_ifs
    · exact bare_bind_map (fun taken : Value × List Char => ((named.1.1, taken.1), taken.2)) _ _
    · rfl

theorem takeMember_ok_iff {name : String} :
    bare (takeMember depth cs) = .ok ((name, v), rest) ↔
      ∃ after inner, bare (takeText cs) = .ok (name, after) ∧ behindColon after = .ok inner ∧
        bare (takeValue depth inner) = .ok (v, rest) := by
  rw [bare_takeMember]
  constructor
  · intro taken
    obtain ⟨⟨key, after⟩, spelled, taken⟩ := bind_eq_ok_iff.mp taken
    obtain ⟨inner, colon, taken⟩ := bind_eq_ok_iff.mp taken
    obtain ⟨⟨value, behind⟩, read, same⟩ := map_eq_ok_iff.mp taken
    cases same
    exact ⟨after, inner, spelled, colon, read⟩
  · rintro ⟨after, inner, spelled, colon, read⟩
    simp only [Except.bind, Except.map, spelled, colon, read]

theorem parse_ok_iff {text : String} :
    parse text = .ok v ↔ ∃ rest,
      bare (takeValue depthLimit text.toList) = .ok (v, rest) ∧ expectEnd rest = .ok () := by
  have same : parse text = decode value text := by
    unfold parse decode value
    cases takeValue depthLimit text.toList <;> rfl
  rw [same, decode_ok_iff]
  simp only [bare_value]

/-! ### Less text for what is inside -/

theorem size_of_skipSpaces_cons {c : Char} {inner : List Char}
    (starts : skipSpaces cs = c :: inner) : c.utf8Size + size inner ≤ size cs := by
  have := size_skipSpaces_le cs
  rw [starts, Text.size_cons] at this
  exact this

theorem size_le_of_aheadItem {inner : List Char}
    (next : aheadItem first cs = .ok (.next inner)) : size inner ≤ size cs := by
  unfold aheadItem at next
  split at next
  · cases next
  next c rest starts =>
    have short := size_of_skipSpaces_cons starts
    split_ifs at next
    · cases next
    · cases next
      exact short
    · split at next
      · cases next
      next d more starts' =>
        have short' := size_of_skipSpaces_cons starts'
        split_ifs at next
        · cases next
        · cases next
          rw [Text.size_cons]
          omega
    · cases next

theorem size_lt_of_ahead {inner : List Char} (next : ahead first cs = .ok (.next inner)) :
    size inner < size cs := by
  unfold ahead at next
  split at next
  · cases next
  next c rest starts =>
    have short := size_of_skipSpaces_cons starts
    have := c.utf8Size_pos
    split_ifs at next
    · cases next
    · cases next
      omega
    · cases next
    · split at next
      · cases next
      next d more starts' =>
        have short' := size_of_skipSpaces_cons starts'
        split_ifs at next
        · cases next
          omega
        · cases next
        · cases next
    · cases next

theorem size_lt_of_behindColon {inner : List Char} (next : behindColon cs = .ok inner) :
    size inner < size cs := by
  unfold behindColon at next
  split at next
  · cases next
  next c rest starts =>
    have short := size_of_skipSpaces_cons starts
    have := c.utf8Size_pos
    split_ifs at next
    · cases next
      omega
    · cases next

theorem size_lt_of_takeText {text : String} (spelled : bare (takeText cs) = .ok (text, rest)) :
    size rest < size cs := by
  obtain ⟨shorter, -⟩ := eq_ok_of_bare spelled
  dsimp only at shorter
  omega

theorem size_lt_of_takeValue (taken : bare (takeValue depth cs) = .ok (v, rest)) :
    size rest < size cs := by
  obtain ⟨light, -⟩ := eq_ok_of_bare taken
  have := v.weight_pos
  dsimp only at light
  omega

theorem size_le_of_takeItems {items : List Value}
    (taken : bare (takeItems depth first cs) = .ok (items, rest)) : size rest ≤ size cs := by
  obtain ⟨light, -⟩ := eq_ok_of_bare taken
  dsimp only at light
  omega

theorem size_le_of_takeMembers {members : List (String × Value)}
    (taken : bare (takeMembers depth first cs) = .ok (members, rest)) : size rest ≤ size cs := by
  obtain ⟨light, -⟩ := eq_ok_of_bare taken
  dsimp only at light
  omega

/-! ### Strings -/

namespace Value

mutual

/-- The strings in a value, the names of members among them. -/
def strings : Value → List String
  | .null | .bool _ | .number _ => []
  | .string s => [s]
  | .array items => stringsOfItems items
  | .object members => stringsOfMembers members

def stringsOfItems : List Value → List String
  | [] => []
  | item :: rest => strings item ++ stringsOfItems rest

def stringsOfMembers : List (String × Value) → List String
  | [] => []
  | (name, value) :: rest => name :: strings value ++ stringsOfMembers rest

end

end Value

/-- Strings fit between two quotes each, in what lies before `rest`. -/
def Fit (strings : List String) (cs rest : List Char) : Prop :=
  ∀ s ∈ strings, size s.toList + 2 + size rest ≤ size cs

theorem fit_nil (cs rest : List Char) : Fit [] cs rest := by
  simp [Fit]

theorem Fit.mono {strings : List String} {inner outer after rest : List Char}
    (fit : Fit strings inner after) (begins : size inner ≤ size outer)
    (ends : size rest ≤ size after) : Fit strings outer rest := by
  intro s member
  have := fit s member
  omega

theorem Fit.append {first second : List String} (one : Fit first cs rest)
    (two : Fit second cs rest) : Fit (first ++ second) cs rest := by
  intro s member
  rcases List.mem_append.mp member with early | late
  · exact one s early
  · exact two s late

theorem fit_of_takeText {text : String} (spelled : bare (takeText cs) = .ok (text, rest)) :
    Fit [text] ('"' :: cs) rest := by
  obtain ⟨shorter, -⟩ := eq_ok_of_bare spelled
  have quote : ('"' : Char).utf8Size = 1 := by decide
  intro s member
  rw [List.mem_singleton] at member
  subst member
  rw [Text.size_cons]
  dsimp only at shorter
  omega

mutual

theorem fit_of_takeValue {depth : Nat} {cs rest : List Char} {v : Value}
    (taken : bare (takeValue depth cs) = .ok (v, rest)) : Fit v.strings cs rest := by
  obtain ⟨c, inner, starts, begins⟩ := begins_of_takeValue taken
  have short := size_of_skipSpaces_cons starts
  have := c.utf8Size_pos
  cases begins with
  | null | bool | number => exact fit_nil cs rest
  | string spelled => exact (fit_of_takeText spelled).mono short (Nat.le_refl _)
  | array listed => exact (fit_of_takeItems listed).mono (by omega) (Nat.le_refl _)
  | object listed => exact (fit_of_takeMembers listed).mono (by omega) (Nat.le_refl _)
termination_by 2 * size cs

theorem fit_of_takeItems {depth : Nat} {first : Bool} {cs rest : List Char} {items : List Value}
    (taken : bare (takeItems depth first cs) = .ok (items, rest)) :
    Fit (Value.stringsOfItems items) cs rest := by
  obtain ⟨-, rfl⟩ | ⟨inner, item, after, more, found, read, listed, rfl⟩ :=
    takeItems_ok_iff.mp taken
  · exact fit_nil cs rest
  · have short := size_le_of_aheadItem found
    have := size_lt_of_takeValue read
    have := size_le_of_takeItems listed
    exact ((fit_of_takeValue read).mono short (by omega)).append
      ((fit_of_takeItems listed).mono (by omega) (Nat.le_refl _))
termination_by 2 * size cs + 1

theorem fit_of_takeMembers {depth : Nat} {first : Bool} {cs rest : List Char}
    {members : List (String × Value)}
    (taken : bare (takeMembers depth first cs) = .ok (members, rest)) :
    Fit (Value.stringsOfMembers members) cs rest := by
  obtain ⟨-, rfl⟩ | ⟨inner, ⟨name, value⟩, after, more, found, read, listed, rfl⟩ :=
    takeMembers_ok_iff.mp taken
  · exact fit_nil cs rest
  · obtain ⟨behind, start, spelled, colon, read⟩ := takeMember_ok_iff.mp read
    have short := size_lt_of_ahead found
    have := size_lt_of_takeText spelled
    have := size_lt_of_behindColon colon
    have := size_lt_of_takeValue read
    have := size_le_of_takeMembers listed
    have quoted : size ('"' :: inner) ≤ size cs := by
      have : ('"' : Char).utf8Size = 1 := by decide
      rw [Text.size_cons]
      omega
    have named : Fit [name] cs rest := (fit_of_takeText spelled).mono quoted (by omega)
    have value : Fit value.strings cs rest := (fit_of_takeValue read).mono (by omega) (by omega)
    exact (named.append value).append ((fit_of_takeMembers listed).mono (by omega) (Nat.le_refl _))
termination_by 2 * size cs + 1

end

/-- The strings in what a text spells, names of members included, are shorter than the text. -/
theorem size_string_lt_of_parse {text : String} (spells : parse text = .ok v) :
    ∀ s ∈ v.strings, size s.toList < size text.toList := by
  obtain ⟨rest, taken, -⟩ := parse_ok_iff.mp spells
  intro s member
  have := fit_of_takeValue taken s member
  omega

end Galley.Json
