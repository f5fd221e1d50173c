import Galley.Number.Binary64
import Galley.Text.Size
/-!
# JSON values

Objects keep their members in the order of the text. A name may stand in an object more than once;
looking it up finds the last member with it.

The weight of a value bounds its nodes and the bytes of its strings at once: no value weighs more
than the text it was read from, and a string weighs more than any value read from it.
-/
namespace Galley.Json

/-- A number as its spelling presents it: whole numbers that fit 64 bits are exact. -/
inductive Number where
  | natural (n : UInt64)
  /-- The number `-n`, with `1 ≤ n ≤ 2 ^ 63`. -/
  | negative (n : UInt64)
  | float (x : Galley.Number.Binary64)
deriving DecidableEq, Repr

inductive Value where
  | null
  | bool (b : Bool)
  | number (n : Number)
  | string (s : String)
  | array (items : List Value)
  | object (members : List (String × Value))
deriving Repr

namespace Value

/-! ### Access -/

/-- The value of the last member with a name. -/
def lookup (name : String) : List (String × Value) → Option Value
  | [] => none
  | (key, value) :: rest =>
    match lookup name rest with
    | some later => some later
    | none => if key = name then some value else none

/-- The member of an object with a name; nothing else has members. -/
def get? (name : String) : Value → Option Value
  | .object members => lookup name members
  | _ => none

def string? : Value → Option String
  | .string s => some s
  | _ => none

def array? : Value → Option (List Value)
  | .array items => some items
  | _ => none

/-! ### Weight -/

mutual

/-- One for each node, and one more for each byte of a string in it. -/
def weight : Value → Nat
  | .null => 1
  | .bool _ => 1
  | .number _ => 1
  | .string s => Text.size s.toList + 1
  | .array items => weightItems items + 1
  | .object members => weightMembers members + 1

def weightItems : List Value → Nat
  | [] => 0
  | item :: rest => weight item + weightItems rest

def weightMembers : List (String × Value) → Nat
  | [] => 0
  | (_, value) :: rest => weight value + weightMembers rest

end

theorem weight_pos (v : Value) : 0 < v.weight := by
  cases v <;> simp [weight]

theorem weight_le_weightItems {item : Value} {items : List Value} (h : item ∈ items) :
    item.weight ≤ weightItems items := by
  induction items with
  | nil => cases h
  | cons first rest ih =>
    simp only [weightItems]
    cases h with
    | head => omega
    | tail _ later => have := ih later; omega

theorem weight_le_weightMembers {name : String} {value : Value} {members : List (String × Value)}
    (h : lookup name members = some value) : value.weight ≤ weightMembers members := by
  induction members with
  | nil => simp [lookup] at h
  | cons first rest ih =>
    obtain ⟨key, v⟩ := first
    simp only [weightMembers]
    unfold lookup at h
    split at h
    · next later found =>
      cases h
      have := ih found
      omega
    · split at h
      · cases h; omega
      · cases h

theorem weight_get?_lt {name : String} {v value : Value} (h : v.get? name = some value) :
    value.weight < v.weight := by
  cases v <;> simp only [get?, reduceCtorEq] at h
  simp only [weight]
  have := weight_le_weightMembers h
  omega

@[simp] theorem weightItems_append (first second : List Value) :
    weightItems (first ++ second) = weightItems first + weightItems second := by
  induction first with
  | nil => simp [weightItems]
  | cons item rest ih => simp [weightItems, ih, Nat.add_assoc]

@[simp] theorem weightMembers_append (first second : List (String × Value)) :
    weightMembers (first ++ second) = weightMembers first + weightMembers second := by
  induction first with
  | nil => simp [weightMembers]
  | cons item rest ih => simp [weightMembers, ih, Nat.add_assoc]

end Value
end Galley.Json
