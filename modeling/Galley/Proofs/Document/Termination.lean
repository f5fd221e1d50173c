import Galley.Proofs.Document.Decode
import Galley.Proofs.Json.Values
/-!
# Decoding ends

A string in the place of a node is read as a text of its own, and what it spells may be larger than
the string in nodes. Decoding goes down nevertheless: a value weighs one for each node and one for
each byte of its strings, and a text spells no more weight than it has bytes.

## Main result

`decoding_terminates`.
-/
namespace Galley.Document.Node

open Galley.Json (Value bare parse takeText)
open Galley.Text (size size_toList)

/-- To decode the first value the second one is decoded. -/
inductive Calls : Value → Value → Prop
  | embedded {raw : String} {inner : Value} (found : embedded? raw = some inner) :
    Calls (.string raw) inner
  | child {v item : Value} (plain : v.string? = none) (member : item ∈ contentOf v) :
    Calls v item

theorem weight_lt_of_calls {v w : Value} (calls : Calls v w) : w.weight < v.weight := by
  cases calls with
  | embedded found => exact weight_lt_of_embedded? found
  | child _ member => exact weight_lt_of_mem_contentOf member

theorem calls_wellFounded : WellFounded fun w v => Calls v w :=
  Subrelation.wf weight_lt_of_calls (InvImage.wf Value.weight Nat.lt_wfRel.wf)

/-- Decoding with at most `depth` values in the making at a time. -/
def ofJsonWithin : Nat → Value → Option Node
  | 0, _ => none
  | depth + 1, .string raw =>
    match embedded? raw with
    | some inner => ofJsonWithin depth inner
    | none => some (.unknown none [])
  | depth + 1, v => ((contentOf v).mapM (ofJsonWithin depth)).map (assemble v)

variable {v : Value} {depth : Nat}

theorem ofJsonWithin_plain (plain : v.string? = none) :
    ofJsonWithin (depth + 1) v = ((contentOf v).mapM (ofJsonWithin depth)).map (assemble v) := by
  cases v with
  | string => cases plain
  | null | bool | number | array | object => rfl

/-- Items that are decoded each are decoded together. -/
theorem mapM_ofJsonWithin {items : List Value}
    (each : ∀ item ∈ items, ofJsonWithin depth item = some (ofJson item)) :
    items.mapM (ofJsonWithin depth) = some (items.map ofJson) := by
  induction items with
  | nil => rfl
  | cons item rest ih =>
    rw [List.forall_mem_cons] at each
    rw [List.mapM_cons, each.1, ih each.2]
    rfl

theorem ofJsonWithin_of_weight_le (enough : v.weight ≤ depth) :
    ofJsonWithin depth v = some (ofJson v) := by
  induction depth generalizing v with
  | zero =>
    have := v.weight_pos
    omega
  | succ depth ih =>
    -- every call is on a lighter value, so one less is enough for it
    have within {w : Value} (calls : Calls v w) : ofJsonWithin depth w = some (ofJson w) := by
      have := weight_lt_of_calls calls
      exact ih (by omega)
    by_cases plain : v.string? = none
    · have children := mapM_ofJsonWithin fun item member => within (.child plain member)
      rw [ofJsonWithin_plain plain, children, ofJson_eq_assemble plain]
      rfl
    · cases v with
      | null | bool | number | array | object => exact absurd rfl plain
      | string raw =>
        rw [ofJsonWithin]
        cases found : embedded? raw with
        | none => rw [ofJson_string_of_none found]
        | some inner =>
          rw [ofJson_string_of_embedded? found]
          exact within (.embedded found)

/-- **Decoding terminates.** Every value that is decoded on the way weighs less than the one before
it, so no chain of them goes on forever. This rests on the texts: a string is no longer than its
literal without the quotes, a value weighs no more than the text that spells it, and the strings
in it are shorter than that text. No more values are in the making at a time than the weight of the
first one. -/
theorem decoding_terminates :
    (∀ v w, Calls v w → w.weight < v.weight) ∧
    (WellFounded fun w v => Calls v w) ∧
    (∀ literal text rest, bare (takeText (literal ++ '"' :: rest)) = .ok (text, rest) →
      text.utf8ByteSize ≤ size literal) ∧
    (∀ text v, parse text = .ok v →
      v.weight ≤ text.utf8ByteSize ∧ ∀ s ∈ v.strings, s.utf8ByteSize < text.utf8ByteSize) ∧
    ∀ v depth, v.weight ≤ depth → ofJsonWithin depth v = some (ofJson v) := by
  refine ⟨fun _ _ => weight_lt_of_calls, calls_wellFounded, ?_, ?_,
    fun _ _ => ofJsonWithin_of_weight_le⟩
  · intro literal text rest spelled
    obtain ⟨shorter, -⟩ := Json.eq_ok_of_bare spelled
    have quote : ('"' : Char).utf8Size = 1 := by decide
    rw [← size_toList]
    simp only [Text.size_append, Text.size_cons] at shorter
    omega
  · intro text v spells
    simp only [← size_toList]
    exact ⟨Json.weight_le_of_parse spells, Json.size_string_lt_of_parse spells⟩

/-- A line break in a string, in a document in a string, in a document. -/
def innerText : String :=
  "\x7b\"content\":[\"\x7b\\\"type\\\":\\\"hardBreak\\\"\x7d\"]\x7d"

def innerValue : Value :=
  .object [("content", .array [.string "\x7b\"type\":\"hardBreak\"\x7d"])]

def outerValue : Value := .object [("type", .string "doc"), ("content", .array [.string innerText])]

theorem decoding_terminates_nested :
    innerValue.weight < (Value.string innerText).weight ∧
      innerValue.weight ≤ innerText.utf8ByteSize ∧
      ofJsonWithin outerValue.weight outerValue = some (ofJson outerValue) ∧
      ("\n" : String).utf8ByteSize ≤ size ['\\', 'n'] ∧
      ofJsonWithin 3 outerValue = none := by
  obtain ⟨lighter, -, shorter, bound, ends⟩ := decoding_terminates
  have spells : parse innerText = .ok innerValue := by with_unfolding_all rfl
  have found : embedded? innerText = some innerValue :=
    embedded?_eq_some_iff.mpr ⟨_, spells, rfl⟩
  exact ⟨lighter _ _ (.embedded found), (bound _ _ spells).1, ends _ _ (Nat.le_refl _),
    shorter ['\\', 'n'] "\n" [] (by with_unfolding_all rfl), by with_unfolding_all rfl⟩

end Galley.Document.Node
