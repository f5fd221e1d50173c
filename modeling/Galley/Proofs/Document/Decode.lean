import Galley.Document.Decode
import Galley.Proofs.Document.Node
/-!
# Equations of decoding

Decoding a value takes one of three ways: a string that spells an object stands for that object, any
other string for an unknown node without children, and every other value is read as a node whose
children stand in its content.
-/
namespace Galley

namespace Json.Value

/-- Later members come first in a lookup. -/
theorem lookup_append (name : String) (first second : List (String × Value)) :
    lookup name (first ++ second) = (lookup name second).or (lookup name first) := by
  induction first with
  | nil => simp [lookup]
  | cons member rest ih =>
    obtain ⟨key, value⟩ := member
    rw [List.cons_append, lookup, ih, lookup]
    cases lookup name second <;> rfl

end Json.Value

namespace Document.Node

open Galley.Json (Value)

theorem embedded?_eq_some_iff {raw : String} {v : Value} :
    embedded? raw = some v ↔ ∃ members, Json.parse raw = .ok (.object members) ∧
      v = .object members := by
  unfold embedded?
  split
  next members spelled => simp [spelled, eq_comm]
  next other =>
    refine iff_of_false nofun ?_
    rintro ⟨members, spelled, -⟩
    exact other members spelled

theorem ofJson_string_of_embedded? {raw : String} {inner : Value}
    (found : embedded? raw = some inner) : ofJson (.string raw) = ofJson inner := by
  rw [ofJson]
  split
  next other same =>
    rw [found] at same
    cases same
    rfl
  next missing =>
    rw [found] at missing
    cases missing

theorem ofJson_string_of_none {raw : String} (missing : embedded? raw = none) :
    ofJson (.string raw) = .unknown none [] := by
  rw [ofJson]
  split
  next other found =>
    rw [missing] at found
    cases found
  · rfl

theorem ofJson_eq_assemble {v : Value} (plain : v.string? = none) :
    ofJson v = assemble v ((contentOf v).map ofJson) := by
  -- outside the case of a string the equation of `ofJson` asks for a proof that there is none
  cases v with
  | string => cases plain
  | null | bool | number | array | object =>
    rw [ofJson]
    · rw [List.map_attach_eq_pmap, List.pmap_eq_map]
    · intro raw same
      cases same

/-- Of the content only the children are kept, and leaves keep none. -/
theorem children_assemble (v : Value) (content : List Node) :
    (assemble v content).children = content ∨ (assemble v content).children = [] := by
  unfold assemble
  split
  all_goals first
    | exact Or.inl rfl
    | exact Or.inr rfl

/-- Induction along the three ways of decoding. -/
@[elab_as_elim] theorem ofJson_induction {motive : Value → Prop}
    (embedded : ∀ raw inner, embedded? raw = some inner → motive inner → motive (.string raw))
    (foreign : ∀ raw, embedded? raw = none → motive (.string raw))
    (plain : ∀ v : Value, v.string? = none → (∀ item ∈ contentOf v, motive item) → motive v)
    (v : Value) : motive v := by
  induction v using ofJson.induct with
  | case1 raw inner found ih => exact embedded raw inner found ih
  | case2 raw missing => exact foreign raw missing
  | case3 v other ih =>
    refine plain v ?_ fun item member => ih ⟨item, member⟩
    cases v with
    | string raw => exact absurd rfl (other raw)
    | null | bool | number | array | object => rfl

end Document.Node
end Galley
