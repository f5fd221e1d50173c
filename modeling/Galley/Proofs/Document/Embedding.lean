import Galley.Proofs.Document.Decode
import Mathlib.Data.List.Forall2
/-!
# Documents inside strings

An object in the place of a node may be given as a string that spells it. Any number of objects may
be given so at once, at any depth, and what a string spells may hold such strings again. None of it
shows: the decoded tree is the same.

## Main result

`ofJson_eq_of_embeds`.
-/
namespace Galley.Document

open Galley.Json (Value)

mutual

/-- The second value is the first one with some of the objects that stand in content arrays given as
strings. An object is known by what its names stand for, whatever the order of its members. -/
inductive Embeds : Value → Value → Prop
  | same (v : Value) : Embeds v v
  | array {items given : List Value} (each : List.Forall₂ Embeds items given) :
    Embeds (.array items) (.array given)
  | object {members given : List (String × Value)}
      (each : ∀ name, MemberEmbeds name (Value.lookup name members) (Value.lookup name given)) :
    Embeds (.object members) (.object given)

/-- What a name stands for in an object. -/
inductive MemberEmbeds : String → Option Value → Option Value → Prop
  | absent (name : String) : MemberEmbeds name none none
  | kept {name : String} {v given : Value} (embeds : Embeds v given) :
    MemberEmbeds name (some v) (some given)
  | content {name : String} (isContent : name = "content") {items given : List Value}
      (each : List.Forall₂ ItemEmbeds items given) :
    MemberEmbeds name (some (.array items)) (some (.array given))

/-- What stands in a content array: an object may be given as a text of it. -/
inductive ItemEmbeds : Value → Value → Prop
  | kept {v given : Value} (embeds : Embeds v given) : ItemEmbeds v given
  | text {members given : List (String × Value)} {raw : String}
      (embeds : Embeds (.object members) (.object given))
      (spells : Json.parse raw = .ok (.object given)) :
    ItemEmbeds (.object members) (.string raw)

end

/-! ### What stays in place -/

theorem MemberEmbeds.same (name : String) (found : Option Value) :
    MemberEmbeds name found found := by
  cases found with
  | none => exact .absent name
  | some v => exact .kept (.same v)

theorem Embeds.string? {v given : Value} (embeds : Embeds v given) :
    given.string? = v.string? := by
  cases embeds <;> rfl

theorem Embeds.get? {v given : Value} (embeds : Embeds v given) (name : String) :
    MemberEmbeds name (v.get? name) (given.get? name) := by
  cases embeds with
  | same => exact .same name _
  | array => exact .absent name
  | object each => exact each name

variable {name : String} {found given : Option Value}

theorem MemberEmbeds.string? (embeds : MemberEmbeds name found given) :
    given.bind Value.string? = found.bind Value.string? := by
  cases embeds with
  | absent | content => rfl
  | kept embeds => exact embeds.string?

theorem MemberEmbeds.get? (embeds : MemberEmbeds name found given) (inner : String) :
    MemberEmbeds inner (found.bind (Value.get? inner)) (given.bind (Value.get? inner)) := by
  cases embeds with
  | absent | content => exact .absent inner
  | kept embeds => exact embeds.get? inner

namespace Node

variable {v w : Value}

theorem attribute?_of_embeds (embeds : Embeds v w) (name : String) :
    MemberEmbeds name (attribute? name v) (attribute? name w) :=
  (embeds.get? "attrs").get? name

theorem textAttribute?_eq_of_embeds (embeds : Embeds v w) (name : String) :
    textAttribute? name w = textAttribute? name v :=
  (attribute?_of_embeds embeds name).string?

theorem naturalAttribute?_eq_of_embeds (embeds : Embeds v w) (name : String) :
    naturalAttribute? name w = naturalAttribute? name v := by
  have member := attribute?_of_embeds embeds name
  unfold naturalAttribute?
  generalize attribute? name v = found at member ⊢
  generalize attribute? name w = given at member ⊢
  -- arrays and objects are no numbers, and anything else is the same on both sides
  cases member with
  | absent | content => rfl
  | kept embeds => cases embeds <;> rfl

theorem typeOf?_eq_of_embeds (embeds : Embeds v w) : typeOf? w = typeOf? v :=
  (embeds.get? "type").string?

theorem markOf?_eq_of_embeds (embeds : Embeds v w) : markOf? w = markOf? v := by
  rw [markOf?, markOf?, (embeds.get? "type").string?, embeds.string?]

theorem marksOf_eq_of_embeds (embeds : Embeds v w) : marksOf w = marksOf v := by
  have member := embeds.get? "marks"
  unfold marksOf
  generalize v.get? "marks" = found at member ⊢
  generalize w.get? "marks" = given at member ⊢
  -- marks stand under a name of their own, so none of them is given as a string in this way
  cases member with
  | absent => rfl
  | content isContent => exact absurd isContent (by decide)
  | kept embeds =>
    cases embeds with
    | same | object => rfl
    | array each =>
      change List.filterMap markOf? _ = List.filterMap markOf? _
      induction each with
      | nil => rfl
      | cons mark rest ih => simp only [List.filterMap_cons, markOf?_eq_of_embeds mark, ih]

theorem assemble_eq_of_embeds (embeds : Embeds v w) (content : List Node) :
    assemble w content = assemble v content := by
  have literal : literalOf w = literalOf v := by
    rw [literalOf, literalOf, (embeds.get? "text").string?]
  unfold assemble levelOf startOf languageOf mathSourceOf
  rw [typeOf?_eq_of_embeds embeds, marksOf_eq_of_embeds embeds, literal]
  simp only [textAttribute?_eq_of_embeds embeds, naturalAttribute?_eq_of_embeds embeds]

theorem contentOf_of_embeds (embeds : Embeds v w) :
    List.Forall₂ ItemEmbeds (contentOf v) (contentOf w) := by
  have keep (items : List Value) : List.Forall₂ ItemEmbeds items items :=
    List.forall₂_same.mpr fun item _ => .kept (.same item)
  have member := embeds.get? "content"
  unfold contentOf
  generalize v.get? "content" = found at member ⊢
  generalize w.get? "content" = given at member ⊢
  cases member with
  | absent => exact .nil
  | content _ each => exact each
  | kept embeds =>
    cases embeds with
    | same => exact keep _
    | array each => exact each.imp fun _ _ => ItemEmbeds.kept
    | object => exact .nil

/-! ### Main theorem -/

/-- A string that spells an object stands for it. -/
theorem ofJson_string {raw : String} {members : List (String × Value)}
    (spells : Json.parse raw = .ok (.object members)) :
    ofJson (.string raw) = ofJson (.object members) :=
  ofJson_string_of_embedded? (embedded?_eq_some_iff.mpr ⟨members, spells, rfl⟩)

/-- What stands in a content array decodes alike if what it embeds does. -/
theorem ofJson_eq_of_itemEmbeds {item given : Value} (embeds : ItemEmbeds item given)
    (ih : ∀ inner, Embeds item inner → ofJson inner = ofJson item) :
    ofJson given = ofJson item := by
  cases embeds with
  | kept embeds => exact ih _ embeds
  | text embeds spells => rw [ofJson_string spells, ih _ embeds]

theorem map_ofJson_eq_of_itemEmbeds {items given : List Value}
    (each : List.Forall₂ ItemEmbeds items given)
    (ih : ∀ item ∈ items, ∀ inner, Embeds item inner → ofJson inner = ofJson item) :
    given.map ofJson = items.map ofJson := by
  induction each with
  | nil => rfl
  | cons item rest next =>
    rw [List.forall_mem_cons] at ih
    rw [List.map_cons, List.map_cons, next ih.2, ofJson_eq_of_itemEmbeds item ih.1]

/-- **Embedding is transparent.** Objects in content arrays decode alike whether they stand there
themselves or inside strings. -/
theorem ofJson_eq_of_embeds (embeds : Embeds v w) : ofJson w = ofJson v := by
  induction v using ofJson_induction generalizing w with
  | embedded | foreign =>
    -- a string embeds nothing but itself
    cases embeds
    rfl
  | plain v plain ih =>
    have plainGiven : w.string? = none := embeds.string?.trans plain
    have children : (contentOf w).map ofJson = (contentOf v).map ofJson :=
      map_ofJson_eq_of_itemEmbeds (contentOf_of_embeds embeds) fun item member _ => ih item member
    rw [ofJson_eq_assemble plain, ofJson_eq_assemble plainGiven, children,
      assemble_eq_of_embeds embeds]

end Node
end Galley.Document
