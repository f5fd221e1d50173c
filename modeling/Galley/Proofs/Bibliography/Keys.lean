import Galley.Bibliography.Entry
import Galley.Proofs.Basic
import Mathlib.Data.List.Nodup
/-!
# The keys of the citation database

Identifiers and the keys made from positions are in one name space. The keys of a database are the
identifiers of its references together with the keys of the positions that have none
(`keys_perm`), and no two positions have one key (`fallbackKey_injective`). So keys only clash if
identifiers do, or if an identifier is the key of a position that has none.

## Main result

`keys_nodup_iff`: the exact condition under which different identifiers give different keys.
-/
namespace Galley.Bibliography

open Galley.Article (Reference)

/-- The identifier of a reference without the blanks around it, unless it is blank. -/
def identifier? (reference : Reference) : Option String :=
  (Text.nonBlank? reference.id).map Text.trim

/-- The identifiers that references have of their own. -/
def identifiers (references : List Reference) : List String := references.filterMap identifier?

/-- The positions of the references that have none, the first reference being at `position`. -/
def unnamedFrom (position : Nat) (references : List Reference) : List Nat :=
  ((references.zipIdx position).filter fun placed => (identifier? placed.1).isNone).map Prod.snd

section

variable {reference : Reference} {id : String} (position : Nat) (rest : List Reference)

theorem keyOf_eq (reference : Reference) :
    Entry.keyOf position reference =
      (identifier? reference).getD (Entry.fallbackKey position) := by
  rw [Entry.keyOf, ← identifier?]
  cases identifier? reference <;> rfl

theorem identifiers_of_some (own : identifier? reference = some id) :
    identifiers (reference :: rest) = id :: identifiers rest :=
  List.filterMap_cons_some own

theorem identifiers_of_none (unnamed : identifier? reference = none) :
    identifiers (reference :: rest) = identifiers rest :=
  List.filterMap_cons_none unnamed

theorem unnamedFrom_of_some (own : identifier? reference = some id) :
    unnamedFrom position (reference :: rest) = unnamedFrom (position + 1) rest := by
  simp [unnamedFrom, own]

theorem unnamedFrom_of_none (unnamed : identifier? reference = none) :
    unnamedFrom position (reference :: rest) = position :: unnamedFrom (position + 1) rest := by
  simp [unnamedFrom, unnamed]

end

/-- Every position has a key of its own. -/
theorem fallbackKey_injective : Function.Injective Entry.fallbackKey := by
  intro first second same
  have chars := congrArg String.toList same
  rw [Entry.fallbackKey, Entry.fallbackKey, String.toList_append, String.toList_append] at chars
  -- the keys differ in their digits alone, and digits are read back as what they were written for
  have digits : first.repr.toList = second.repr.toList := List.append_cancel_left chars
  have read := Text.number?_repr first
  rw [digits, Text.number?_repr] at read
  exact (Option.some.inj read).symm

theorem nodup_unnamedFrom (position : Nat) (references : List Reference) :
    (unnamedFrom position references).Nodup := by
  have positions : ((references.zipIdx position).map Prod.snd).Nodup := by
    rw [List.zipIdx_map_snd]
    exact List.nodup_range'
  exact positions.sublist (List.filter_sublist.map Prod.snd)

/-- The keys are the identifiers, and the keys of the positions without one. -/
theorem keys_perm (position : Nat) (references : List Reference) :
    ((entriesFrom position references).map Entry.key).Perm
      (identifiers references ++ (unnamedFrom position references).map Entry.fallbackKey) := by
  induction references generalizing position with
  | nil => exact .refl []
  | cons reference rest ih =>
    rw [entriesFrom, List.map_cons, Entry.ofReference, keyOf_eq]
    cases own : identifier? reference with
    | some id =>
      rw [identifiers_of_some rest own, unnamedFrom_of_some position rest own, List.cons_append]
      exact (ih (position + 1)).cons id
    | none =>
      -- the key of the position goes behind all identifiers that are still to come
      rw [identifiers_of_none rest own, unnamedFrom_of_none position rest own, List.map_cons]
      exact ((ih (position + 1)).cons _).trans List.perm_middle.symm

/-- **Keys are unique** for references with different identifiers, as long as no identifier is what
a reference without one gets for its position, counted from one; and they are not unique else. -/
theorem keys_nodup_iff {references : List Reference} (distinct : (identifiers references).Nodup) :
    ((entries references).map Entry.key).Nodup ↔
      ∀ position ∈ unnamedFrom 1 references,
        Entry.fallbackKey position ∉ identifiers references := by
  have apart := (nodup_unnamedFrom 1 references).map fallbackKey_injective
  rw [entries, (keys_perm 1 references).nodup_iff, List.nodup_append']
  constructor
  · rintro ⟨-, -, disjoint⟩ position member inside
    exact disjoint inside (List.mem_map_of_mem member)
  · intro foreign
    refine ⟨distinct, apart, fun key inside member => ?_⟩
    obtain ⟨position, unnamed, rfl⟩ := List.mem_map.mp member
    exact foreign position unnamed inside

/-- Identifiers may look like the keys of positions, as long as those have identifiers. -/
def lookalikes : List Reference :=
  [⟨none, .empty, none, none⟩, ⟨some " ref2\t", .empty, none, none⟩,
    ⟨some " \t ", .empty, none, none⟩, ⟨some "ref5", .empty, none, none⟩,
    ⟨some "Ref3", .empty, none, none⟩]

theorem keys_nodup_lookalikes :
    (identifiers lookalikes).Nodup ∧ unnamedFrom 1 lookalikes = [1, 3] ∧
      ((entries lookalikes).map Entry.key).Nodup := by
  have distinct : (identifiers lookalikes).Nodup := by decide
  have foreign : ∀ position ∈ unnamedFrom 1 lookalikes,
      Entry.fallbackKey position ∉ identifiers lookalikes := by decide
  exact ⟨distinct, by decide, (keys_nodup_iff distinct).mpr foreign⟩

/-- One identifier is enough for a clash: it is the key of the position behind it. -/
def clashing : List Reference := [⟨some "ref2", .empty, none, none⟩, ⟨none, .empty, none, none⟩]

theorem keys_not_nodup :
    (identifiers clashing).Nodup ∧ ¬ ((entries clashing).map Entry.key).Nodup := by
  decide

end Galley.Bibliography
