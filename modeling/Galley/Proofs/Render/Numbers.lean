import Galley.Proofs.Document.Node
import Galley.Render.Target
/-!
# The numbers of ordered lists

A build of the renderer that checks its arithmetic writes the same Markdown as one that does not, or
breaks off. It breaks off at a list whose count goes beyond 64 bits, unless the list stands where
its items are not numbered.

## Main results

`block?_eq_some_iff`: which trees the checked build renders, and as what. `block?_eq_none_iff`: on
which ones it breaks off.
-/
namespace Galley.Render.Markdown

open Galley.Document (Node)

/-- The count of a list of this length leads to a number of 64 bits; it goes one further than the
last item. -/
def CountFits (start : UInt64) (length : Nat) : Prop := start.toNat + length + 1 < UInt64.size

instance (start : UInt64) (length : Nat) : Decidable (CountFits start length) :=
  inferInstanceAs (Decidable (_ < _))

theorem countFits_succ_iff {start : UInt64} {length : Nat} :
    CountFits start (length + 1) ↔
      start.toNat + 1 < UInt64.size ∧ CountFits (start + 1) length := by
  have sum : (start + 1).toNat = (start.toNat + 1) % UInt64.size := UInt64.toNat_add start 1
  unfold CountFits
  constructor
  · intro fits
    have small : start.toNat + 1 < UInt64.size := by omega
    rw [sum, Nat.mod_eq_of_lt small]
    omega
  · rintro ⟨small, fits⟩
    rw [sum, Nat.mod_eq_of_lt small] at fits
    omega

theorem orderedItems?_eq (start : UInt64) (items : List Node) :
    orderedItems? start items =
      if CountFits start items.length then some (orderedItems start items) else none := by
  induction items generalizing start with
  | nil =>
    change (next? start).map _ = if start.toNat + 0 + 1 < UInt64.size then _ else _
    unfold next?
    split <;> simp [*, orderedItems]
  | cons item rest ih =>
    rw [orderedItems?, List.length_cons]
    unfold next?
    simp only [countFits_succ_iff, ih]
    by_cases small : start.toNat + 1 < UInt64.size
    · by_cases fits : CountFits (start + 1) rest.length <;> simp [small, fits, orderedItems]
    · simp [small]

mutual

/-- Every ordered list that is numbered keeps its count within 64 bits. Lists inside of lists,
tables and texts are not numbered. -/
def NumbersFit : Node → Prop
  | .document content => AllNumbersFit content
  | .blockquote content => AllNumbersFit content
  | .orderedList start items => items = [] ∨ CountFits start items.length
  | _ => True

def AllNumbersFit : List Node → Prop
  | [] => True
  | node :: rest => NumbersFit node ∧ AllNumbersFit rest

end

theorem blocks?_eq_some_iff {nodes : List Node}
    (each : ∀ node ∈ nodes, ∀ text,
      block? node = some text ↔ NumbersFit node ∧ block node = text) (text : String) :
    blocks? nodes = some text ↔ AllNumbersFit nodes ∧ blocks nodes = text := by
  induction nodes generalizing text with
  | nil => simp [blocks?, AllNumbersFit, blocks]
  | cons node rest ih =>
    rw [List.forall_mem_cons] at each
    simp only [blocks?, AllNumbersFit, blocks, Option.bind_eq_bind, Option.bind_eq_some_iff,
      each.1, ih each.2, Option.pure_def, Option.some.injEq]
    constructor
    · rintro ⟨_, ⟨fits, rfl⟩, _, ⟨allFit, rfl⟩, rfl⟩
      exact ⟨⟨fits, allFit⟩, rfl⟩
    · rintro ⟨⟨fits, allFit⟩, rfl⟩
      exact ⟨_, ⟨fits, rfl⟩, _, ⟨allFit, rfl⟩, rfl⟩

/-- The checked build writes what the other one writes, exactly if all numbers fit. -/
theorem block?_eq_some_iff (node : Node) (text : String) :
    block? node = some text ↔ NumbersFit node ∧ block node = text := by
  induction node using Node.induction_children generalizing text with
  | step node ih =>
    -- nothing but the blocks in documents and quotes is asked again
    cases node with
    | document content =>
      rw [block?, NumbersFit, block]
      exact blocks?_eq_some_iff ih text
    | blockquote content =>
      have below (text : String) :
          blocks? content = some text ↔ AllNumbersFit content ∧ blocks content = text :=
        blocks?_eq_some_iff ih text
      simp only [block?, NumbersFit, block, Option.map_eq_some_iff, below]
      constructor
      · rintro ⟨_, ⟨allFit, rfl⟩, rfl⟩
        exact ⟨allFit, rfl⟩
      · rintro ⟨allFit, rfl⟩
        exact ⟨_, ⟨allFit, rfl⟩, rfl⟩
    | orderedList start items =>
      rw [block?, NumbersFit, block, orderedItems?_eq]
      cases items with
      | nil => simp
      | cons item rest =>
        by_cases fits : CountFits start (rest.length + 1) <;> simp [fits]
    | heading | paragraph | bulletList | listItem | codeBlock | table | mathInline | mathDisplay
    | horizontalRule | hardBreak | text | unknown => simp [block?, NumbersFit]

theorem block?_eq_none_iff (node : Node) : block? node = none ↔ ¬ NumbersFit node := by
  rw [Option.eq_none_iff_forall_ne_some]
  simp [block?_eq_some_iff]

end Galley.Render.Markdown
