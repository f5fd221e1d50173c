import Galley.Proofs.Text.Split
import Galley.Text.Blank
import Mathlib.Data.List.DropRight
/-!
# Trimming

A trimmed text begins and ends without a blank, and shows the same as before: all that trimming
takes away is blank.
-/
namespace Galley.Text

/-- A text that begins and ends without a blank. -/
structure Trimmed (text : List Char) : Prop where
  nonempty : text ≠ []
  first : isBlank (text.head nonempty) = false
  last : isBlank (text.getLast nonempty) = false

theorem toList_trim (text : String) :
    (trim text).toList = (text.toList.dropWhile isBlank).rdropWhile isBlank :=
  String.toList_ofList

theorem trimmed_trim {text : String} (solid : isAllBlank text = false) :
    Trimmed (trim text).toList := by
  have inner : text.toList.dropWhile isBlank ≠ [] := by
    intro blank
    rw [List.dropWhile_eq_nil_iff, ← List.all_eq_true] at blank
    exact Bool.false_ne_true (solid.symm.trans blank)
  have first := List.head_dropWhile_not isBlank inner
  have nonempty : (text.toList.dropWhile isBlank).rdropWhile isBlank ≠ [] := by
    intro blank
    rw [List.rdropWhile_eq_nil_iff] at blank
    exact Bool.false_ne_true (first.symm.trans (blank _ (List.head_mem inner)))
  rw [toList_trim]
  refine ⟨nonempty, ?_, ?_⟩
  · rw [(List.rdropWhile_prefix isBlank _).head nonempty]
    exact first
  · simpa using List.rdropWhile_last_not isBlank _ nonempty

theorem isEmpty_trim (text : String) : (trim text).isEmpty = isAllBlank text := by
  cases blank : isAllBlank text with
  | false =>
    have solid := (trimmed_trim blank).nonempty
    simpa using solid
  | true =>
    have nothing : text.toList.dropWhile isBlank = [] :=
      List.dropWhile_eq_nil_iff.mpr (List.all_eq_true.mp blank)
    simp [trim, nothing, dropEndWhile]

theorem mem_of_mem_trim {text : String} {c : Char} (member : c ∈ (trim text).toList) :
    c ∈ text.toList := by
  rw [toList_trim] at member
  exact (List.dropWhile_sublist isBlank).subset ((List.rdropWhile_prefix isBlank _).subset member)

theorem trim_of_trimmed {text : String} (trimmed : Trimmed text.toList) : trim text = text := by
  obtain ⟨nonempty, first, last⟩ := trimmed
  have front : text.toList.dropWhile isBlank = text.toList :=
    List.dropWhile_eq_self_iff.mpr fun _ => by simpa [List.head_eq_getElem] using first
  have back : text.toList.rdropWhile isBlank = text.toList :=
    List.rdropWhile_eq_self_iff.mpr fun _ => by simpa using last
  rw [← String.toList_inj, toList_trim, front, back]

/-! ### What is visible -/

/-- The characters of a text that are not blank. -/
def visible (text : String) : List Char := text.toList.filter fun c => !isBlank c

@[simp] theorem visible_append (first second : String) :
    visible (first ++ second) = visible first ++ visible second := by
  simp [visible]

theorem visible_trim (text : String) : visible (trim text) = visible text := by
  have dropped : ∀ c, isBlank c = true → (!isBlank c) = false := fun c blank => by rw [blank]; rfl
  rw [visible, trim, String.toList_ofList, filter_dropEndWhile dropped, filter_dropWhile dropped,
    visible]

theorem visible_of_isAllBlank {text : String} (blank : isAllBlank text = true) :
    visible text = [] := by
  rw [visible, List.filter_eq_nil_iff]
  intro c member
  simp [List.all_eq_true.mp blank c member]

end Galley.Text
