import Galley.Rendition.Stylesheet
/-!
# The characters of stylesheets

A sheet is written with the texts of its rules and with punctuation. An opening bracket that is in
none of the texts is therefore not in the sheet (`clear_printAll`), and the built-in sheet has none.
-/
namespace Galley.Rendition

/-- A text without an opening bracket. -/
def Clear (text : String) : Prop := '<' ∉ text.toList

instance (text : String) : Decidable (Clear text) := inferInstanceAs (Decidable (_ ∉ _))

@[simp] theorem clear_append {first second : String} :
    Clear (first ++ second) ↔ Clear first ∧ Clear second := by
  simp [Clear]

theorem clear_join {parts : List String} (each : ∀ part ∈ parts, Clear part) :
    Clear (String.join parts) := by
  simpa [Clear, String.toList_join] using each

theorem clear_intercalate {separator : String} (between : Clear separator) {parts : List String}
    (each : ∀ part ∈ parts, Clear part) : Clear (String.intercalate separator parts) := by
  rw [Clear, String.toList_intercalate]
  induction parts with
  | nil => simp
  | cons part rest ih =>
    rw [List.forall_mem_cons] at each
    cases rest with
    | nil => simpa [Clear] using each.1
    | cons next rest =>
      rw [List.map_cons, List.map_cons, List.intercalate_cons_cons, List.mem_append,
        List.mem_append, not_or, not_or]
      exact ⟨⟨each.1, between⟩, ih each.2⟩

namespace Rule

def declarationTexts (declarations : List (String × String)) : List String :=
  declarations.flatMap fun declaration => [declaration.1, declaration.2]

mutual

/-- The texts of a rule. -/
def texts : Rule → List String
  | .spread selectors declarations nested =>
    selectors.flatten ++ declarationTexts declarations ++ textsAll nested
  | .compact selectors declarations => selectors.flatten ++ declarationTexts declarations

def textsAll : List Rule → List String
  | [] => []
  | rule :: rest => texts rule ++ textsAll rest

end

private theorem clear_selectorText {selectors : List (List String)}
    (each : ∀ text ∈ selectors.flatten, Clear text) : Clear (selectorText selectors) := by
  refine clear_intercalate (by decide) fun line member => ?_
  obtain ⟨group, inside, rfl⟩ := List.mem_map.mp member
  exact clear_intercalate (by decide) fun text member =>
    each text (List.mem_flatten_of_mem inside member)

private theorem clear_declarationText {declarations : List (String × String)}
    (each : ∀ text ∈ declarationTexts declarations, Clear text) {declaration : String × String}
    (member : declaration ∈ declarations) : Clear (declarationText declaration) := by
  have key := each declaration.1 (List.mem_flatMap.mpr ⟨declaration, member, by simp⟩)
  have value := each declaration.2 (List.mem_flatMap.mpr ⟨declaration, member, by simp⟩)
  have punctuation : Clear ": " ∧ Clear ";" := by decide
  simp [declarationText, key, value, punctuation]

mutual

theorem clear_print {margin : String} (clear : Clear margin) :
    (rule : Rule) → (∀ text ∈ rule.texts, Clear text) → Clear (print margin rule)
  | .compact selectors declarations, each => by
    rw [texts, List.forall_mem_append] at each
    have selected := clear_selectorText each.1
    have declared : Clear (String.intercalate " " (declarations.map declarationText)) := by
      refine clear_intercalate (by decide) (List.forall_mem_map.mpr fun declaration member => ?_)
      exact clear_declarationText each.2 member
    have punctuation : Clear " \x7b " ∧ Clear " \x7d\n" := by decide
    simp only [print, clear_append]
    exact ⟨⟨⟨⟨clear, selected⟩, punctuation.1⟩, declared⟩, punctuation.2⟩
  | .spread selectors declarations nested, each => by
    rw [texts, List.forall_mem_append, List.forall_mem_append] at each
    have selected := clear_selectorText each.1.1
    have deeper : Clear (margin ++ "  ") := clear_append.mpr ⟨clear, by decide⟩
    have declared : Clear (String.join
        (declarations.map fun d => margin ++ "  " ++ declarationText d ++ "\n")) := by
      refine clear_join (List.forall_mem_map.mpr fun declaration member => ?_)
      have line := clear_declarationText each.1.2 member
      exact clear_append.mpr ⟨clear_append.mpr ⟨deeper, line⟩, by decide⟩
    have inside := clear_printNested deeper declarations.isEmpty nested each.2
    have punctuation : Clear " \x7b\n" ∧ Clear "\x7d\n" := by decide
    simp only [print, clear_append] at inside ⊢
    exact ⟨⟨⟨⟨⟨⟨clear, selected⟩, punctuation.1⟩, declared⟩, inside⟩, clear⟩, punctuation.2⟩

theorem clear_printNested {margin : String} (clear : Clear margin) (first : Bool) :
    (rules : List Rule) → (∀ text ∈ textsAll rules, Clear text) →
      Clear (printNested margin first rules)
  | [], _ => by simp [printNested, Clear]
  | rule :: rest, each => by
    rw [textsAll, List.forall_mem_append] at each
    have here := clear_print clear rule each.1
    have others := clear_printNested clear false rest each.2
    have separator : Clear (if first then "" else "\n") := by cases first <;> decide
    exact clear_append.mpr ⟨clear_append.mpr ⟨separator, here⟩, others⟩

end

theorem clear_printAll {rules : List Rule} (each : ∀ text ∈ textsAll rules, Clear text) :
    Clear (printAll rules) := by
  induction rules with
  | nil => simp [printAll, Clear]
  | cons rule rest ih =>
    rw [textsAll, List.forall_mem_append] at each
    have here := clear_print (by decide : Clear "") rule each.1
    cases rest with
    | nil => exact here
    | cons next rest =>
      have separator : Clear (if rule.isCompact && next.isCompact then "" else "\n") := by
        split <;> decide
      exact clear_append.mpr ⟨clear_append.mpr ⟨here, separator⟩, ih each.2⟩

end Rule

theorem clear_builtin : Clear Stylesheet.builtin :=
  Rule.clear_printAll (by decide +kernel)

end Galley.Rendition
