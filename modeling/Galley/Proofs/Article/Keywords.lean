import Galley.Article.Metadata
import Galley.Proofs.Text.Trim
/-!
# Keywords of a line

Commas alone separate keywords: what stands between two of them is one keyword, without the blanks
around it, unless it is blank. Keywords that are joined into a line again come back from it
(`splitKeywords_joinWith`).
-/
namespace Galley.Article

open Galley.Text (Trimmed isAllBlank joinWith splitAt trim visible)

/-- A text that can stand for itself between commas. -/
structure IsKeyword (text : String) : Prop where
  trimmed : Trimmed text.toList
  single : ',' ∉ text.toList

namespace Metadata

/-- The keywords as one text, as readers see them. -/
def keywordText (metadata : Metadata) : String := joinWith ", " metadata.keywordList

/-! ### Cutting a line -/

theorem splitKeywords_append (first rest : String) :
    splitKeywords (first ++ "," ++ rest) = splitKeywords first ++ splitKeywords rest := by
  have comma : ",".toList = [','] := by decide
  rw [splitKeywords, Text.splitOnChar, String.toList_append, String.toList_append, comma,
    List.append_assoc, List.singleton_append, Text.splitAt_append_cons, List.map_append,
    List.map_append, List.filter_append]
  rfl

theorem splitKeywords_of_not_mem {piece : String} (single : ',' ∉ piece.toList) :
    splitKeywords piece = if isAllBlank piece then [] else [trim piece] := by
  rw [splitKeywords, Text.splitOnChar, Text.splitAt_of_not_mem single]
  cases blank : isAllBlank piece <;> simp [Text.isEmpty_trim, blank]

/-- A blank behind a comma does not count. -/
theorem splitKeywords_blank_append (text : String) :
    splitKeywords (" " ++ text) = splitKeywords text := by
  have blank : " ".toList = [' '] := by decide
  have skipped (piece : List Char) :
      trim (String.ofList (' ' :: piece)) = trim (String.ofList piece) := by
    rw [trim, trim, String.toList_ofList, String.toList_ofList, List.dropWhile_cons_of_pos rfl]
  obtain ⟨first, others, cut⟩ :=
    List.exists_cons_of_ne_nil (Text.splitAt_ne_nil ',' text.toList)
  rw [splitKeywords, splitKeywords, Text.splitOnChar, Text.splitOnChar, String.toList_append, blank,
    List.singleton_append, splitAt, if_neg (by decide), cut]
  simp only [List.map_cons, skipped]

theorem isKeyword_of_mem {line : String} : ∀ keyword ∈ splitKeywords line, IsKeyword keyword := by
  intro keyword member
  rw [splitKeywords, Text.splitOnChar, List.map_map, List.mem_filter, List.mem_map] at member
  obtain ⟨⟨piece, cut, rfl⟩, solid⟩ := member
  rw [Function.comp_apply, Text.isEmpty_trim, Bool.not_eq_true'] at solid
  refine ⟨Text.trimmed_trim solid, fun inside => Text.not_mem_of_mem_splitAt piece cut ?_⟩
  simpa using Text.mem_of_mem_trim inside

private theorem visible_pieces (pieces : List (List Char)) :
    visible (String.join (((pieces.map String.ofList).map trim).filter (!·.isEmpty))) =
      pieces.flatten.filter fun c => !Text.isBlank c := by
  induction pieces with
  | nil => rfl
  | cons piece rest ih =>
    have here : piece.filter (fun c => !Text.isBlank c) = visible (String.ofList piece) := by
      rw [visible, String.toList_ofList]
    rw [List.flatten_cons, List.filter_append, ← ih, here, List.map_cons, List.map_cons,
      List.filter_cons, Text.isEmpty_trim]
    cases blank : isAllBlank (String.ofList piece) with
    | true =>
      rw [Text.visible_of_isAllBlank blank]
      rfl
    | false =>
      rw [Bool.not_false, if_pos rfl, String.join_cons, Text.visible_append, Text.visible_trim]

/-- The keywords of a line show what the line shows, in its order and without the commas. -/
theorem visible_splitKeywords (line : String) :
    visible (String.join (splitKeywords line)) = (visible line).filter (· != ',') := by
  have single : ∀ c ∈ (splitAt ',' line.toList).flatten, (c != ',') = true := by
    intro c member
    obtain ⟨piece, cut, inside⟩ := List.mem_flatten.mp member
    rw [bne_iff_ne]
    rintro rfl
    exact Text.not_mem_of_mem_splitAt piece cut inside
  rw [splitKeywords, Text.splitOnChar, visible_pieces]
  calc (splitAt ',' line.toList).flatten.filter (fun c => !Text.isBlank c)
      = (splitAt ',' line.toList).flatten.filter (fun c => c != ',' && !Text.isBlank c) :=
        List.filter_congr fun c member => by rw [single c member, Bool.true_and]
    _ = line.toList.filter (fun c => c != ',' && !Text.isBlank c) :=
        Text.filter_flatten_splitAt rfl line.toList
    _ = (visible line).filter (· != ',') := List.filter_filter.symm

/-! ### Joining keywords -/

theorem splitKeywords_of_isKeyword {keyword : String} (fits : IsKeyword keyword) :
    splitKeywords keyword = [keyword] := by
  have same := Text.trim_of_trimmed fits.trimmed
  have solid : isAllBlank keyword = false := by
    rw [← Text.isEmpty_trim, same]
    simpa using fits.trimmed.nonempty
  rw [splitKeywords_of_not_mem fits.single, solid, same]
  rfl

theorem splitKeywords_joinWith {keywords : List String}
    (each : ∀ keyword ∈ keywords, IsKeyword keyword) :
    splitKeywords (joinWith ", " keywords) = keywords := by
  induction keywords with
  | nil => rfl
  | cons keyword rest ih =>
    rw [List.forall_mem_cons] at each
    have alone := splitKeywords_of_isKeyword each.1
    cases rest with
    | nil => rw [joinWith, String.intercalate_singleton, alone]
    | cons next rest =>
      have parts : joinWith ", " (keyword :: next :: rest) =
          keyword ++ "," ++ (" " ++ joinWith ", " (next :: rest)) := by
        have separator : ", " = "," ++ " " := by decide
        rw [joinWith, String.intercalate_cons_cons, separator, ← String.append_assoc,
          String.append_assoc]
        rfl
      rw [parts, splitKeywords_append, alone, splitKeywords_blank_append, ih each.2]
      rfl

theorem isKeyword_of_mem_keywordList {metadata : Metadata} :
    ∀ keyword ∈ metadata.keywordList, IsKeyword keyword := by
  rw [keywordList]
  cases metadata.keywords with
  | none => exact List.forall_mem_nil _
  | some line => exact isKeyword_of_mem

theorem visible_keywordList (metadata : Metadata) :
    visible (String.join metadata.keywordList) =
      (visible (metadata.keywords.getD "")).filter (· != ',') := by
  rw [keywordList]
  cases metadata.keywords with
  | none => rfl
  | some line => exact visible_splitKeywords line

/-- The keywords come back from the text that they are shown as. -/
theorem splitKeywords_keywordText (metadata : Metadata) :
    splitKeywords metadata.keywordText = metadata.keywordList :=
  splitKeywords_joinWith isKeyword_of_mem_keywordList

end Metadata
end Galley.Article
