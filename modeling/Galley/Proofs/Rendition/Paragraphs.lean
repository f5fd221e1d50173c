import Galley.Proofs.Document.Blocks
import Galley.Proofs.Rendition.JatsRecord
import Galley.Rendition.PlainText
/-!
# The paragraphs of records

A record in JATS and one in plain text show the leaf blocks of the document one after the other.

## Main result

`blockTexts_keepText`: leaf blocks neither lose nor invent text, and each stands once in a record.
-/
namespace Galley.Rendition

open Galley.Document (Node)
open Galley.Markup (nodes? numericReferences)
open Galley.Text (Trimmed joinWith visible)

/-- The paragraphs that are read out of a JATS record. -/
def jatsParagraphs? (article : Article) (lang : String) : Option (List String) :=
  ((nodes? numericReferences (Jats.render article lang)).bind Jats.Record.read?).map
    Jats.Record.paragraphs

theorem jatsParagraphs?_eq (article : Article) (lang : String) :
    jatsParagraphs? article lang = some (paragraphs article) := by
  rw [jatsParagraphs?, Jats.nodes?_render, Option.bind_some, Jats.Record.read?_nodes,
    Option.map_some, Jats.paragraphs_of]

theorem joinWith_append {front : List String} (nonempty : front ≠ []) (separator : String)
    (texts : List String) :
    joinWith separator (front ++ texts) =
      joinWith separator front ++ String.join (texts.map (separator ++ ·)) := by
  induction texts generalizing front with
  | nil => simp
  | cons text rest ih =>
    -- the first of the texts counts as the last one of the front
    have joined : joinWith separator (front ++ [text]) =
        joinWith separator front ++ (separator ++ text) := by
      rw [joinWith, String.intercalate_append_of_ne_nil nonempty (by simp),
        String.intercalate_singleton, String.append_assoc]
      rfl
    rw [List.append_cons, ih (by simp), joined, List.map_cons, String.join_cons,
      String.append_assoc]

/-- What stands before the paragraphs in plain text does not depend on the document. -/
theorem exists_front (article : Article) (lang : String) :
    ∃ front, ∀ node, PlainText.render { article with content := some node } lang =
      front ++ String.join
        ((paragraphs { article with content := some node }).map ("\n\n" ++ ·)) := by
  -- without a document there is one section behind the front
  obtain ⟨front, alone⟩ : ∃ front : List String,
      PlainText.sections { article with content := none } lang = front ++ [noContent] := ⟨_, rfl⟩
  have nonempty : front ≠ [] := by
    rintro rfl
    have long := congrArg List.length alone
    simp [PlainText.sections] at long
  have parts (node : Node) : PlainText.sections { article with content := some node } lang =
      front ++ paragraphs { article with content := some node } := by
    have same : front = (PlainText.sections { article with content := none } lang).dropLast := by
      rw [alone, List.dropLast_concat]
    rw [same]
    exact congrArg (· ++ paragraphs { article with content := some node }) List.dropLast_concat.symm
  exact ⟨_, fun node => by rw [PlainText.render, parts, joinWith_append nonempty]⟩

/-- **Leaf blocks keep the text.** No block is empty or has a blank at either end, and together they
show, blanks apart, the text of the tree without the tables and with the sources of the display
formulas that containers lead to. A JATS record holds each block once, in the order of the document,
and so does plain text behind a front that does not depend on the document. -/
theorem blockTexts_keepText :
    (∀ node : Node, (∀ text ∈ node.blockTexts, Trimmed text.toList) ∧
      visible (String.join node.blockTexts) = visible (Node.plainTexts node.inRecord)) ∧
    ∀ (article : Article) (lang : String), ∃ front, ∀ node : Node,
      let shown := if node.blockTexts.isEmpty then ["No content"] else node.blockTexts
      jatsParagraphs? { article with content := some node } lang = some shown ∧
        PlainText.render { article with content := some node } lang =
          front ++ String.join (shown.map ("\n\n" ++ ·)) := by
  refine ⟨fun node => ⟨node.trimmed_of_mem_blockTexts, node.visible_blockTexts⟩, ?_⟩
  intro article lang
  obtain ⟨front, plain⟩ := exists_front article lang
  exact ⟨front, fun node => ⟨jatsParagraphs?_eq _ lang, plain node⟩⟩

/-- A table in a paragraph and one in a quote, a formula, and a blank paragraph. -/
def nested : Node :=
  .document
    [.paragraph [.text " a " [], .table [.text "t" []]],
      .blockquote [.table [.text "x" []], .mathDisplay " y "],
      .paragraph [.hardBreak]]

def nestedArticle : Article := ⟨"a", some nested, [], none, none, none, []⟩

theorem blockTexts_keepText_nested :
    nested.blockTexts = ["a t", "y"] ∧ (∀ text ∈ nested.blockTexts, Trimmed text.toList) ∧
      visible (Node.plainTexts nested.inRecord) = "aty".toList ∧
      jatsParagraphs? nestedArticle "en" = some ["a t", "y"] := by
  obtain ⟨text, records⟩ := blockTexts_keepText
  have blocks : nested.blockTexts = ["a t", "y"] := by decide +kernel
  obtain ⟨trimmed, shown⟩ := text nested
  obtain ⟨_, record⟩ := records nestedArticle "en"
  refine ⟨blocks, trimmed, ?_, ?_⟩
  · rw [← shown, blocks]
    decide +kernel
  · have read := (record nested).1
    rw [blocks] at read
    exact read

end Galley.Rendition
