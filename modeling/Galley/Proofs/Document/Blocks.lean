import Galley.Document.Blocks
import Galley.Proofs.Document.Node
import Galley.Proofs.Text.Trim
/-!
# What the leaf blocks show

A record shows a tree with its tables taken out and its display formulas written out, as far as
containers lead down to them; inside a leaf block both stay what they are in plain text. The leaf
blocks show this tree and nothing else, apart from blanks.

## Main results

`trimmed_of_mem_blockTexts` and `visible_blockTexts`.
-/
namespace Galley.Document.Node

open Galley.Text (Trimmed visible visible_append)

theorem plainTexts_append (first second : List Node) :
    plainTexts (first ++ second) = plainTexts first ++ plainTexts second := by
  induction first with
  | nil => simp [plainTexts]
  | cons node rest ih => simp [plainTexts, ih, String.append_assoc]

mutual

/-- A tree as records show it. A table leaves nothing behind. -/
def inRecord : Node → List Node
  | .document content => [.document (inRecordAll content)]
  | .bulletList items => [.bulletList (inRecordAll items)]
  | .orderedList start items => [.orderedList start (inRecordAll items)]
  | .listItem content => [.listItem (inRecordAll content)]
  | .blockquote content => [.blockquote (inRecordAll content)]
  | .unknown kind content => [.unknown kind (inRecordAll content)]
  | .table _ => []
  | .mathDisplay source => [.text source []]
  | node => [node]

def inRecordAll : List Node → List Node
  | [] => []
  | node :: rest => inRecord node ++ inRecordAll rest

end

/-! ### One block -/

theorem block_eq (text : String) :
    block text = if Text.isAllBlank text then [] else [Text.trim text] := by
  simp [block, Text.isEmpty_trim]

theorem trimmed_of_mem_block {text written : String} (member : written ∈ block text) :
    Trimmed written.toList := by
  rw [block_eq] at member
  split at member
  · cases member
  next solid =>
    rw [List.mem_singleton] at member
    subst member
    exact Text.trimmed_trim (by simpa using solid)

theorem visible_block (text : String) : visible (String.join (block text)) = visible text := by
  rw [block_eq]
  split
  next blank => rw [Text.visible_of_isAllBlank blank]; rfl
  · rw [String.join_cons, visible_append, Text.visible_trim]
    exact List.append_nil _

/-! ### All blocks of a tree -/

theorem trimmed_of_mem_blockTextsOf {nodes : List Node}
    (each : ∀ node ∈ nodes, ∀ text ∈ node.blockTexts, Trimmed text.toList) :
    ∀ text ∈ blockTextsOf nodes, Trimmed text.toList := by
  induction nodes with
  | nil => simp [blockTextsOf]
  | cons node rest ih =>
    rw [List.forall_mem_cons] at each
    intro text member
    -- a block comes from the first node or from a later one
    rw [blockTextsOf, List.mem_append] at member
    rcases member with here | later
    · exact each.1 text here
    · exact ih each.2 text later

theorem trimmed_of_mem_blockTexts (node : Node) :
    ∀ text ∈ node.blockTexts, Trimmed text.toList := by
  induction node using induction_children with
  | step node ih =>
    cases node with
    | document | bulletList | orderedList | listItem | blockquote | unknown =>
      rw [blockTexts]
      exact trimmed_of_mem_blockTextsOf ih
    | table | horizontalRule => simp [blockTexts]
    | heading | paragraph | codeBlock | mathInline | mathDisplay | hardBreak | text =>
      intro text member
      rw [blockTexts] at member
      exact trimmed_of_mem_block member

theorem visible_blockTextsOf {nodes : List Node}
    (each : ∀ node ∈ nodes,
      visible (String.join node.blockTexts) = visible (plainTexts node.inRecord)) :
    visible (String.join (blockTextsOf nodes)) = visible (plainTexts (inRecordAll nodes)) := by
  induction nodes with
  | nil => rfl
  | cons node rest ih =>
    rw [List.forall_mem_cons] at each
    rw [blockTextsOf, inRecordAll, String.join_append, plainTexts_append, visible_append,
      visible_append, each.1, ih each.2]

theorem visible_blockTexts (node : Node) :
    visible (String.join node.blockTexts) = visible (plainTexts node.inRecord) := by
  have alone (node : Node) : plainTexts [node] = plainText node := by simp [plainTexts]
  induction node using induction_children with
  | step node ih =>
    cases node with
    | document | bulletList | orderedList | listItem | blockquote | unknown =>
      -- what a container shows is what its children show
      rw [inRecord, alone, plainText, blockTexts]
      exact visible_blockTextsOf ih
    | table | horizontalRule => rfl
    | mathDisplay source =>
      -- plain text has no formulas, so the source is shown by a text node
      rw [inRecord, alone, plainText, blockTexts]
      exact visible_block source
    | heading | paragraph | codeBlock | mathInline | hardBreak | text =>
      rw [inRecord, alone, blockTexts]
      · exact visible_block _
      all_goals simp

end Galley.Document.Node
