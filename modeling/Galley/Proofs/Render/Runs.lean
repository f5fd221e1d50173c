import Galley.Proofs.Render.Html
import Galley.Proofs.Render.Quote
/-!
# Text runs in a rendering

A run is written as its literal inside what stands for its marks: bold around italic around code,
each once. Every run that a tree shows stands in the rendering like that.

## Main results

`Markdown.run_infix`, `Html.run_infix`. In Markdown a block quote puts markers between the lines of
a run, so it is the single lines that are found again.
-/
namespace Galley.Render

open Galley.Document (Node Mark)
open Galley.Markup (Item)

/-! ### Runs that are shown -/

/-- A text run of a node, or of a node below it. -/
inductive HasRun (literal : String) (marks : List Mark) : Node → Prop
  | text : HasRun literal marks (.text literal marks)
  | inside {node child : Node} (member : child ∈ node.children)
    (run : HasRun literal marks child) : HasRun literal marks node

/-- A block that is written with the inline content of its children. -/
def holdsInline : Node → Bool
  | .heading _ _ | .paragraph _ | .bulletList _ | .orderedList _ _ | .listItem _ => true
  | _ => false

/-- A block that is written with its children as blocks. -/
def holdsBlocks : Node → Bool
  | .document _ | .blockquote _ => true
  | _ => false

/-- A text run that a rendering of the node as a block shows. -/
inductive ShowsRun (literal : String) (marks : List Mark) : Node → Prop
  | text : ShowsRun literal marks (.text literal marks)
  | inline {node child : Node} (holds : holdsInline node = true) (member : child ∈ node.children)
    (run : HasRun literal marks child) : ShowsRun literal marks node
  | block {node child : Node} (holds : holdsBlocks node = true) (member : child ∈ node.children)
    (run : ShowsRun literal marks child) : ShowsRun literal marks node

theorem isInlineLeaf_of_mem_children {node child : Node} (member : child ∈ node.children) :
    node.isInlineLeaf = false := by
  cases node with
  | text | mathInline | mathDisplay | hardBreak => cases member
  | document | heading | paragraph | bulletList | orderedList | listItem | codeBlock | blockquote
  | table | horizontalRule | unknown => rfl

theorem infix_flatMap {α β : Type} {values : List α} {value : α} (member : value ∈ values)
    (items : α → List β) : items value <:+: values.flatMap items := by
  rw [List.flatMap_def]
  exact List.infix_of_mem_flatten (List.mem_map_of_mem member)

/-! ### Runs in Markdown -/

namespace Markdown

/-- A run between the delimiters of one of its marks. -/
def delimited (mark : Mark) (run : String) : String := delimiter mark ++ run ++ delimiter mark

/-- A text run with its marks written out: bold around italic around code, each once. -/
def spelledRun (literal : String) (marks : List Mark) : String :=
  Mark.nested delimited marks literal

theorem textRun_eq_spelledRun (literal : String) (marks : List Mark) :
    textRun literal marks = spelledRun literal marks :=
  Mark.foldr_normalize _ marks literal

theorem inlines_eq_join (nodes : List Node) : inlines nodes = String.join (nodes.map inline) := by
  induction nodes with
  | nil => rfl
  | cons node rest ih => simp [inlines, ih]

theorem blocks_eq_join (nodes : List Node) : blocks nodes = String.join (nodes.map block) := by
  induction nodes with
  | nil => rfl
  | cons node rest ih => simp [blocks, ih]

theorem inline_of_not_isInlineLeaf {node : Node} (container : node.isInlineLeaf = false) :
    inline node = inlines node.children := by
  cases node with
  | text | mathInline | mathDisplay | hardBreak => cases container
  | horizontalRule => rfl
  | document | heading | paragraph | bulletList | orderedList | listItem | codeBlock | blockquote
  | table | unknown => rfl

theorem infix_inlines {nodes : List Node} {node : Node} (member : node ∈ nodes) :
    (inline node).toList <:+: (inlines nodes).toList := by
  rw [inlines_eq_join, String.toList_join, List.flatMap_map]
  exact infix_flatMap member fun node => (inline node).toList

theorem infix_blocks {nodes : List Node} {node : Node} (member : node ∈ nodes) :
    (block node).toList <:+: (blocks nodes).toList := by
  rw [blocks_eq_join, String.toList_join, List.flatMap_map]
  exact infix_flatMap member fun node => (block node).toList

theorem run_infix_inline {literal : String} {marks : List Mark} {node : Node}
    (run : HasRun literal marks node) :
    (spelledRun literal marks).toList <:+: (inline node).toList := by
  induction run with
  | text => exact textRun_eq_spelledRun _ _ ▸ List.infix_rfl
  | inside member run ih =>
    rw [inline_of_not_isInlineLeaf (isInlineLeaf_of_mem_children member)]
    exact ih.trans (infix_inlines member)

theorem infix_bulletItems {items : List Node} {item : Node} (member : item ∈ items) :
    (inline item).toList <:+: (bulletItems items).toList := by
  induction items with
  | nil => cases member
  | cons first rest ih =>
    simp only [bulletItems, String.toList_append]
    rcases List.mem_cons.mp member with rfl | later
    · exact List.infix_append_of_infix_left (List.infix_append _ _ _)
    · exact List.infix_append_of_infix_right (ih later)

theorem infix_orderedItems {items : List Node} {item : Node} (member : item ∈ items)
    (number : UInt64) : (inline item).toList <:+: (orderedItems number items).toList := by
  induction items generalizing number with
  | nil => cases member
  | cons first rest ih =>
    simp only [orderedItems, orderedItem, String.toList_append]
    rcases List.mem_cons.mp member with rfl | later
    · exact List.infix_append_of_infix_left (List.infix_append _ _ _)
    · exact List.infix_append_of_infix_right (ih later (number + 1))

/-- Inline content stands in the block that holds it. -/
theorem infix_block_of_holdsInline {node child : Node} (holds : holdsInline node = true)
    (member : child ∈ node.children) : (inline child).toList <:+: (block node).toList := by
  cases node with
  | heading level content | listItem content =>
    simp only [block, String.toList_append]
    exact (infix_inlines member).trans (List.infix_append _ _ _)
  | paragraph content =>
    rw [block, String.toList_append]
    exact List.infix_append_of_infix_left (infix_inlines member)
  | bulletList items =>
    change child ∈ items at member
    rw [block, if_neg (by simpa using List.ne_nil_of_mem member), String.toList_append]
    exact List.infix_append_of_infix_left (infix_bulletItems member)
  | orderedList start items =>
    change child ∈ items at member
    rw [block, if_neg (by simpa using List.ne_nil_of_mem member), String.toList_append]
    exact List.infix_append_of_infix_left (infix_orderedItems member start)
  | document | codeBlock | blockquote | table | mathInline | mathDisplay | horizontalRule
  | hardBreak | text | unknown => cases holds

/-! ### Lines in block quotes -/

/-- A line is not cut off with the line feeds at the end of a text. -/
theorem infix_withoutBreaks {line text : List Char} (clean : '\n' ∉ line)
    (found : line <:+: text) : line <:+: withoutBreaks text := by
  induction text using List.reverseRecOn with
  | nil => exact found
  | append_singleton text last ih =>
    by_cases lineFeed : last = '\n'
    · subst lineFeed
      have dropped : withoutBreaks (text ++ ['\n']) = withoutBreaks text :=
        withoutBreaks_append text 1
      rw [dropped]
      exact ih (Text.infix_of_infix_concat clean found)
    · rw [withoutBreaks_of_last lineFeed]
      exact found

theorem infix_marked (line : List Char) : line <:+: marked line := by
  cases line with
  | nil => exact List.nil_infix
  | cons c line => exact List.infix_cons (List.infix_cons List.infix_rfl)

/-- A line stands in the block quote of a text that it stands in. -/
theorem infix_quote {line : List Char} {inner : String} (clean : '\n' ∉ line)
    (found : line <:+: inner.toList) : line <:+: (quote inner).toList := by
  obtain ⟨piece, member, inside⟩ :=
    Text.exists_mem_splitAt_of_infix clean (infix_withoutBreaks clean found)
  obtain ⟨-, -, written⟩ := isQuoteOf_quote inner
  rw [written, List.flatMap_map]
  have here : line <:+: marked piece ++ ['\n'] :=
    List.infix_append_of_infix_left (inside.trans (infix_marked piece))
  exact List.infix_append_of_infix_left
    (here.trans (infix_flatMap member fun piece => marked piece ++ ['\n']))

/-- Every line of a run that a tree shows stands in the Markdown of the tree. -/
theorem run_infix {literal : String} {marks : List Mark} {node : Node}
    (run : ShowsRun literal marks node) :
    ∀ line ∈ Text.splitAt '\n' (spelledRun literal marks).toList,
      line <:+: (block node).toList := by
  intro line piece
  have clean := Text.not_mem_of_mem_splitAt line piece
  have whole := Text.infix_of_mem_splitAt piece
  induction run with
  | text =>
    rw [block, textRun_eq_spelledRun]
    exact whole
  | inline holds member run =>
    exact whole.trans ((run_infix_inline run).trans (infix_block_of_holdsInline holds member))
  | @block node child holds member run ih =>
    have below (content : List Node) (same : node.children = content) :
        line <:+: (blocks content).toList :=
      ih.trans (infix_blocks (same ▸ member))
    cases node with
    | document content => exact below content rfl
    | blockquote content => exact infix_quote clean (below content rfl)
    | heading | paragraph | bulletList | orderedList | listItem | codeBlock | table | mathInline
    | mathDisplay | horizontalRule | hardBreak | text | unknown => cases holds

end Markdown

/-! ### Runs in fragments -/

namespace Html

/-- A text run with its marks written out: bold around italic around code, each once. -/
def spelledRun (literal : String) (marks : List Mark) : List Item :=
  Mark.nested (fun mark run => element (markElement mark) run) marks [.named literal]

theorem textRun_eq_spelledRun (literal : String) (marks : List Mark) :
    textRun literal marks = spelledRun literal marks := by
  rw [spelledRun, ← Mark.foldr_normalize, textRun]
  -- what is closed last was opened first
  induction Mark.normalize marks with
  | nil => rfl
  | cons mark rest ih =>
    rw [List.foldr_cons, ← ih, element]
    simp

theorem run_infix_inline {literal : String} {marks : List Mark} {node : Node}
    (run : HasRun literal marks node) : spelledRun literal marks <:+: inline node := by
  induction run with
  | text => exact textRun_eq_spelledRun _ _ ▸ List.infix_rfl
  | inside member run ih =>
    rw [inline_of_not_isInlineLeaf (isInlineLeaf_of_mem_children member)]
    exact ih.trans (infix_flatMap member inline)

theorem infix_listItems {items : List Node} {item : Node} (member : item ∈ items) :
    inline item <:+: listItems items := by
  rw [listItems_eq_flatMap]
  have wrapped : inline item <:+: element "li" (inline item) := List.infix_append _ _ _
  have line : inline item <:+: listLine item := wrapped.trans (List.infix_append _ _ _)
  exact line.trans (infix_flatMap member listLine)

/-- Inline content stands in the block that holds it. -/
theorem infix_block_of_holdsInline {node child : Node} (holds : holdsInline node = true)
    (member : child ∈ node.children) : inline child <:+: block node := by
  have inside (content : List Node) (same : node.children = content) :
      inline child <:+: inlines content := by
    rw [inlines_eq_flatMap]
    exact infix_flatMap (same ▸ member) inline
  cases node with
  | heading level content | paragraph content | listItem content =>
    exact List.infix_append_of_infix_left ((inside content rfl).trans (List.infix_append _ _ _))
  | bulletList items | orderedList start items =>
    change child ∈ items at member
    rw [block, if_neg (by simpa using List.ne_nil_of_mem member)]
    exact (infix_listItems member).trans (List.infix_append _ _ _)
  | document | codeBlock | blockquote | table | mathInline | mathDisplay | horizontalRule
  | hardBreak | text | unknown => cases holds

/-- Every run that a tree shows stands in the fragment of the tree. -/
theorem run_infix {literal : String} {marks : List Mark} {node : Node}
    (run : ShowsRun literal marks node) : spelledRun literal marks <:+: block node := by
  induction run with
  | text => exact textRun_eq_spelledRun _ _ ▸ List.infix_rfl
  | inline holds member run =>
    exact (run_infix_inline run).trans (infix_block_of_holdsInline holds member)
  | @block node child holds member run ih =>
    have below (content : List Node) (same : node.children = content) :
        spelledRun literal marks <:+: blocks content := by
      rw [blocks_eq_flatMap]
      exact ih.trans (infix_flatMap (same ▸ member) block)
    cases node with
    | document content => exact below content rfl
    | blockquote content => exact (below content rfl).trans (List.infix_append _ _ _)
    | heading | paragraph | bulletList | orderedList | listItem | codeBlock | table | mathInline
    | mathDisplay | horizontalRule | hardBreak | text | unknown => cases holds

end Html
end Galley.Render
