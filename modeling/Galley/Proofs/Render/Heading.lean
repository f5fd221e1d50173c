import Galley.Proofs.Render.Marks
import Galley.Proofs.Render.ReferenceText
import Galley.Proofs.Text.Split
import Mathlib.Data.List.TakeWhile
/-!
# Headings

A heading in Markdown is a line: number signs, a space and the content. Inside the heading content
is written as anywhere else, so whatever breaks a line there ends the heading, and a reader takes
what follows for document text. In a fragment a heading is an element, which its content stays in.

## Main result

`heading_holds_iff`: a heading reads back in Markdown exactly if nothing below it breaks the line,
and always in a fragment.
-/
namespace Galley.Document.Node

/-- The literal text or the source that a node brings along itself. -/
def ownText : Node → String
  | .text literal _ => literal
  | .mathInline source => source
  | .mathDisplay source => source
  | _ => ""

end Galley.Document.Node

namespace Galley.Render

open Galley.Document (Node Mark)
open Galley.Markup (Item Piece)
open Galley.Text (Unbroken)

/-! ### Reading headings -/

/-- The level and the content of a line that is a heading: one to six number signs and a space, and
what stands behind them. -/
def readHeading? (line : List Char) : Option (Nat × List Char) :=
  let level := (line.takeWhile (· == '#')).length
  match line.dropWhile (· == '#') with
  | ' ' :: content => if 1 ≤ level ∧ level ≤ 6 then some (level, content) else none
  | _ => none

/-- A text reads back as one heading with a blank line behind it, and nothing else. -/
def ReadsAsHeading (text : List Char) (level : Nat) (content : List Char) : Prop :=
  ∃ line, Text.breakLines text = [line, [], []] ∧ readHeading? line = some (level, content)

/-- What tags there may be inside of a heading element. -/
def inlineTags : List (List Char) :=
  ["strong".toList, "/strong".toList, "em".toList, "/em".toList, "code".toList, "/code".toList,
    "br /".toList]

/-- A fragment reads back as one heading element with a line end behind it, and nothing else. -/
def ReadsAsHeadingElement (fragment : String) (level : Nat) (shown : List Char) : Prop :=
  ∃ inside, Markup.read Markup.namedReferences fragment =
      some (.tag ("h" ++ toString level).toList ::
        (inside ++ [.tag ("/h" ++ toString level).toList, .char '\n'])) ∧
    (∀ tag ∈ inside.filterMap Piece.inside?, tag ∈ inlineTags) ∧
    inside.filterMap Piece.char? = shown

theorem readHeading?_replicate {level : Nat} (low : 1 ≤ level) (high : level ≤ 6)
    (content : List Char) :
    readHeading? (List.replicate level '#' ++ ' ' :: content) = some (level, content) := by
  have signs : ∀ c ∈ List.replicate level '#', (c == '#') = true := by simp
  rw [readHeading?, List.takeWhile_append_of_pos signs, List.dropWhile_append_of_pos signs]
  simp [low, high]

theorem of_readHeading? {line content : List Char} {level : Nat}
    (read : readHeading? line = some (level, content)) :
    line = List.replicate level '#' ++ ' ' :: content := by
  have signs : line.takeWhile (· == '#') =
      List.replicate (line.takeWhile (· == '#')).length '#' :=
    List.eq_replicate_of_mem fun c taken => by simpa using List.mem_takeWhile_imp taken
  unfold readHeading? at read
  dsimp only at read
  split at read
  next behind =>
    split at read
    · cases read
      rw [← signs, ← behind, List.takeWhile_append_dropWhile]
    · cases read
  · cases read

/-! ### Line breaks in inline content -/

namespace Markdown

theorem unbroken_textRun {literal : String} {marks : List Mark} :
    Unbroken (textRun literal marks).toList ↔ Unbroken literal.toList := by
  unfold textRun
  induction Mark.normalize marks with
  | nil => rfl
  | cons mark rest ih =>
    have around : Unbroken (delimiter mark).toList := by cases mark <;> decide
    rw [List.foldr_cons, String.toList_append, String.toList_append, Text.unbroken_append,
      Text.unbroken_append, ih]
    simp [around]

theorem unbroken_formula {source : String} :
    Unbroken (formula source).toList ↔ Unbroken source.toList := by
  simp [formula]

theorem unbroken_inlines {nodes : List Node} :
    Unbroken (inlines nodes).toList ↔ ∀ node ∈ nodes, Unbroken (inline node).toList := by
  induction nodes with
  | nil => simp [inlines]
  | cons node rest ih =>
    rw [inlines, String.toList_append, Text.unbroken_append, ih, List.forall_mem_cons]

/-- Nothing but the texts and the hard breaks in it breaks the line of inline content. -/
theorem unbroken_inline (node : Node) :
    Unbroken (inline node).toList ↔
      node.Everywhere fun node => Unbroken node.ownText.toList ∧ node ≠ .hardBreak := by
  induction node using Node.induction_children with
  | step node ih =>
    rw [Node.everywhere_iff]
    rcases node.inline_cases with
      ⟨literal, marks, rfl⟩ | ⟨source, rfl⟩ | ⟨source, rfl⟩ | rfl | container
    · simp [inline, unbroken_textRun, Node.ownText, Node.children]
    · simp [inline, unbroken_formula, Node.ownText, Node.children]
    · simp [inline, unbroken_formula, Node.ownText, Node.children]
    · simp [inline, lineBreak, Unbroken]
    · have own : node.ownText = "" := by cases node <;> simp_all [Node.isInlineLeaf, Node.ownText]
      have other : node ≠ .hardBreak := by rintro rfl; cases container
      rw [inline_of_not_isInlineLeaf container, unbroken_inlines]
      simp only [own, other, String.toList_empty, Text.unbroken_nil, ne_eq, not_false_eq_true,
        and_self, true_and]
      exact forall₂_congr ih

/-- A heading reads back exactly if its content stays on its line. -/
theorem readsAsHeading_block {level : UInt8} {content : List Node} :
    ReadsAsHeading (block (.heading level content)).toList (headingLevel level)
      (inlines content).toList ↔ Unbroken (inlines content).toList := by
  have chars : (block (.heading level content)).toList =
      (List.replicate (headingLevel level) '#' ++ ' ' :: (inlines content).toList) ++
        ['\n', '\n'] := by
    simp [block]
  rw [ReadsAsHeading, chars]
  constructor
  · rintro ⟨line, lines, read⟩
    have unbroken : Unbroken line :=
      Text.unbroken_of_mem_breakLines line (lines ▸ List.mem_cons_self)
    rw [of_readHeading? read, Text.unbroken_append, Text.unbroken_cons] at unbroken
    exact unbroken.2.2
  · intro unbroken
    have signs : Unbroken (List.replicate (headingLevel level) '#') := by
      simp [Unbroken, List.mem_replicate]
    refine ⟨_, Text.breakLines_of_unbroken ?_ ['\n'],
      readHeading?_replicate (one_le_headingLevel level) (headingLevel_le_six level) _⟩
    simp [signs, unbroken]

end Markdown

/-! ### The tags of inline content -/

namespace Html

theorem inlineTags_textRun (literal : String) (marks : List Mark) :
    ∀ item ∈ textRun literal marks, ∀ tag ∈ item.inside?, tag ∈ inlineTags := by
  have known (mark : Mark) : (∀ tag ∈ (Item.start (markElement mark)).inside?, tag ∈ inlineTags) ∧
      ∀ tag ∈ (Item.closing (markElement mark)).inside?, tag ∈ inlineTags := by
    cases mark <;> decide
  simp only [textRun, List.forall_mem_append, ← List.map_reverse, List.map_map, List.forall_mem_map]
  refine ⟨⟨fun mark _ => (known mark).1, ?_⟩, fun mark _ => (known mark).2⟩
  simp [Item.named, Item.inside?]

/-- The tags of inline content are those of marks and of line breaks. -/
theorem inlineTags_inline (node : Node) :
    ∀ item ∈ inline node, ∀ tag ∈ item.inside?, tag ∈ inlineTags := by
  induction node using Node.induction_children with
  | step node ih =>
    rcases node.inline_cases with
      ⟨literal, marks, rfl⟩ | ⟨source, rfl⟩ | ⟨source, rfl⟩ | rfl | container
    · exact inlineTags_textRun literal marks
    · simp [inline, formula, Item.named, Item.inside?]
    · simp [inline, formula, Item.named, Item.inside?]
    · simp only [inline, List.mem_singleton]
      rintro _ rfl _ ⟨⟩
      decide
    · rw [inline_of_not_isInlineLeaf container, List.forall_mem_flatMap]
      exact ih

theorem readsAsHeadingElement_render (level : UInt8) (content : List Node) :
    ReadsAsHeadingElement (render (.heading level content)) (headingLevel level)
      (Span.chars (inlineSpansOf content)) := by
  refine ⟨(inlines content).flatMap Item.pieces, ?_, ?_, ?_⟩
  · rw [read_render]
    simp [block, element, newline, Item.pieces, Item.inside?, Item.start, Item.named]
  · intro tag member
    rw [Item.filterMap_inside?_pieces, inlines_eq_flatMap] at member
    obtain ⟨item, inside, found⟩ := List.mem_filterMap.mp member
    obtain ⟨node, _, inside⟩ := List.mem_flatMap.mp inside
    exact inlineTags_inline node item inside tag found
  · rw [Item.filterMap_char?_pieces, ← said_inlines]
    rfl

end Html

/-! ### Main theorem -/

/-- **A heading stays one heading** in Markdown, of its level and with all of its content, exactly
if no text and no source below it has a line break in it and no hard break stands below it. In a
fragment it is one element of that level, whatever stands below it. -/
theorem heading_holds_iff (level : UInt8) (content : List Node) (lang : String) :
    let heading := Node.heading level content
    (ReadsAsHeading ((Renderer.mk .markdown lang).render heading).toList (headingLevel level)
        (Markdown.inlines content).toList ↔
      heading.Everywhere fun node => Unbroken node.ownText.toList ∧ node ≠ .hardBreak) ∧
      ReadsAsHeadingElement ((Renderer.mk .html lang).render heading) (headingLevel level)
        (Span.chars (inlineSpansOf content)) := by
  intro heading
  exact ⟨Markdown.readsAsHeading_block.trans (Markdown.unbroken_inline heading),
    Html.readsAsHeadingElement_render level content⟩

/-- A heading with a hard break in it, and with no line break in its texts. -/
def brokenHeading : Node := .heading 2 [.text "a" [], .hardBreak, .text "b" []]

/-- The hard break ends the heading, and what follows it is left behind. -/
theorem heading_not_holds :
    (brokenHeading.Everywhere fun node => Unbroken node.ownText.toList) ∧
      Text.breakLines ((Renderer.mk .markdown "en").render brokenHeading).toList =
        ["## a\\".toList, ['b'], [], []] ∧
      ¬ ReadsAsHeading ((Renderer.mk .markdown "en").render brokenHeading).toList (headingLevel 2)
        (Markdown.inlines brokenHeading.children).toList := by
  have lines : Text.breakLines ((Renderer.mk .markdown "en").render brokenHeading).toList =
      ["## a\\".toList, ['b'], [], []] := by decide
  refine ⟨?_, lines, ?_⟩
  · rw [Node.everywhere_iff]
    refine ⟨by decide, ?_⟩
    simp only [brokenHeading, Node.children, List.forall_mem_cons]
    exact ⟨.leaf (by decide) rfl, .leaf (by decide) rfl, .leaf (by decide) rfl,
      List.forall_mem_nil _⟩
  · rintro ⟨line, whole, -⟩
    rw [lines] at whole
    cases whole

end Galley.Render
