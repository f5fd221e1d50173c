import Galley.Proofs.Render.Html
import Mathlib.Data.List.Basic
/-!
# What a fragment says

The reference text of a tree says, without any markup, what a reader of its fragment sees: the
characters of the tree in document order, each formula between its dollar signs, the words of the
table placeholder, and the indents and line ends of the layout. Which nodes count depends on where
they stand: a table or an unknown node shows its content inside a block, but not as a block.

## Main result

`shownText_render`: a fragment whose tags are deleted and whose references are decoded is the
reference text of its tree.
-/
namespace Galley.Render

open Galley.Document (Node Mark)
open Galley.Markup (Item)

/-! ### Reference text -/

/-- A part of the reference text, by where it comes from. The layout adds nothing but indents and
line ends. -/
inductive Span where
  | literal (text : String)
  | formula (dollars source : String)
  | code (text : String)
  | placeholder (word : String)
  | indent
  | lineEnd
deriving DecidableEq, Repr

namespace Span

def text : Span → String
  | .literal text => text
  | .formula dollars source => dollars ++ source ++ dollars
  | .code text => text
  | .placeholder word => word
  | .indent => "  "
  | .lineEnd => "\n"

def chars (spans : List Span) : List Char := spans.flatMap fun span => span.text.toList

end Span

mutual

/-- What a node says inside a block. -/
def inlineSpans : Node → List Span
  | .text literal _ => [.literal literal]
  | .mathInline source => [.formula "$" source]
  | .mathDisplay source => [.formula "$" source]
  | .document content => inlineSpansOf content
  | .heading _ content => inlineSpansOf content
  | .paragraph content => inlineSpansOf content
  | .bulletList items => inlineSpansOf items
  | .orderedList _ items => inlineSpansOf items
  | .listItem content => inlineSpansOf content
  | .codeBlock _ content => inlineSpansOf content
  | .blockquote content => inlineSpansOf content
  | .table content => inlineSpansOf content
  | .unknown _ content => inlineSpansOf content
  | .horizontalRule => []
  | .hardBreak => []

def inlineSpansOf : List Node → List Span
  | [] => []
  | node :: rest => inlineSpans node ++ inlineSpansOf rest

end

/-- What a list says, one item on a line. -/
def listSpans (items : List Node) : List Span :=
  if items.isEmpty then []
  else [.lineEnd] ++ items.flatMap (fun item => [.indent] ++ inlineSpans item ++ [.lineEnd]) ++
    [.lineEnd]

/-- What is said in place of any table. -/
def tableSpans : List Span :=
  [.lineEnd, .indent, .placeholder "Column 1", .placeholder "Column 2", .lineEnd, .indent,
    .placeholder "Cell 1", .placeholder "Cell 2", .lineEnd, .lineEnd]

mutual

/-- What a node says as a block. -/
def blockSpans : Node → List Span
  | .document content => blockSpansOf content
  | .blockquote content => [.lineEnd] ++ blockSpansOf content ++ [.lineEnd]
  | .heading _ content => inlineSpansOf content ++ [.lineEnd]
  | .paragraph content => inlineSpansOf content ++ [.lineEnd]
  | .listItem content => inlineSpansOf content ++ [.lineEnd]
  | .bulletList items => listSpans items
  | .orderedList _ items => listSpans items
  | .codeBlock language content => [.code (Node.plainText (.codeBlock language content)), .lineEnd]
  | .table _ => tableSpans
  | .mathInline source => [.formula "$" source]
  | .mathDisplay source => [.formula "$$" source, .lineEnd]
  | .horizontalRule => [.lineEnd]
  | .hardBreak => []
  | .text literal _ => [.literal literal]
  | .unknown _ _ => []

def blockSpansOf : List Node → List Span
  | [] => []
  | node :: rest => blockSpans node ++ blockSpansOf rest

end

/-! ### Characters of spans and items -/

@[simp] theorem chars_nil : Span.chars [] = [] := rfl

@[simp] theorem chars_cons (span : Span) (rest : List Span) :
    Span.chars (span :: rest) = span.text.toList ++ Span.chars rest := rfl

@[simp] theorem chars_append (first second : List Span) :
    Span.chars (first ++ second) = Span.chars first ++ Span.chars second := List.flatMap_append

theorem chars_flatMap (nodes : List Node) (spans : Node → List Span) :
    Span.chars (nodes.flatMap spans) = nodes.flatMap fun node => Span.chars (spans node) :=
  List.flatMap_assoc

/-- What the items of a fragment show. -/
def said (items : List Item) : List Char := items.flatMap Item.shown

@[simp] theorem said_nil : said [] = [] := rfl

@[simp] theorem said_append (first second : List Item) :
    said (first ++ second) = said first ++ said second := List.flatMap_append

@[simp] theorem said_named (text : String) (rest : List Item) :
    said (.named text :: rest) = text.toList ++ said rest := rfl

@[simp] theorem said_newline (rest : List Item) : said (Html.newline :: rest) = '\n' :: said rest :=
  rfl

section

variable (name : String) (rest : List Item)

@[simp] theorem said_opening (attributes : List Markup.Attribute) :
    said (.opening name attributes :: rest) = said rest := rfl

@[simp] theorem said_start : said (.start name :: rest) = said rest := rfl

@[simp] theorem said_closing : said (.closing name :: rest) = said rest := rfl

end

theorem said_flatMap (nodes : List Node) (items : Node → List Item) :
    said (nodes.flatMap items) = nodes.flatMap fun node => said (items node) := List.flatMap_assoc

/-! ### Inside a block -/

theorem said_textRun (literal : String) (marks : List Mark) :
    said (Html.textRun literal marks) = literal.toList := by
  -- a tag for each mark before the text and behind it, and tags say nothing
  have silent (tag : String → Item) (hides : ∀ name, (tag name).shown = []) (names : List String) :
      said (names.map tag) = [] := by
    simp [said, hides]
  rw [Html.textRun, said_append, said_append, silent Item.start fun _ => rfl,
    silent Item.closing fun _ => rfl]
  simp

theorem said_formula (source : String) :
    said (Html.formula source) = Span.chars [.formula "$" source] := by
  simp [Html.formula, Span.text]

theorem inlineSpansOf_eq_flatMap (nodes : List Node) :
    inlineSpansOf nodes = nodes.flatMap inlineSpans := by
  induction nodes with
  | nil => rfl
  | cons node rest ih => rw [inlineSpansOf, ih, List.flatMap_cons]

theorem inlineSpans_of_not_isInlineLeaf {node : Node} (container : node.isInlineLeaf = false) :
    inlineSpans node = node.children.flatMap inlineSpans := by
  cases node with
  | text | mathInline | mathDisplay | hardBreak => cases container
  | horizontalRule => rfl
  | document | heading | paragraph | bulletList | orderedList | listItem | codeBlock | blockquote
  | table | unknown => exact inlineSpansOf_eq_flatMap _

theorem said_inline (node : Node) : said (Html.inline node) = Span.chars (inlineSpans node) := by
  induction node using Node.induction_children with
  | step node ih =>
    rcases node.inline_cases with
      ⟨literal, marks, rfl⟩ | ⟨source, rfl⟩ | ⟨source, rfl⟩ | rfl | container
    · rw [Html.inline, said_textRun, inlineSpans]
      simp [Span.text]
    · exact said_formula source
    · exact said_formula source
    · rfl
    · -- fragment and reference text both go on with the children
      rw [Html.inline_of_not_isInlineLeaf container, inlineSpans_of_not_isInlineLeaf container,
        said_flatMap, chars_flatMap]
      exact List.flatMap_congr ih

theorem said_inlines (nodes : List Node) :
    said (Html.inlines nodes) = Span.chars (inlineSpansOf nodes) := by
  rw [Html.inlines_eq_flatMap, inlineSpansOf_eq_flatMap, said_flatMap, chars_flatMap]
  exact List.flatMap_congr fun node _ => said_inline node

/-! ### Blocks -/

theorem said_listItems (items : List Node) :
    said (Html.listItems items) = Span.chars
      (items.flatMap fun item => [Span.indent] ++ inlineSpans item ++ [Span.lineEnd]) := by
  rw [Html.listItems_eq_flatMap, said_flatMap, chars_flatMap]
  refine List.flatMap_congr fun item _ => ?_
  simp [Html.listLine, Html.element, said_inline, Span.text]

/-- A list says its items, whatever its tags. -/
theorem said_list {start ending : Item} (opens : start.shown = []) (closes : ending.shown = [])
    (items : List Node) :
    said (if items.isEmpty then []
      else [start, Html.newline] ++ Html.listItems items ++ [ending, Html.newline]) =
      Span.chars (listSpans items) := by
  have silent {tag : Item} (hides : tag.shown = []) (rest : List Item) :
      said (tag :: rest) = said rest := by
    rw [said, List.flatMap_cons, hides]
    rfl
  -- an empty list is left out on both sides
  unfold listSpans
  split
  · rfl
  · simp [silent opens, silent closes, said_listItems, Span.text]

private theorem orderedStart_shown (start : UInt64) : (Html.orderedStart start).shown = [] := by
  unfold Html.orderedStart
  split <;> rfl

private theorem codeStart_shown (language : Option String) :
    (Html.codeStart language).shown = [] := by
  cases language <;> rfl

theorem blockSpansOf_eq_flatMap (nodes : List Node) :
    blockSpansOf nodes = nodes.flatMap blockSpans := by
  induction nodes with
  | nil => rfl
  | cons node rest ih => rw [blockSpansOf, ih, List.flatMap_cons]

theorem said_block (node : Node) : said (Html.block node) = Span.chars (blockSpans node) := by
  induction node using Node.induction_children with
  | step node ih =>
    -- documents and quotes alone go on with their children as blocks
    have below : said (Html.blocks node.children) = Span.chars (blockSpansOf node.children) := by
      rw [Html.blocks_eq_flatMap, blockSpansOf_eq_flatMap, said_flatMap, chars_flatMap]
      exact List.flatMap_congr ih
    cases node with
    | document content => exact below
    | blockquote content =>
      have quoted : said (Html.blocks content) = Span.chars (blockSpansOf content) := below
      simp [Html.block, blockSpans, quoted, Span.text]
    | heading level content =>
      simp [Html.block, blockSpans, Html.element, said_inlines, Span.text]
    | paragraph content =>
      simp [Html.block, blockSpans, Html.element, said_inlines, Span.text]
    | listItem content =>
      simp [Html.block, blockSpans, Html.element, said_inlines, Span.text]
    | bulletList items =>
      rw [Html.block, blockSpans]
      exact said_list rfl rfl items
    | orderedList start items =>
      rw [Html.block, blockSpans]
      exact said_list (orderedStart_shown start) rfl items
    | codeBlock language content =>
      -- the language is in an attribute, and the code is written without its marks
      have start (rest : List Item) : said (Html.codeStart language :: rest) = said rest := by
        rw [said, List.flatMap_cons, codeStart_shown]
        rfl
      simp [Html.block, blockSpans, start, Node.plainText, Span.text]
    | table content => rfl
    | mathInline source => exact said_formula source
    | mathDisplay source => simp [Html.block, blockSpans, Span.text]
    | horizontalRule => rfl
    | hardBreak => rfl
    | text literal marks => exact said_inline (.text literal marks)
    | unknown kind content => rfl

/-! ### Main theorem -/

/-- **A fragment says its tree**: with its tags deleted and its references decoded, it is the
reference text of the tree, character by character, whatever the texts in it. -/
theorem shownText_render (node : Node) (lang : String) :
    Markup.shownText Markup.namedReferences ((Renderer.mk .html lang).render node) =
      some (Span.chars (blockSpans node)) := by
  change Markup.shownText _ (Html.render node) = _
  rw [Markup.shownText, Html.read_render, Option.map_some, Item.filterMap_char?_pieces,
    ← said_block node]
  rfl

/-- Texts that look like markup, and nodes that say something only inside a block. -/
example :
    Span.chars (blockSpans (.document [.heading 2 [.text "&lt;b>" [.code], .table [.text "x" []]],
      .unknown none [.text "lost" []], .orderedList 3 [.unknown none [.text "</li>" []]],
      .mathDisplay "a<b", .bulletList []])) =
      "&lt;b>x\n\n  </li>\n\n$$a<b$$\n".toList := by
  decide

end Galley.Render
