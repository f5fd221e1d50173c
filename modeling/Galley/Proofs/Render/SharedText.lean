import Galley.Proofs.Basic
import Galley.Proofs.Render.Html
import Galley.Proofs.Text.Split
import Mathlib.Data.List.Basic
/-!
# Both renderings show the same text

What a tree says does not depend on the syntax it is rendered to: once the characters that the
syntaxes themselves write are left out, the Markdown of a tree is the text that its fragment shows.

## Main result

`significant_render`: for trees without a language on a code block, which Markdown shows and a
fragment does not.
-/
namespace Galley.Render

open Galley.Document (Node Mark)
open Galley.Markup (Item)

/-! ### What counts as text -/

/-- ASCII punctuation, ASCII digits, spaces and line feeds. -/
def isSyntax (c : Char) : Bool :=
  let n := c.toNat
  c.isDigit || c == ' ' || c == '\n' || (0x21 ≤ n && n ≤ 0x2F) || (0x3A ≤ n && n ≤ 0x40) ||
    (0x5B ≤ n && n ≤ 0x60) || (0x7B ≤ n && n ≤ 0x7E)

/-- The characters of a text that no syntax writes on its own. -/
def significant (text : List Char) : List Char := text.filter fun c => !isSyntax c

/-- No code block of a tree names its language. -/
def namesNoLanguage : Node → Prop
  | .codeBlock language _ => language = none
  | _ => True

/-- The significant characters that items show. -/
def shown (items : List Item) : List Char := significant (items.flatMap Item.shown)

/-- The significant characters of a text. -/
def written (text : String) : List Char := significant text.toList

@[simp] theorem shown_nil : shown [] = [] := rfl

@[simp] theorem shown_append (first second : List Item) :
    shown (first ++ second) = shown first ++ shown second := by
  simp [shown, significant]

@[simp] theorem shown_named (text : String) (rest : List Item) :
    shown (.named text :: rest) = written text ++ shown rest := by
  simp [shown, written, significant, Item.shown, Item.named]

section

variable (name : String) (rest : List Item)

@[simp] theorem shown_opening (attributes : List Markup.Attribute) :
    shown (.opening name attributes :: rest) = shown rest := rfl

@[simp] theorem shown_start : shown (.start name :: rest) = shown rest := rfl

@[simp] theorem shown_closing : shown (.closing name :: rest) = shown rest := rfl

@[simp] theorem shown_newline : shown (Html.newline :: rest) = shown rest := rfl

end

theorem shown_flatMap (nodes : List Node) (items : Node → List Item) :
    shown (nodes.flatMap items) = nodes.flatMap fun node => shown (items node) := by
  induction nodes with
  | nil => rfl
  | cons node rest ih => rw [List.flatMap_cons, shown_append, ih, List.flatMap_cons]

@[simp] theorem written_append (first second : String) :
    written (first ++ second) = written first ++ written second := by
  simp [written, significant]

/-- Numbers are written with digits. -/
@[simp] theorem written_repr (n : Nat) : written n.repr = [] := by
  rw [written, significant, List.filter_eq_nil_iff]
  intro c member
  simp [isSyntax, Text.isDigit_of_mem_repr member]

/-! ### Inline content -/

theorem written_textRun (literal : String) (marks : List Mark) :
    written (Markdown.textRun literal marks) = written literal := by
  unfold Markdown.textRun
  induction Mark.normalize marks with
  | nil => rfl
  | cons mark rest ih =>
    have delimiter : written (Markdown.delimiter mark) = [] := by cases mark <;> decide
    rw [List.foldr_cons, written_append, written_append, delimiter, ih, List.append_nil]
    rfl

theorem shown_textRun (literal : String) (marks : List Mark) :
    shown (Html.textRun literal marks) = written literal := by
  have silent (tag : String → Item) (hides : ∀ name, (tag name).shown = [])
      (names : List String) : shown (names.map tag) = [] := by
    have nothing : (names.map tag).flatMap Item.shown = [] := by simp [hides]
    rw [shown, nothing]
    rfl
  rw [Html.textRun, shown_append, shown_append, silent Item.start fun _ => rfl,
    silent Item.closing fun _ => rfl]
  simp

theorem shown_formula (source : String) :
    shown (Html.formula source) = written (Markdown.formula source) := by
  have dollar : written "$" = [] := by decide
  simp [Html.formula, Markdown.formula, dollar]

theorem written_inlines (nodes : List Node) :
    written (Markdown.inlines nodes) =
      nodes.flatMap fun node => written (Markdown.inline node) := by
  induction nodes with
  | nil => rfl
  | cons node rest ih => rw [Markdown.inlines, written_append, ih, List.flatMap_cons]

private theorem written_inline_container {node : Node} (container : node.isInlineLeaf = false) :
    written (Markdown.inline node) =
      node.children.flatMap fun child => written (Markdown.inline child) := by
  cases node with
  | text | mathInline | mathDisplay | hardBreak => cases container
  | horizontalRule => rfl
  | document | heading | paragraph | bulletList | orderedList | listItem | codeBlock | blockquote
  | table | unknown => exact written_inlines _

theorem shown_inline (node : Node) : shown (Html.inline node) = written (Markdown.inline node) := by
  induction node using Node.induction_children with
  | step node ih =>
    rcases node.inline_cases with
      ⟨literal, marks, rfl⟩ | ⟨source, rfl⟩ | ⟨source, rfl⟩ | rfl | container
    · rw [Html.inline, Markdown.inline, shown_textRun, written_textRun]
    · exact shown_formula source
    · exact shown_formula source
    · decide
    · -- both renderings go on with the children
      rw [Html.inline_of_not_isInlineLeaf container, written_inline_container container,
        shown_flatMap]
      exact List.flatMap_congr ih

theorem shown_inlines (nodes : List Node) :
    shown (Html.inlines nodes) = written (Markdown.inlines nodes) := by
  rw [Html.inlines_eq_flatMap, shown_flatMap, written_inlines]
  exact List.flatMap_congr fun node _ => shown_inline node

/-! ### Lists -/

private theorem shown_listLine (item : Node) :
    shown (Html.listLine item) = written (Markdown.inline item) := by
  have indent : written "  " = [] := by decide
  simp [Html.listLine, Html.element, shown_inline, indent]

theorem written_bulletItems (items : List Node) :
    written (Markdown.bulletItems items) = shown (Html.listItems items) := by
  have marker : written "- " = [] := by decide
  have ending : written "\n" = [] := by decide
  induction items with
  | nil => rfl
  | cons item rest ih =>
    have line := shown_listLine item
    rw [Html.listItems_eq_flatMap] at ih ⊢
    simp [Markdown.bulletItems, marker, ending, ih, line]

theorem written_orderedItems (number : UInt64) (items : List Node) :
    written (Markdown.orderedItems number items) = shown (Html.listItems items) := by
  have point : written ". " = [] := by decide
  have ending : written "\n" = [] := by decide
  induction items generalizing number with
  | nil => rfl
  | cons item rest ih =>
    have line := shown_listLine item
    rw [Html.listItems_eq_flatMap] at ih ⊢
    simp [Markdown.orderedItems, Markdown.orderedItem, point, ending, ih, line]

private theorem shown_orderedStart (start : UInt64) (rest : List Item) :
    shown (Html.orderedStart start :: rest) = shown rest := by
  unfold Html.orderedStart
  split <;> rfl

/-! ### Quotes -/

private theorem written_quoteLine (line : String) :
    written (Markdown.quoteLine line) = written line := by
  have bare : written ">\n" = [] := by decide
  have marker : written "> " = [] := by decide
  have ending : written "\n" = [] := by decide
  unfold Markdown.quoteLine
  split
  next empty =>
    rw [String.isEmpty_iff] at empty
    rw [empty, bare]
    rfl
  · simp [marker, ending]

private theorem written_join_quoteLine (lines : List String) :
    written (String.join (lines.map Markdown.quoteLine)) = lines.flatMap written := by
  induction lines with
  | nil => rfl
  | cons line rest ih =>
    have joined : String.join ((line :: rest).map Markdown.quoteLine) =
        Markdown.quoteLine line ++ String.join (rest.map Markdown.quoteLine) := by
      simp
    rw [joined, written_append, written_quoteLine, ih, List.flatMap_cons]

/-- A quote adds only syntax to what it quotes, and drops only syntax. -/
theorem written_quote (inner : String) : written (Markdown.quote inner) = written inner := by
  have ending : written "\n" = [] := by decide
  have newline : (!isSyntax '\n') = false := by decide
  have trimmed : significant (Text.dropEndWhile (· == '\n') inner.toList) = written inner := by
    refine Text.filter_dropEndWhile ?_ inner.toList
    intro c same
    rw [beq_iff_eq] at same
    rw [same, newline]
  -- line by line the quote writes what it kept, and only line feeds are missing from that
  rw [Markdown.quote, written_append, written_join_quoteLine, ending, List.append_nil,
    Text.splitOnChar, List.flatMap_map, String.toList_ofList, ← trimmed]
  simp only [written, String.toList_ofList]
  rw [significant, ← Text.filter_flatten_splitAt newline, List.filter_flatten]
  rfl

/-! ### Blocks -/

theorem written_blocks (nodes : List Node) :
    written (Markdown.blocks nodes) = nodes.flatMap fun node => written (Markdown.block node) := by
  induction nodes with
  | nil => rfl
  | cons node rest ih => rw [Markdown.blocks, written_append, ih, List.flatMap_cons]

theorem shown_block (node : Node) (unnamed : node.Everywhere namesNoLanguage) :
    shown (Html.block node) = written (Markdown.block node) := by
  have ending : written "\n" = [] := by decide
  have blank : written "\n\n" = [] := by decide
  induction node using Node.induction_children with
  | step node ih =>
    obtain ⟨here, inside⟩ := unnamed
    have below : shown (Html.blocks node.children) = written (Markdown.blocks node.children) := by
      rw [Html.blocks_eq_flatMap, shown_flatMap, written_blocks]
      exact List.flatMap_congr fun child member => ih child member (inside child member)
    cases node with
    | document content => exact below
    | heading level content =>
      have marker : written (String.ofList (List.replicate (headingLevel level) '#')) = [] := by
        simp [written, significant, isSyntax]
      have space : written " " = [] := by decide
      simp [Html.block, Markdown.block, Html.element, shown_inlines, marker, space, blank]
    | paragraph content =>
      simp [Html.block, Markdown.block, Html.element, shown_inlines, blank]
    | listItem content =>
      have marker : written "- " = [] := by decide
      simp [Html.block, Markdown.block, Html.element, shown_inlines, marker, ending]
    | bulletList items =>
      rw [Html.block, Markdown.block]
      split
      · rfl
      · simp [written_bulletItems, ending]
    | orderedList start items =>
      rw [Html.block, Markdown.block]
      split
      · rfl
      · simp [written_orderedItems, shown_orderedStart, ending]
    | codeBlock language content =>
      have fence : written "```\n" = [] := by decide
      have fenceEnd : written "\n```\n\n" = [] := by decide
      -- with a language the fence would show what the fragment has in an attribute
      have nameless : language = none := here
      subst nameless
      simp [Html.block, Markdown.block, Html.codeStart, fence, fenceEnd]
    | blockquote content =>
      have quoted : shown (Html.blocks content) = written (Markdown.blocks content) := below
      simp [Html.block, Markdown.block, written_quote, quoted]
    | table content =>
      -- the cells say the same words in both placeholders
      have same : shown Html.tablePlaceholder = written Markdown.tablePlaceholder := by decide
      exact same
    | mathInline source => exact shown_formula source
    | mathDisplay source =>
      have dollars : written "$$" = [] := by decide
      have opens : written "\n$$\n" = [] := by decide
      have closes : written "\n$$\n\n" = [] := by decide
      simp [Html.block, Markdown.block, dollars, opens, closes]
    | horizontalRule => decide
    | hardBreak => decide
    | text literal marks => exact shown_inline (.text literal marks)
    | unknown kind content => rfl

/-- **Both renderings show the same text**: tags deleted and references decoded, a fragment reads as
the Markdown of its tree, apart from the characters of the syntaxes. -/
theorem significant_render (node : Node) (unnamed : node.Everywhere namesNoLanguage)
    (lang : String) :
    (Markup.shownText Markup.namedReferences ((Renderer.mk .html lang).render node)).map
        significant =
      some (significant ((Renderer.mk .markdown lang).render node).toList) := by
  change (Markup.shownText _ (Html.render node)).map _ = some (written (Markdown.block node))
  rw [Markup.shownText, Html.read_render, Option.map_some, Option.map_some,
    Item.filterMap_char?_pieces, ← shown_block node unnamed]
  rfl

/-- A quoted list and quoted code, with characters that the fragment escapes. -/
theorem significant_render_quote :
    let quoted := Node.blockquote [.orderedList 3 [.paragraph [.text "a<b" [.bold]], .hardBreak],
      .codeBlock none [.text "é & c" []]]
    quoted.Everywhere namesNoLanguage ∧
      (Markup.shownText Markup.namedReferences ((Renderer.mk .html "en").render quoted)).map
        significant = some "abéc".toList := by
  intro quoted
  have leaf (literal : String) (marks : List Mark) :
      (Node.text literal marks).Everywhere namesNoLanguage := .of trivial nofun
  have item : (Node.paragraph [.text "a<b" [.bold]]).Everywhere namesNoLanguage :=
    .of trivial (List.forall_mem_singleton.mpr (leaf _ _))
  have list : (Node.orderedList 3 [.paragraph [.text "a<b" [.bold]], .hardBreak]).Everywhere
      namesNoLanguage :=
    .of trivial (List.forall_mem_cons.mpr ⟨item, List.forall_mem_singleton.mpr (.of trivial nofun)⟩)
  have code : (Node.codeBlock none [.text "é & c" []]).Everywhere namesNoLanguage :=
    .of rfl (List.forall_mem_singleton.mpr (leaf _ _))
  have unnamed : quoted.Everywhere namesNoLanguage :=
    .of trivial (List.forall_mem_cons.mpr ⟨list, List.forall_mem_singleton.mpr code⟩)
  refine ⟨unnamed, (significant_render quoted unnamed "en").trans ?_⟩
  decide

end Galley.Render
