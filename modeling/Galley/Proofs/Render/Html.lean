import Galley.Proofs.Document.Mark
import Galley.Proofs.Document.Node
import Galley.Proofs.Markup.Reading
import Galley.Render.Target
/-!
# The items of a fragment

Which tags and texts a fragment is made of, whatever the tree: `allFragmentItems_block`. A reader
can tell these items apart, so a rendered fragment reads back as them: `read_render`.
-/
namespace Galley.Render.Html

open Galley.Document (Node Mark)
open Galley.Markup (Item Attribute Escaping)

/-! ### Sequences of nodes -/

theorem inlines_eq_flatMap (nodes : List Node) : inlines nodes = nodes.flatMap inline := by
  induction nodes with
  | nil => rfl
  | cons node rest ih => rw [inlines, ih, List.flatMap_cons]

theorem blocks_eq_flatMap (nodes : List Node) : blocks nodes = nodes.flatMap block := by
  induction nodes with
  | nil => rfl
  | cons node rest ih => rw [blocks, ih, List.flatMap_cons]

/-- An item of a list on its line. -/
def listLine (item : Node) : List Item :=
  [.named "  "] ++ element "li" (inline item) ++ [newline]

theorem listItems_eq_flatMap (items : List Node) : listItems items = items.flatMap listLine := by
  induction items with
  | nil => rfl
  | cons item rest ih => rw [listItems, ih, List.flatMap_cons]; rfl

theorem inline_of_not_isInlineLeaf {node : Node} (container : node.isInlineLeaf = false) :
    inline node = node.children.flatMap inline := by
  cases node with
  | text | mathInline | mathDisplay | hardBreak => cases container
  | horizontalRule => rfl
  | document | heading | paragraph | bulletList | orderedList | listItem | codeBlock | blockquote
  | table | unknown => exact inlines_eq_flatMap _

/-! ### The order of marks -/

theorem flatMap_withNormalMarks {nodes : List Node} {items : Node → List Item}
    (each : ∀ node ∈ nodes, items node.withNormalMarks = items node) :
    (Node.withNormalMarksAll nodes).flatMap items = nodes.flatMap items := by
  rw [Node.withNormalMarksAll_eq_map, List.flatMap_map, List.flatMap_def, List.flatMap_def]
  exact congrArg List.flatten (List.map_congr_left each)

/-- The order and the repetition of marks are not shown. -/
theorem inline_withNormalMarks (node : Node) : inline node.withNormalMarks = inline node := by
  induction node using Node.induction_children with
  | step node ih =>
    rcases node.inline_cases with
      ⟨literal, marks, rfl⟩ | ⟨source, rfl⟩ | ⟨source, rfl⟩ | rfl | container
    · simp [Node.withNormalMarks, inline, textRun, Mark.normalize_normalize]
    · rfl
    · rfl
    · rfl
    · have same := node.isInlineLeaf_withNormalMarks.trans container
      rw [inline_of_not_isInlineLeaf container, inline_of_not_isInlineLeaf same,
        Node.children_withNormalMarks, ← Node.withNormalMarksAll_eq_map]
      exact flatMap_withNormalMarks ih

/-- The order and the repetition of marks are not shown. -/
theorem block_withNormalMarks (node : Node) : block node.withNormalMarks = block node := by
  induction node using Node.induction_children with
  | step node ih =>
    have below : blocks (Node.withNormalMarksAll node.children) = blocks node.children := by
      rw [blocks_eq_flatMap, blocks_eq_flatMap]
      exact flatMap_withNormalMarks ih
    have inside (nodes : List Node) : inlines (Node.withNormalMarksAll nodes) = inlines nodes := by
      rw [inlines_eq_flatMap, inlines_eq_flatMap]
      exact flatMap_withNormalMarks fun node _ => inline_withNormalMarks node
    have lines (nodes : List Node) :
        listItems (Node.withNormalMarksAll nodes) = listItems nodes := by
      rw [listItems_eq_flatMap, listItems_eq_flatMap]
      refine flatMap_withNormalMarks fun node _ => ?_
      rw [listLine, inline_withNormalMarks, listLine]
    have empty (nodes : List Node) :
        (Node.withNormalMarksAll nodes).isEmpty = nodes.isEmpty := by
      cases nodes <;> rfl
    cases node with
    | document content => exact below
    | blockquote content =>
      have quoted : blocks (Node.withNormalMarksAll content) = blocks content := below
      rw [Node.withNormalMarks, block, quoted, block]
    | heading | paragraph | listItem => simp only [Node.withNormalMarks, block, inside]
    | bulletList | orderedList => simp only [Node.withNormalMarks, block, lines, empty]
    | codeBlock language content =>
      have text : Node.plainTexts (content.map Node.withNormalMarks) = Node.plainTexts content :=
        Node.plainTexts_map_withNormalMarks fun node _ => node.plainText_withNormalMarks
      rw [Node.withNormalMarks, block, block, Node.withNormalMarksAll_eq_map, text]
    | text literal marks => exact inline_withNormalMarks (.text literal marks)
    | mathInline | mathDisplay | horizontalRule | hardBreak | table | unknown => rfl

/-! ### The items there are -/

/-- The elements of fragments whose tags have no attributes. -/
def plainElements : List String :=
  ["h1", "h2", "h3", "h4", "h5", "h6", "p", "ul", "ol", "li", "pre", "code", "blockquote", "strong",
    "em", "table", "tr", "th", "td"]

/-- The items of fragments. Only list starts, languages of code and texts come from the tree. -/
inductive IsFragmentItem : Item → Prop
  | text (text : String) : IsFragmentItem (.named text)
  | start {name : String} (known : name ∈ plainElements) : IsFragmentItem (.start name)
  | closing {name : String} (known : name ∈ plainElements) : IsFragmentItem (.closing name)
  | void {name : String} (known : name ∈ ["br", "hr"]) : IsFragmentItem (.void name)
  | list (start : UInt64) :
    IsFragmentItem (.opening "ol" [.valued "start" .named (toString start.toNat)])
  | code (language : String) :
    IsFragmentItem (.opening "code" [.valued "class" .named ("language-" ++ language)])
  | display : IsFragmentItem (.opening "div" [.fixed "class" "math-display"])
  | displayEnd : IsFragmentItem (.closing "div")

/-- A sequence of such items. -/
def AllFragmentItems (items : List Item) : Prop := ∀ item ∈ items, IsFragmentItem item

@[simp] theorem allFragmentItems_nil : AllFragmentItems [] := nofun

@[simp] theorem allFragmentItems_cons {item : Item} {rest : List Item} :
    AllFragmentItems (item :: rest) ↔ IsFragmentItem item ∧ AllFragmentItems rest :=
  List.forall_mem_cons

@[simp] theorem allFragmentItems_append {first second : List Item} :
    AllFragmentItems (first ++ second) ↔ AllFragmentItems first ∧ AllFragmentItems second :=
  List.forall_mem_append

theorem allFragmentItems_flatMap {nodes : List Node} {items : Node → List Item}
    (each : ∀ node ∈ nodes, AllFragmentItems (items node)) :
    AllFragmentItems (nodes.flatMap items) := by
  intro item member
  obtain ⟨node, inside, member⟩ := List.mem_flatMap.mp member
  exact each node inside item member

@[simp] theorem isFragmentItem_named (text : String) : IsFragmentItem (.named text) := .text text

@[simp] theorem isFragmentItem_newline : IsFragmentItem newline := .text "\n"

theorem markElement_mem (mark : Mark) : markElement mark ∈ ["strong", "em", "code"] := by
  cases mark <;> decide

theorem headingElement_mem (level : UInt8) :
    "h" ++ toString (headingLevel level) ∈ ["h1", "h2", "h3", "h4", "h5", "h6"] := by
  have low := one_le_headingLevel level
  have high := headingLevel_le_six level
  generalize headingLevel level = shown at low high
  match shown, low, high with
  | 1, _, _ | 2, _, _ | 3, _, _ | 4, _, _ | 5, _, _ | 6, _, _ => decide

private theorem marks_subset_plainElements :
    ∀ name ∈ ["strong", "em", "code"], name ∈ plainElements := by
  decide

private theorem headings_subset_plainElements :
    ∀ name ∈ ["h1", "h2", "h3", "h4", "h5", "h6"], name ∈ plainElements := by
  decide

theorem allFragmentItems_textRun (literal : String) (marks : List Mark) :
    AllFragmentItems (textRun literal marks) := by
  have known (mark : Mark) : markElement mark ∈ plainElements :=
    marks_subset_plainElements _ (markElement_mem mark)
  simp only [textRun, allFragmentItems_append]
  refine ⟨⟨?_, by simp⟩, ?_⟩
  · simp only [AllFragmentItems, List.map_map, List.forall_mem_map]
    exact fun mark _ => .start (known mark)
  · simp only [AllFragmentItems, ← List.map_reverse, List.map_map, List.forall_mem_map]
    exact fun mark _ => .closing (known mark)

theorem allFragmentItems_formula (source : String) : AllFragmentItems (formula source) := by
  simp [formula]

theorem allFragmentItems_element {name : String} (known : name ∈ plainElements)
    {content : List Item} (inside : AllFragmentItems content) :
    AllFragmentItems (element name content) := by
  simp [element, IsFragmentItem.start known, IsFragmentItem.closing known, inside]

theorem allFragmentItems_inline (node : Node) : AllFragmentItems (inline node) := by
  induction node using Node.induction_children with
  | step node ih =>
    rcases node.inline_cases with
      ⟨literal, marks, rfl⟩ | ⟨source, rfl⟩ | ⟨source, rfl⟩ | rfl | container
    · exact allFragmentItems_textRun literal marks
    · exact allFragmentItems_formula source
    · exact allFragmentItems_formula source
    · simpa [inline] using IsFragmentItem.void (by decide)
    · rw [inline_of_not_isInlineLeaf container]
      exact allFragmentItems_flatMap ih

theorem allFragmentItems_inlines (nodes : List Node) : AllFragmentItems (inlines nodes) := by
  rw [inlines_eq_flatMap]
  exact allFragmentItems_flatMap fun node _ => allFragmentItems_inline node

theorem allFragmentItems_listItems (items : List Node) : AllFragmentItems (listItems items) := by
  rw [listItems_eq_flatMap]
  apply allFragmentItems_flatMap
  intro item _
  have known : "li" ∈ plainElements := by decide
  simpa [listLine] using allFragmentItems_element known (allFragmentItems_inline item)

private theorem isFragmentItem_orderedStart (start : UInt64) :
    IsFragmentItem (orderedStart start) := by
  unfold orderedStart
  split
  · exact .start (by decide)
  · exact .list start

private theorem isFragmentItem_codeStart (language : Option String) :
    IsFragmentItem (codeStart language) := by
  cases language with
  | none => exact .start (by decide)
  | some language => exact .code language

theorem tablePlaceholder_eq : tablePlaceholder =
    [.start "table", newline,
      .named "  ", .start "tr", .start "th", .named "Column 1", .closing "th",
        .start "th", .named "Column 2", .closing "th", .closing "tr", newline,
      .named "  ", .start "tr", .start "td", .named "Cell 1", .closing "td",
        .start "td", .named "Cell 2", .closing "td", .closing "tr", newline,
      .closing "table", newline] := rfl

private theorem allFragmentItems_tablePlaceholder : AllFragmentItems tablePlaceholder := by
  have tags (name : String) (known : name ∈ plainElements) :
      IsFragmentItem (.start name) ∧ IsFragmentItem (.closing name) :=
    ⟨.start known, .closing known⟩
  have table := tags "table" (by decide)
  have row := tags "tr" (by decide)
  have head := tags "th" (by decide)
  have cell := tags "td" (by decide)
  simp [tablePlaceholder_eq, table, row, head, cell]

/-- **The items of fragments**: whatever the tree, every item of its fragment is of a known kind. -/
theorem allFragmentItems_block (node : Node) : AllFragmentItems (block node) := by
  induction node using Node.induction_children with
  | step node ih =>
    have below : AllFragmentItems (blocks node.children) := by
      rw [blocks_eq_flatMap]
      exact allFragmentItems_flatMap ih
    cases node with
    | document content => exact below
    | heading level content =>
      have known := headings_subset_plainElements _ (headingElement_mem level)
      rw [block, allFragmentItems_append]
      exact ⟨allFragmentItems_element known (allFragmentItems_inlines content), by simp⟩
    | paragraph content =>
      rw [block, allFragmentItems_append]
      exact ⟨allFragmentItems_element (by decide) (allFragmentItems_inlines content), by simp⟩
    | listItem content =>
      rw [block, allFragmentItems_append]
      exact ⟨allFragmentItems_element (by decide) (allFragmentItems_inlines content), by simp⟩
    | bulletList items =>
      have start : IsFragmentItem (.start "ul") := .start (by decide)
      have ending : IsFragmentItem (.closing "ul") := .closing (by decide)
      rw [block]
      split <;> simp [start, ending, allFragmentItems_listItems]
    | orderedList start items =>
      have ending : IsFragmentItem (.closing "ol") := .closing (by decide)
      rw [block]
      split <;> simp [isFragmentItem_orderedStart, ending, allFragmentItems_listItems]
    | codeBlock language content =>
      have start : IsFragmentItem (.start "pre") := .start (by decide)
      have codeEnd : IsFragmentItem (.closing "code") := .closing (by decide)
      have ending : IsFragmentItem (.closing "pre") := .closing (by decide)
      simp [block, start, isFragmentItem_codeStart, codeEnd, ending]
    | blockquote content =>
      have start : IsFragmentItem (.start "blockquote") := .start (by decide)
      have ending : IsFragmentItem (.closing "blockquote") := .closing (by decide)
      have inside : AllFragmentItems (blocks content) := below
      simp [block, start, ending, inside]
    | table content => exact allFragmentItems_tablePlaceholder
    | mathInline source => exact allFragmentItems_formula source
    | mathDisplay source => simp [block, IsFragmentItem.display, IsFragmentItem.displayEnd]
    | horizontalRule => simpa [block] using IsFragmentItem.void (by decide)
    | hardBreak => simpa [block] using IsFragmentItem.void (by decide)
    | text literal marks => exact allFragmentItems_textRun literal marks
    | unknown kind content => exact allFragmentItems_nil

/-! ### Reading a fragment -/

private theorem brackets_not_mem_plainElements :
    ∀ name ∈ plainElements, '<' ∉ name.toList ∧ '>' ∉ name.toList := by
  decide

theorem readable_of_isFragmentItem {item : Item} (known : IsFragmentItem item) :
    item.Readable .named := by
  refine ⟨fun data same => by cases known <;> cases same; rfl, ?_⟩
  intro inside found
  cases known with
  | text => cases found
  | start known =>
    cases found
    simpa using brackets_not_mem_plainElements _ known
  | closing known =>
    cases found
    simpa using brackets_not_mem_plainElements _ known
  | void known =>
    cases found
    simp only [List.mem_cons, List.not_mem_nil, or_false] at known
    rcases known with rfl | rfl <;> decide
  | display | displayEnd => cases found; decide
  | list start =>
    -- escaped values hold no brackets, whatever they say
    have plain := Markup.not_mem_written_named (toString start.toNat).toList
    rw [Item.inside?_opening_valued] at found
    generalize (toString start.toNat).toList.flatMap Escaping.named.char = value at plain found
    cases found
    simp [plain]
  | code language =>
    have plain := Markup.not_mem_written_named ("language-" ++ language).toList
    rw [Item.inside?_opening_valued] at found
    generalize ("language-" ++ language).toList.flatMap Escaping.named.char = value at plain found
    cases found
    simp [plain]

/-- A rendered fragment reads back as its tags and texts. -/
theorem read_render (node : Node) :
    Markup.read Markup.namedReferences (render node) =
      some ((block node).flatMap Item.pieces) :=
  Markup.read_print Markup.fits_named fun item member =>
    readable_of_isFragmentItem (allFragmentItems_block node item member)

end Galley.Render.Html
