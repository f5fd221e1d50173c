import Galley.Document.Blocks
import Galley.Proofs.Render.Runs
import Mathlib.Data.List.Forall2
/-!
# The marks of a text run are a set

In which order and how often marks are given to a text run does not show. Both renderings write the
marks that there are in one nesting, and what has no marks in it (plain text, leaf blocks, code
blocks) is the same for any marks.

## Main result

`marks_unordered`: trees whose text runs have the same sets of marks are rendered alike.

There is only one list of given marks in nesting order (`Mark.eq_normalize_iff`), so a tree and its
normal form are rendered alike (`block_withNormalMarks`, for each target).
-/
namespace Galley.Document

/-! ### Trees that differ in marks -/

namespace Node

/-- Trees that are equal but for the marks of their text runs, which are related run by run. -/
inductive UpToMarks (related : List Mark → List Mark → Prop) : Node → Node → Prop
  | text (literal : String) {marks others : List Mark} (given : related marks others) :
    UpToMarks related (.text literal marks) (.text literal others)
  | document {content others : List Node} (each : List.Forall₂ (UpToMarks related) content others) :
    UpToMarks related (.document content) (.document others)
  | heading (level : UInt8) {content others : List Node}
    (each : List.Forall₂ (UpToMarks related) content others) :
    UpToMarks related (.heading level content) (.heading level others)
  | paragraph {content others : List Node}
    (each : List.Forall₂ (UpToMarks related) content others) :
    UpToMarks related (.paragraph content) (.paragraph others)
  | bulletList {items others : List Node} (each : List.Forall₂ (UpToMarks related) items others) :
    UpToMarks related (.bulletList items) (.bulletList others)
  | orderedList (start : UInt64) {items others : List Node}
    (each : List.Forall₂ (UpToMarks related) items others) :
    UpToMarks related (.orderedList start items) (.orderedList start others)
  | listItem {content others : List Node} (each : List.Forall₂ (UpToMarks related) content others) :
    UpToMarks related (.listItem content) (.listItem others)
  | codeBlock (language : Option String) {content others : List Node}
    (each : List.Forall₂ (UpToMarks related) content others) :
    UpToMarks related (.codeBlock language content) (.codeBlock language others)
  | blockquote {content others : List Node}
    (each : List.Forall₂ (UpToMarks related) content others) :
    UpToMarks related (.blockquote content) (.blockquote others)
  | table {content others : List Node} (each : List.Forall₂ (UpToMarks related) content others) :
    UpToMarks related (.table content) (.table others)
  | unknown (kind : Option String) {content others : List Node}
    (each : List.Forall₂ (UpToMarks related) content others) :
    UpToMarks related (.unknown kind content) (.unknown kind others)
  | mathInline (source : String) : UpToMarks related (.mathInline source) (.mathInline source)
  | mathDisplay (source : String) : UpToMarks related (.mathDisplay source) (.mathDisplay source)
  | horizontalRule : UpToMarks related .horizontalRule .horizontalRule
  | hardBreak : UpToMarks related .hardBreak .hardBreak

theorem map_eq_of_forall₂ {α β : Type} {relation : α → α → Prop} {f : α → β}
    {values others : List α} (each : List.Forall₂ relation values others)
    (same : ∀ value ∈ values, ∀ other, relation value other → f value = f other) :
    values.map f = others.map f := by
  induction each with
  | nil => rfl
  | cons here _ ih =>
    rw [List.forall_mem_cons] at same
    rw [List.map_cons, List.map_cons, same.1 _ here, ih same.2]

theorem withNormalMarks_congr {node other : Node} (same : node.UpToMarks Mark.SameSet other) :
    node.withNormalMarks = other.withNormalMarks := by
  induction node using induction_children generalizing other with
  | step node ih =>
    have below {nodes others : List Node}
        (each : List.Forall₂ (UpToMarks Mark.SameSet) nodes others)
        (children : node.children = nodes) :
        withNormalMarksAll nodes = withNormalMarksAll others := by
      rw [withNormalMarksAll_eq_map, withNormalMarksAll_eq_map]
      exact map_eq_of_forall₂ each fun child member other => ih child (children ▸ member)
    cases same with
    | text literal given => rw [withNormalMarks, withNormalMarks, Mark.normalize_congr given]
    | mathInline | mathDisplay | horizontalRule | hardBreak => rfl
    | document each | heading _ each | paragraph each | bulletList each | orderedList _ each
    | listItem each | codeBlock _ each | blockquote each | table each | unknown _ each =>
      rw [withNormalMarks, withNormalMarks, below each rfl]

mutual

/-- The tree with every text run replaced by a text without marks. -/
def withoutMarks (written : String → List Mark → String) : Node → Node
  | .document content => .document (withoutMarksAll written content)
  | .heading level content => .heading level (withoutMarksAll written content)
  | .paragraph content => .paragraph (withoutMarksAll written content)
  | .bulletList items => .bulletList (withoutMarksAll written items)
  | .orderedList start items => .orderedList start (withoutMarksAll written items)
  | .listItem content => .listItem (withoutMarksAll written content)
  | .codeBlock language content => .codeBlock language (withoutMarksAll written content)
  | .blockquote content => .blockquote (withoutMarksAll written content)
  | .table content => .table (withoutMarksAll written content)
  | .mathInline source => .mathInline source
  | .mathDisplay source => .mathDisplay source
  | .horizontalRule => .horizontalRule
  | .hardBreak => .hardBreak
  | .text literal marks => .text (written literal marks) []
  | .unknown kind content => .unknown kind (withoutMarksAll written content)

def withoutMarksAll (written : String → List Mark → String) : List Node → List Node
  | [] => []
  | node :: rest => withoutMarks written node :: withoutMarksAll written rest

end

theorem withoutMarksAll_eq_map (written : String → List Mark → String) (nodes : List Node) :
    withoutMarksAll written nodes = nodes.map (withoutMarks written) := by
  induction nodes with
  | nil => rfl
  | cons node rest ih => rw [withoutMarksAll, ih, List.map_cons]

theorem children_withoutMarks (written : String → List Mark → String) (node : Node) :
    (node.withoutMarks written).children = node.children.map (withoutMarks written) := by
  cases node with
  | mathInline | mathDisplay | horizontalRule | hardBreak | text => rfl
  | document | heading | paragraph | bulletList | orderedList | listItem | codeBlock | blockquote
  | table | unknown => exact withoutMarksAll_eq_map written _

theorem isInlineLeaf_withoutMarks (written : String → List Mark → String) (node : Node) :
    (node.withoutMarks written).isInlineLeaf = node.isInlineLeaf := by
  cases node <;> rfl

/-! ### What has no marks in it -/

theorem plainTexts_eq_join (nodes : List Node) :
    plainTexts nodes = String.join (nodes.map plainText) := by
  induction nodes with
  | nil => rfl
  | cons node rest ih => simp [plainTexts, ih]

theorem blockTextsOf_eq_flatten (nodes : List Node) :
    blockTextsOf nodes = (nodes.map blockTexts).flatten := by
  induction nodes with
  | nil => rfl
  | cons node rest ih => rw [blockTextsOf, ih, List.map_cons, List.flatten_cons]

section

variable {related : List Mark → List Mark → Prop} {node other : Node}

theorem plainText_congr (same : node.UpToMarks related other) :
    node.plainText = other.plainText := by
  induction node using induction_children generalizing other with
  | step node ih =>
    have below {nodes others : List Node} (each : List.Forall₂ (UpToMarks related) nodes others)
        (children : node.children = nodes) :
        plainTexts nodes = plainTexts others := by
      rw [plainTexts_eq_join, plainTexts_eq_join]
      exact congrArg String.join
        (map_eq_of_forall₂ each fun child member other => ih child (children ▸ member))
    cases same with
    | text | mathInline | mathDisplay | horizontalRule | hardBreak => rfl
    | document each | heading _ each | paragraph each | bulletList each | orderedList _ each
    | listItem each | codeBlock _ each | blockquote each | table each | unknown _ each =>
      exact below each rfl

theorem blockTexts_congr (same : node.UpToMarks related other) :
    node.blockTexts = other.blockTexts := by
  induction node using induction_children generalizing other with
  | step node ih =>
    have text := plainText_congr same
    have below {nodes others : List Node} (each : List.Forall₂ (UpToMarks related) nodes others)
        (children : node.children = nodes) :
        blockTextsOf nodes = blockTextsOf others := by
      rw [blockTextsOf_eq_flatten, blockTextsOf_eq_flatten]
      exact congrArg List.flatten
        (map_eq_of_forall₂ each fun child member other => ih child (children ▸ member))
    cases same with
    | table | mathInline | mathDisplay | horizontalRule | hardBreak => rfl
    | text | heading | paragraph | codeBlock => rw [blockTexts, blockTexts, text]
    | document each | bulletList each | orderedList _ each | listItem each | blockquote each
    | unknown _ each =>
      exact below each rfl

end

end Node
end Galley.Document

namespace Galley.Render

open Galley.Document (Node Mark)
open Galley.Markup (Item)

/-! ### Marks in Markdown -/

namespace Markdown

section

variable {change : Node → Node}

theorem inlines_map {nodes : List Node}
    (same : ∀ node ∈ nodes, inline (change node) = inline node) :
    inlines (nodes.map change) = inlines nodes := by
  rw [inlines_eq_join, inlines_eq_join, List.map_map]
  exact congrArg String.join (List.map_congr_left same)

theorem blocks_map {nodes : List Node} (same : ∀ node ∈ nodes, block (change node) = block node) :
    blocks (nodes.map change) = blocks nodes := by
  rw [blocks_eq_join, blocks_eq_join, List.map_map]
  exact congrArg String.join (List.map_congr_left same)

/-- A change of the tree that does not show in the leaves of inline content does not show. -/
theorem inline_change (kept : ∀ node, (change node).isInlineLeaf = node.isInlineLeaf)
    (through : ∀ node, (change node).children = node.children.map change)
    (leaf : ∀ node, node.isInlineLeaf = true → inline (change node) = inline node) (node : Node) :
    inline (change node) = inline node := by
  induction node using Node.induction_children with
  | step node ih =>
    cases container : node.isInlineLeaf with
    | true => exact leaf node container
    | false =>
      rw [inline_of_not_isInlineLeaf container,
        inline_of_not_isInlineLeaf ((kept node).trans container), through, inlines_map ih]

theorem bulletItems_map (same : ∀ node, inline (change node) = inline node) (items : List Node) :
    bulletItems (items.map change) = bulletItems items := by
  induction items with
  | nil => rfl
  | cons item rest ih => rw [List.map_cons, bulletItems, bulletItems, same, ih]

theorem orderedItems_map (same : ∀ node, inline (change node) = inline node) (number : UInt64)
    (items : List Node) :
    orderedItems number (items.map change) = orderedItems number items := by
  induction items generalizing number with
  | nil => rfl
  | cons item rest ih =>
    rw [List.map_cons, orderedItems, orderedItems, orderedItem, orderedItem, same, ih]

end

/-- The order and the repetition of marks are not shown. -/
theorem inline_withNormalMarks (node : Node) : inline node.withNormalMarks = inline node := by
  refine inline_change Node.isInlineLeaf_withNormalMarks Node.children_withNormalMarks ?_ node
  intro node leaf
  rcases node.inline_cases with
    ⟨literal, marks, rfl⟩ | ⟨source, rfl⟩ | ⟨source, rfl⟩ | rfl | container
  · simp [Node.withNormalMarks, inline, textRun, Mark.normalize_normalize]
  · rfl
  · rfl
  · rfl
  · simp [container] at leaf

/-- The order and the repetition of marks are not shown. -/
theorem block_withNormalMarks (node : Node) : block node.withNormalMarks = block node := by
  induction node using Node.induction_children with
  | step node ih =>
    have inside (nodes : List Node) : inlines (nodes.map Node.withNormalMarks) = inlines nodes :=
      inlines_map fun node _ => inline_withNormalMarks node
    cases node with
    | document content | blockquote content =>
      have below : blocks (content.map Node.withNormalMarks) = blocks content := blocks_map ih
      simp only [Node.withNormalMarks, Node.withNormalMarksAll_eq_map, block, below]
    | heading | paragraph | listItem =>
      simp only [Node.withNormalMarks, Node.withNormalMarksAll_eq_map, block, inside]
    | bulletList | orderedList =>
      simp only [Node.withNormalMarks, Node.withNormalMarksAll_eq_map, block,
        bulletItems_map inline_withNormalMarks, orderedItems_map inline_withNormalMarks,
        List.isEmpty_map]
    | codeBlock language content =>
      have text : Node.plainTexts (content.map Node.withNormalMarks) = Node.plainTexts content :=
        Node.plainTexts_map_withNormalMarks fun node _ => node.plainText_withNormalMarks
      rw [Node.withNormalMarks, block, block, Node.withNormalMarksAll_eq_map, text]
    | text literal marks => exact inline_withNormalMarks (.text literal marks)
    | mathInline | mathDisplay | horizontalRule | hardBreak | table | unknown => rfl

mutual

/-- A block with the marks of its text runs written out. The content of a code block shows none. -/
def spelled : Node → Node
  | .document content => .document (spelledAll content)
  | .blockquote content => .blockquote (spelledAll content)
  | .codeBlock language content => .codeBlock language content
  | node => node.withoutMarks spelledRun

def spelledAll : List Node → List Node
  | [] => []
  | node :: rest => spelled node :: spelledAll rest

end

theorem spelledAll_eq_map (nodes : List Node) : spelledAll nodes = nodes.map spelled := by
  induction nodes with
  | nil => rfl
  | cons node rest ih => rw [spelledAll, ih, List.map_cons]

theorem inline_withoutMarks (node : Node) :
    inline (node.withoutMarks spelledRun) = inline node := by
  refine inline_change (Node.isInlineLeaf_withoutMarks spelledRun)
    (Node.children_withoutMarks spelledRun) ?_ node
  intro node leaf
  rcases node.inline_cases with
    ⟨literal, marks, rfl⟩ | ⟨source, rfl⟩ | ⟨source, rfl⟩ | rfl | container
  · exact (textRun_eq_spelledRun literal marks).symm
  · rfl
  · rfl
  · rfl
  · simp [container] at leaf

/-- Every text run, at any depth, is written as its literal inside the delimiters of its marks. -/
theorem block_spelled (node : Node) : block (spelled node) = block node := by
  induction node using Node.induction_children with
  | step node ih =>
    have inside (nodes : List Node) :
        inlines (nodes.map (Node.withoutMarks spelledRun)) = inlines nodes :=
      inlines_map fun node _ => inline_withoutMarks node
    cases node with
    | document content | blockquote content =>
      have below : blocks (content.map spelled) = blocks content := blocks_map ih
      simp only [spelled, spelledAll_eq_map, block, below]
    | heading | paragraph | listItem =>
      simp only [spelled, Node.withoutMarks, Node.withoutMarksAll_eq_map, block, inside]
    | bulletList | orderedList =>
      simp only [spelled, Node.withoutMarks, Node.withoutMarksAll_eq_map, block,
        bulletItems_map inline_withoutMarks, orderedItems_map inline_withoutMarks,
        List.isEmpty_map]
    | text literal marks => exact inline_withoutMarks (.text literal marks)
    | codeBlock | mathInline | mathDisplay | horizontalRule | hardBreak | table | unknown => rfl

end Markdown

/-! ### Marks in fragments -/

namespace Html

theorem markElement_inj {mark other : Mark} (same : markElement mark = markElement other) :
    mark = other := by
  cases mark <;> cases other <;> first | rfl | exact absurd same (by decide)

/-- Wherever the element of a mark begins, marks that are further inside may begin too, each of them
once; then comes one text, and the elements end in the opposite order. -/
def MarksNest (items : List Item) : Prop :=
  ∀ before mark after, items = before ++ .start (markElement mark) :: after →
    ∃ (inner : List Mark) (literal : String) (rest : List Item),
      (mark :: inner).Sublist Mark.nesting ∧
        after = (inner.map fun mark => Item.start (markElement mark)) ++ .named literal ::
          ((mark :: inner).reverse.map fun mark => Item.closing (markElement mark)) ++ rest

theorem marksNest_append {first second : List Item} (here : MarksNest first)
    (later : MarksNest second) : MarksNest (first ++ second) := by
  intro before mark after same
  rcases List.append_eq_append_iff.mp same with ⟨between, rfl, behind⟩ | ⟨between, rfl, behind⟩
  · exact later between mark after behind
  · cases between with
    | nil => exact later [] mark after behind.symm
    | cons item between =>
      obtain ⟨rfl, rfl⟩ := List.cons.inj behind
      obtain ⟨inner, literal, rest, ordered, rfl⟩ := here before mark between rfl
      exact ⟨inner, literal, rest ++ second, ordered, by simp⟩

theorem marksNest_of_not_start {items : List Item}
    (others : ∀ mark, Item.start (markElement mark) ∉ items) : MarksNest items := by
  rintro before mark after rfl
  exact absurd (by simp) (others mark)

theorem marksNest_flatMap {nodes : List Node} {items : Node → List Item}
    (each : ∀ node ∈ nodes, MarksNest (items node)) : MarksNest (nodes.flatMap items) := by
  induction nodes with
  | nil => exact marksNest_of_not_start fun mark => List.not_mem_nil
  | cons node rest ih =>
    rw [List.forall_mem_cons] at each
    rw [List.flatMap_cons]
    exact marksNest_append each.1 (ih each.2)

/-- Marks in nesting order around a text. -/
theorem marksNest_run {run : List Mark} (ordered : run.Sublist Mark.nesting) (literal : String) :
    MarksNest ((run.map fun mark => Item.start (markElement mark)) ++ .named literal ::
      (run.reverse.map fun mark => Item.closing (markElement mark))) := by
  induction run with
  | nil => exact marksNest_of_not_start fun mark => by simp [Item.start, Item.named]
  | cons first run ih =>
    have inside := ih (List.Sublist.trans (List.sublist_cons_self first run) ordered)
    have ends : MarksNest [Item.closing (markElement first)] :=
      marksNest_of_not_start fun mark => by simp [Item.start]
    intro before mark after same
    cases before with
    | nil =>
      obtain ⟨starts, rfl⟩ := List.cons.inj same
      have found : mark = first := markElement_inj (Item.opening.inj starts).1.symm
      subst found
      exact ⟨run, literal, [], ordered, by simp⟩
    | cons item before =>
      simp only [List.map_cons, List.cons_append, List.cons.injEq] at same
      exact marksNest_append inside ends before mark after (by simpa using same.2)

theorem marksNest_textRun (literal : String) (marks : List Mark) :
    MarksNest (textRun literal marks) := by
  have ordered : (Mark.normalize marks).Sublist Mark.nesting := Mark.normalize_sublist marks
  have run := marksNest_run ordered literal
  simpa [textRun, List.map_reverse, Function.comp_def] using run

theorem marksNest_formula (source : String) : MarksNest (formula source) :=
  marksNest_of_not_start fun mark => by simp [formula, Item.start, Item.named]

theorem marksNest_inline (node : Node) : MarksNest (inline node) := by
  induction node using Node.induction_children with
  | step node ih =>
    rcases node.inline_cases with
      ⟨literal, marks, rfl⟩ | ⟨source, rfl⟩ | ⟨source, rfl⟩ | rfl | container
    · exact marksNest_textRun literal marks
    · exact marksNest_formula source
    · exact marksNest_formula source
    · exact marksNest_of_not_start fun mark => by simp [inline, Item.start]
    · rw [inline_of_not_isInlineLeaf container]
      exact marksNest_flatMap ih

theorem marksNest_inlines (nodes : List Node) : MarksNest (inlines nodes) := by
  rw [inlines_eq_flatMap]
  exact marksNest_flatMap fun node _ => marksNest_inline node

theorem marksNest_fixed {items : List Item}
    (others : ∀ name ∈ ["strong", "em", "code"], Item.start name ∉ items) : MarksNest items :=
  marksNest_of_not_start fun mark => others _ (markElement_mem mark)

theorem marksNest_newline : MarksNest [newline] := marksNest_fixed (by decide)

theorem marksNest_element {name : String} (other : name ∉ ["strong", "em", "code"])
    {content : List Item} (inside : MarksNest content) : MarksNest (element name content) := by
  refine marksNest_append (marksNest_append ?_ inside) ?_
  · refine marksNest_fixed fun mark known => ?_
    simpa [Item.start] using fun same : mark = name => other (same ▸ known)
  · exact marksNest_of_not_start fun mark => by simp [Item.start]

theorem marksNest_orderedStart (start : UInt64) : MarksNest [orderedStart start] := by
  unfold orderedStart
  split
  · exact marksNest_fixed (by decide)
  · exact marksNest_of_not_start fun mark => by simp [Item.start]

/-- A code block without a language begins like a run of code. -/
theorem marksNest_code (language : Option String) (text : String) :
    MarksNest [codeStart language, .named text, .closing "code"] := by
  cases language with
  | none =>
    have ordered : [Mark.code].Sublist Mark.nesting := by decide
    exact marksNest_run ordered text
  | some language =>
    exact marksNest_of_not_start fun mark => by simp [codeStart, Item.start, Item.named]

theorem marksNest_listItems (items : List Node) : MarksNest (listItems items) := by
  rw [listItems_eq_flatMap]
  refine marksNest_flatMap fun item _ => ?_
  exact marksNest_append (marksNest_append (marksNest_fixed (by decide))
    (marksNest_element (by decide) (marksNest_inline item))) marksNest_newline

private theorem headings_disjoint_marks :
    ∀ name ∈ ["h1", "h2", "h3", "h4", "h5", "h6"], name ∉ ["strong", "em", "code"] := by
  decide

/-- Whatever the tree, the marks of its fragment nest. -/
theorem marksNest_block (node : Node) : MarksNest (block node) := by
  induction node using Node.induction_children with
  | step node ih =>
    have below : MarksNest (blocks node.children) := by
      rw [blocks_eq_flatMap]
      exact marksNest_flatMap ih
    -- no element of a block has the name of a mark
    cases node with
    | document content => exact below
    | heading level content =>
      have other : "h" ++ toString (headingLevel level) ∉ ["strong", "em", "code"] :=
        headings_disjoint_marks _ (headingElement_mem level)
      exact marksNest_append (marksNest_element other (marksNest_inlines content))
        marksNest_newline
    | paragraph content | listItem content =>
      exact marksNest_append (marksNest_element (by decide) (marksNest_inlines content))
        marksNest_newline
    | bulletList items =>
      rw [block]
      split
      · exact marksNest_fixed (by decide)
      · exact marksNest_append (marksNest_append (marksNest_fixed (by decide))
          (marksNest_listItems items)) (marksNest_fixed (by decide))
    | orderedList start items =>
      rw [block]
      split
      · exact marksNest_fixed (by decide)
      · exact marksNest_append (marksNest_append
          (marksNest_append (marksNest_orderedStart start) marksNest_newline)
          (marksNest_listItems items)) (marksNest_fixed (by decide))
    | codeBlock language content =>
      have opens : MarksNest [Item.start "pre"] := marksNest_fixed (by decide)
      have ends : MarksNest [Item.closing "pre", newline] := marksNest_fixed (by decide)
      exact marksNest_append opens
        (marksNest_append (marksNest_code language (Node.plainTexts content)) ends)
    | blockquote content =>
      exact marksNest_append (marksNest_append (marksNest_fixed (by decide)) below)
        (marksNest_fixed (by decide))
    | table content =>
      rw [block, tablePlaceholder_eq]
      exact marksNest_fixed (by decide)
    | mathInline source => exact marksNest_formula source
    | mathDisplay source =>
      exact marksNest_of_not_start fun mark => by simp [block, newline, Item.start, Item.named]
    | horizontalRule =>
      exact marksNest_of_not_start fun mark => by simp [block, newline, Item.start, Item.named]
    | hardBreak => exact marksNest_of_not_start fun mark => by simp [block, Item.start]
    | text literal marks => exact marksNest_textRun literal marks
    | unknown kind content => exact marksNest_of_not_start fun mark => by simp [block]

end Html

/-! ### The main result -/

theorem render_congr (target : Target) {node other : Node}
    (same : node.UpToMarks Mark.SameSet other) : render target node = render target other := by
  have normal := Node.withNormalMarks_congr same
  cases target with
  | markdown =>
    change Markdown.block node = Markdown.block other
    rw [← Markdown.block_withNormalMarks, normal, Markdown.block_withNormalMarks]
  | html =>
    change Markup.print (Html.block node) = Markup.print (Html.block other)
    rw [← Html.block_withNormalMarks, normal, Html.block_withNormalMarks]

theorem allNumbersFit_congr {related : Node → Node → Prop} {nodes others : List Node}
    (each : List.Forall₂ related nodes others)
    (same : ∀ node ∈ nodes, ∀ other, related node other →
      (Markdown.NumbersFit node ↔ Markdown.NumbersFit other)) :
    Markdown.AllNumbersFit nodes ↔ Markdown.AllNumbersFit others := by
  induction each with
  | nil => rfl
  | cons here _ ih =>
    rw [List.forall_mem_cons] at same
    rw [Markdown.AllNumbersFit, Markdown.AllNumbersFit, same.1 _ here, ih same.2]

/-- A list is numbered in the same way whatever the marks in it. -/
theorem numbersFit_congr {related : List Mark → List Mark → Prop} {node other : Node}
    (same : node.UpToMarks related other) :
    Markdown.NumbersFit node ↔ Markdown.NumbersFit other := by
  induction node using Node.induction_children generalizing other with
  | step node ih =>
    have below {nodes others : List Node}
        (each : List.Forall₂ (Node.UpToMarks related) nodes others)
        (children : node.children = nodes) :
        Markdown.AllNumbersFit nodes ↔ Markdown.AllNumbersFit others :=
      allNumbersFit_congr each fun child member other => ih child (children ▸ member)
    cases same with
    | document each | blockquote each => exact below each rfl
    | orderedList start each =>
      rw [Markdown.NumbersFit, Markdown.NumbersFit, ← List.length_eq_zero_iff,
        ← List.length_eq_zero_iff, each.length_eq]
    | text | heading | paragraph | bulletList | listItem | codeBlock | table | unknown | mathInline
    | mathDisplay | horizontalRule | hardBreak => exact Iff.rfl

theorem render?_congr (target : Target) {node other : Node}
    (same : node.UpToMarks Mark.SameSet other) : render? target node = render? target other := by
  cases target with
  | markdown =>
    have written : Markdown.block node = Markdown.block other := render_congr .markdown same
    refine Option.ext fun text => ?_
    change Markdown.block? node = some text ↔ Markdown.block? other = some text
    rw [Markdown.block?_eq_some_iff, Markdown.block?_eq_some_iff, numbersFit_congr same, written]
  | html => exact congrArg some (render_congr .html same)

theorem render_codeBlock_congr (target : Target) {related : List Mark → List Mark → Prop}
    (language : Option String) {content others : List Node}
    (each : List.Forall₂ (Node.UpToMarks related) content others) :
    render target (.codeBlock language content) = render target (.codeBlock language others) := by
  have text : Node.plainTexts content = Node.plainTexts others := by
    rw [Node.plainTexts_eq_join, Node.plainTexts_eq_join]
    exact congrArg String.join
      (Node.map_eq_of_forall₂ each fun node _ other => Node.plainText_congr)
  cases target with
  | markdown => simp only [render, Markdown.render, Markdown.block, text]
  | html => simp only [render, Html.render, Html.block, text]

/-- **The marks of a text run are a set.** Trees whose text runs have the same sets of marks are
rendered alike, by a build that checks its numbers too. Every run that a tree shows, at whatever
depth, stands in both renderings with its marks written out: bold around italic around code, each
once. In Markdown the tree is written as if every literal stood inside such delimiters already, and
in a fragment nothing else begins where a mark begins. Plain text, leaf blocks and code blocks are
the same for any marks. -/
theorem marks_unordered :
    (∀ target (node other : Node), node.UpToMarks Mark.SameSet other →
      render target node = render target other ∧ render? target node = render? target other) ∧
    (∀ literal marks node, ShowsRun literal marks node →
      (∀ line ∈ Text.splitAt '\n' (Markdown.spelledRun literal marks).toList,
        line <:+: (render .markdown node).toList) ∧
      Html.spelledRun literal marks <:+: Html.block node) ∧
    (∀ node, Markdown.block (Markdown.spelled node) = Markdown.block node) ∧
    (∀ node, Html.MarksNest (Html.block node)) ∧
    ∀ (node other : Node), node.UpToMarks (fun _ _ => True) other →
      node.plainText = other.plainText ∧ node.blockTexts = other.blockTexts ∧
        ∀ target language content others,
          node = .codeBlock language content → other = .codeBlock language others →
          render target node = render target other := by
  refine ⟨fun target _ _ same => ⟨render_congr target same, render?_congr target same⟩,
    fun _ _ _ run => ⟨Markdown.run_infix run, Html.run_infix run⟩, Markdown.block_spelled,
    Html.marksNest_block, fun node other same => ?_⟩
  refine ⟨Node.plainText_congr same, Node.blockTexts_congr same, ?_⟩
  rintro target language content others rfl rfl
  cases same with
  | codeBlock _ each => exact render_codeBlock_congr target language each

/-- Code and bold, in either order and bold twice: in a list item, where the run has a line break,
in a quote of it, and in a code block, where no mark shows. -/
theorem marks_unordered_in_item :
    let list (marks : List Mark) : Node := .bulletList [.listItem [.text "x\ny" marks]]
    let given : List Mark := [.code, .bold, .bold]
    render .markdown (list given) = render .markdown (list [.bold, .code]) ∧
      render .markdown (.blockquote [list given]) = "> - **`x\n> y`**\n\n" ∧
      "**`x".toList <:+: (render .markdown (.blockquote [list given])).toList ∧
      render .html (list given) =
        "<ul>\n  <li><strong><code>x\ny</code></strong></li>\n</ul>\n" ∧
      render .html (.codeBlock none [.text "x" [.bold]]) =
        render .html (.codeBlock none [.text "x" []]) := by
  intro list given
  obtain ⟨alike, shown, -, -, kept⟩ := marks_unordered
  refine ⟨(alike .markdown _ _ ?_).1, by decide, ?_, by decide, ?_⟩
  · refine .bulletList (.cons (.listItem (.cons (.text "x\ny" fun mark => ?_) .nil)) .nil)
    cases mark <;> decide
  · have run : ShowsRun "x\ny" given (.blockquote [list given]) :=
      .block rfl List.mem_cons_self
        (.inline rfl List.mem_cons_self (.inside List.mem_cons_self .text))
    exact (shown _ _ _ run).1 _ (by decide)
  · have block : (Node.codeBlock none [.text "x" [.bold]]).UpToMarks (fun _ _ => True)
        (.codeBlock none [.text "x" []]) :=
      .codeBlock none (.cons (.text "x" trivial) .nil)
    exact (kept _ _ block).2.2 .html none _ _ rfl rfl

end Galley.Render
