import Galley.Document.Node
/-!
# Cases and induction over document trees
-/
namespace Galley.Document.Node

theorem sizeOf_lt_of_mem_children {child node : Node} (member : child ∈ node.children) :
    sizeOf child < sizeOf node := by
  have smaller := List.sizeOf_lt_of_mem member
  cases node with
  | mathInline | mathDisplay | horizontalRule | hardBreak | text => cases member
  | document | heading | paragraph | bulletList | orderedList | listItem | codeBlock | blockquote
  | table | unknown =>
    simp only [children] at smaller
    simp only [document.sizeOf_spec, heading.sizeOf_spec, paragraph.sizeOf_spec,
      bulletList.sizeOf_spec, orderedList.sizeOf_spec, listItem.sizeOf_spec, codeBlock.sizeOf_spec,
      blockquote.sizeOf_spec, table.sizeOf_spec, unknown.sizeOf_spec]
    omega

/-- What holds of a node as soon as it holds of its children holds of every node. -/
@[elab_as_elim] theorem induction_children {motive : Node → Prop}
    (step : ∀ node : Node, (∀ child ∈ node.children, motive child) → motive node)
    (node : Node) : motive node :=
  step node fun child _ => induction_children step child
termination_by sizeOf node
decreasing_by exact sizeOf_lt_of_mem_children ‹child ∈ node.children›

/-- A node with inline content of its own; inside a block every other node counts only by its
children. -/
def isInlineLeaf : Node → Bool
  | .text _ _ | .mathInline _ | .mathDisplay _ | .hardBreak => true
  | _ => false

theorem inline_cases (node : Node) :
    (∃ literal marks, node = .text literal marks) ∨ (∃ source, node = .mathInline source) ∨
      (∃ source, node = .mathDisplay source) ∨ node = .hardBreak ∨ node.isInlineLeaf = false := by
  cases node <;> simp [isInlineLeaf]

mutual

/-- The tree with its literal text, the sources of its formulas and the languages of its code
blocks left out. -/
def withoutText : Node → Node
  | .document content => .document (withoutTexts content)
  | .heading level content => .heading level (withoutTexts content)
  | .paragraph content => .paragraph (withoutTexts content)
  | .bulletList items => .bulletList (withoutTexts items)
  | .orderedList start items => .orderedList start (withoutTexts items)
  | .listItem content => .listItem (withoutTexts content)
  | .codeBlock language content => .codeBlock (language.map fun _ => "") (withoutTexts content)
  | .blockquote content => .blockquote (withoutTexts content)
  | .table content => .table (withoutTexts content)
  | .mathInline _ => .mathInline ""
  | .mathDisplay _ => .mathDisplay ""
  | .horizontalRule => .horizontalRule
  | .hardBreak => .hardBreak
  | .text _ marks => .text "" marks
  | .unknown kind content => .unknown kind (withoutTexts content)

def withoutTexts : List Node → List Node
  | [] => []
  | node :: rest => withoutText node :: withoutTexts rest

end

theorem withoutTexts_eq_map (nodes : List Node) : withoutTexts nodes = nodes.map withoutText := by
  induction nodes with
  | nil => rfl
  | cons node rest ih => rw [withoutTexts, ih, List.map_cons]

theorem children_withoutText (node : Node) :
    node.withoutText.children = node.children.map withoutText := by
  cases node with
  | mathInline | mathDisplay | horizontalRule | hardBreak | text => rfl
  | document | heading | paragraph | bulletList | orderedList | listItem | codeBlock | blockquote
  | table | unknown => exact withoutTexts_eq_map _

theorem isInlineLeaf_withoutText (node : Node) :
    node.withoutText.isInlineLeaf = node.isInlineLeaf := by
  cases node <;> rfl

mutual

/-- The tree with the marks of every text run in nesting order, each once. -/
def withNormalMarks : Node → Node
  | .document content => .document (withNormalMarksAll content)
  | .heading level content => .heading level (withNormalMarksAll content)
  | .paragraph content => .paragraph (withNormalMarksAll content)
  | .bulletList items => .bulletList (withNormalMarksAll items)
  | .orderedList start items => .orderedList start (withNormalMarksAll items)
  | .listItem content => .listItem (withNormalMarksAll content)
  | .codeBlock language content => .codeBlock language (withNormalMarksAll content)
  | .blockquote content => .blockquote (withNormalMarksAll content)
  | .table content => .table (withNormalMarksAll content)
  | .mathInline source => .mathInline source
  | .mathDisplay source => .mathDisplay source
  | .horizontalRule => .horizontalRule
  | .hardBreak => .hardBreak
  | .text literal marks => .text literal (Mark.normalize marks)
  | .unknown kind content => .unknown kind (withNormalMarksAll content)

def withNormalMarksAll : List Node → List Node
  | [] => []
  | node :: rest => withNormalMarks node :: withNormalMarksAll rest

end

theorem withNormalMarksAll_eq_map (nodes : List Node) :
    withNormalMarksAll nodes = nodes.map withNormalMarks := by
  induction nodes with
  | nil => rfl
  | cons node rest ih => rw [withNormalMarksAll, ih, List.map_cons]

theorem children_withNormalMarks (node : Node) :
    node.withNormalMarks.children = node.children.map withNormalMarks := by
  cases node with
  | mathInline | mathDisplay | horizontalRule | hardBreak | text => rfl
  | document | heading | paragraph | bulletList | orderedList | listItem | codeBlock | blockquote
  | table | unknown => exact withNormalMarksAll_eq_map _

theorem isInlineLeaf_withNormalMarks (node : Node) :
    node.withNormalMarks.isInlineLeaf = node.isInlineLeaf := by
  cases node <;> rfl

theorem plainTexts_map_withNormalMarks {nodes : List Node}
    (each : ∀ node ∈ nodes, node.withNormalMarks.plainText = node.plainText) :
    plainTexts (nodes.map withNormalMarks) = plainTexts nodes := by
  induction nodes with
  | nil => rfl
  | cons node rest ih =>
    rw [List.forall_mem_cons] at each
    rw [List.map_cons, plainTexts, plainTexts, each.1, ih each.2]

/-- Marks are no text. -/
theorem plainText_withNormalMarks (node : Node) :
    node.withNormalMarks.plainText = node.plainText := by
  induction node using induction_children with
  | step node ih =>
    have below := plainTexts_map_withNormalMarks ih
    rw [← withNormalMarksAll_eq_map] at below
    cases node with
    | mathInline | mathDisplay | horizontalRule | hardBreak | text => rfl
    | document | heading | paragraph | bulletList | orderedList | listItem | codeBlock | blockquote
    | table | unknown => exact below

/-- A property of every node of a tree. -/
inductive Everywhere (p : Node → Prop) : Node → Prop
  | of {node : Node} (here : p node) (below : ∀ child ∈ node.children, Everywhere p child) :
    Everywhere p node

theorem everywhere_iff {p : Node → Prop} {node : Node} :
    node.Everywhere p ↔ p node ∧ ∀ child ∈ node.children, child.Everywhere p :=
  ⟨fun ⟨here, below⟩ => ⟨here, below⟩, fun ⟨here, below⟩ => .of here below⟩

theorem Everywhere.leaf {p : Node → Prop} {node : Node} (here : p node)
    (bare : node.children = []) : node.Everywhere p := by
  refine .of here fun child member => ?_
  rw [bare] at member
  cases member

end Galley.Document.Node
