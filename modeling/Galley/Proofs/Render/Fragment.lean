import Galley.Proofs.Basic
import Galley.Proofs.Render.Html
import Galley.Proofs.Text.Split
/-!
# Rendered trees are fragments

What a fragment is, said without the renderer: a text that can be cut into known tags and text with
complete references, whose tags nest according to a content model.

## Main result

`isFragment_render`: every tree renders to a fragment, and the texts in the tree have no influence
on its tags.

The renderer writes item sequences that leave the open elements as they found them (`Neutral`); the
content model only has to be checked once for each kind of node.
-/
namespace Galley.Render.Html

open Galley.Document (Node Mark)
open Galley.Markup (Item Attribute Piece Escaping)

/-! ### The tags of fragments -/

/-- A tag of a fragment. -/
inductive Tag where
  | opening (name : String)
  | closing (name : String)
  | void (name : String)
deriving DecidableEq, Repr

namespace Tag

/-- The tags without attributes, by what they have between their brackets. -/
def plain : List (String × Tag) :=
  plainElements.map (fun name => (name, .opening name)) ++
    ("div" :: plainElements).map (fun name => ("/" ++ name, .closing name)) ++
    [("br /", .void "br"), ("hr /", .void "hr")]

/-- The tags with an attribute: the first number of a list, the language of code, and the class of
a formula of its own. -/
def attributed (name : String) (value : List Char) : Option Tag :=
  if name = "ol start=" ∧ (Text.number? value).isSome then some (.opening "ol")
  else if name = "code class=" ∧ "language-".toList <+: value then some (.opening "code")
  else if name = "div class=" ∧ value = "math-display".toList then some (.opening "div")
  else none

/-- Reads a value between double quotes. -/
def value? (written : List Char) : Option (List Char) :=
  (Markup.decode Markup.namedReferences none (written.map .char)).map
    fun pieces => pieces.filterMap Piece.char?

/-- Reads what a tag has between its brackets: double quotes stand around the value of an attribute
and nowhere else. -/
def read (inside : List Char) : Option Tag :=
  match Text.splitAt '"' inside with
  | [name] => plain.lookup (String.ofList name)
  | [name, written, []] => (value? written).bind (attributed (String.ofList name))
  | _ => none

end Tag

/-- The tags of a text, if it can be read and all of them are known. -/
def tags (text : String) : Option (List Tag) :=
  (Markup.read Markup.namedReferences text).bind fun pieces =>
    (pieces.filterMap Piece.inside?).mapM Tag.read

/-! ### The content model -/

def inlineElements : List String := ["strong", "em", "code", "br"]

def blockElements : List String :=
  ["h1", "h2", "h3", "h4", "h5", "h6", "p", "ul", "ol", "li", "pre", "blockquote", "div", "table",
    "hr"] ++ inlineElements

/-- The elements that may stand directly inside an element. -/
def contents (name : String) : List String :=
  if name = "blockquote" then blockElements
  else if name = "ul" ∨ name = "ol" then ["li"]
  else if name = "pre" then ["code"]
  else if name = "table" then ["tr"]
  else if name = "tr" then ["th", "td"]
  else if name ∈ ["h1", "h2", "h3", "h4", "h5", "h6", "p", "li", "strong", "em", "code"] then
    inlineElements
  else []

/-- The elements that may come next inside the open ones, the innermost of which comes first. -/
def allowed : List String → List String
  | [] => blockElements
  | name :: _ => contents name

/-- Tags close the elements that are open, last in first out, and every element stands where the
content model allows it. -/
def Nests : List String → List Tag → Prop
  | stack, [] => stack = []
  | stack, .opening name :: rest => name ∈ allowed stack ∧ Nests (name :: stack) rest
  | stack, .void name :: rest => name ∈ allowed stack ∧ Nests stack rest
  | [], .closing _ :: _ => False
  | name :: stack, .closing other :: rest => name = other ∧ Nests stack rest

instance decidableNests : (stack : List String) → (found : List Tag) →
    Decidable (Nests stack found)
  | stack, [] => inferInstanceAs (Decidable (stack = []))
  | stack, .opening name :: rest =>
    have := decidableNests (name :: stack) rest
    inferInstanceAs (Decidable (name ∈ allowed stack ∧ Nests (name :: stack) rest))
  | stack, .void name :: rest =>
    have := decidableNests stack rest
    inferInstanceAs (Decidable (name ∈ allowed stack ∧ Nests stack rest))
  | [], .closing _ :: _ => inferInstanceAs (Decidable False)
  | name :: stack, .closing other :: rest =>
    have := decidableNests stack rest
    inferInstanceAs (Decidable (name = other ∧ Nests stack rest))

/-- A text made of known tags that nest and of text with complete references. -/
def IsFragment (text : String) : Prop := ∃ found, tags text = some found ∧ Nests [] found

/-- What a tag has between its brackets without the values of its attributes. -/
def outline (inside : List Char) : List (List Char) :=
  unquoted (Text.splitAt '"' inside)
where
  /-- Of the pieces between quotes, those outside of them. -/
  unquoted : List (List Char) → List (List Char)
    | [] => []
    | [last] => [last]
    | outer :: _ :: rest => outer :: unquoted rest

/-- The tags of a text without the values of their attributes. -/
def outlines (text : String) : Option (List (List (List Char))) :=
  (Markup.read Markup.namedReferences text).map fun pieces =>
    (pieces.filterMap Piece.inside?).map outline

/-! ### The tags of items -/

/-- The tag of an item, if it is not a text. -/
def tag? : Item → Option Tag
  | .opening name _ => some (.opening name)
  | .closing name => some (.closing name)
  | .void name => some (.void name)
  | .text _ => none

private theorem read_plain :
    ∀ name ∈ plainElements, Tag.read name.toList = some (.opening name) ∧
      Tag.read ('/' :: name.toList) = some (.closing name) := by
  decide

private theorem read_attributed {name : String} {value : List Char} (clean : '"' ∉ name.toList) :
    Tag.read (name.toList ++ '"' :: (value.flatMap Escaping.named.char ++ ['"'])) =
      Tag.attributed name value := by
  have quoted := Markup.not_mem_written_named value '"' (by decide)
  have shown : Tag.value? (value.flatMap Escaping.named.char) = some value := by
    have decoded := Markup.decode_written Markup.fits_named value []
    rw [List.append_nil] at decoded
    simp [Tag.value?, decoded, Markup.decode, Piece.char?, Function.comp_def]
  rw [Tag.read, Text.splitAt_append clean, Text.splitAt_append quoted]
  simp [Text.splitAt, shown]

theorem read_of_isFragmentItem {item : Item} (known : IsFragmentItem item) {inside : List Char}
    (found : item.inside? = some inside) : Tag.read inside = tag? item := by
  cases known with
  | text => cases found
  | start known =>
    cases found
    simpa [tag?, Item.start] using (read_plain _ known).1
  | closing known =>
    cases found
    simpa [tag?] using (read_plain _ known).2
  | void known =>
    cases found
    simp only [List.mem_cons, List.not_mem_nil, or_false] at known
    rcases known with rfl | rfl <;> decide
  | display | displayEnd => cases found; decide
  | list start =>
    rw [Item.inside?_opening_valued] at found
    cases found
    have number : (Text.number? (toString start.toNat).toList).isSome := by
      rw [Nat.toString_eq_repr, Text.number?_repr]
      rfl
    -- the equals sign belongs to what stands in front of the quote
    change Tag.read ("ol start=".toList ++ '"' :: _) = _
    rw [read_attributed (by decide), Tag.attributed, if_pos ⟨rfl, number⟩]
    rfl
  | code language =>
    rw [Item.inside?_opening_valued] at found
    cases found
    have prefixed : "language-".toList <+: ("language-" ++ language).toList := by simp
    change Tag.read ("code class=".toList ++ '"' :: _) = _
    rw [read_attributed (by decide), Tag.attributed, if_neg (by simp), if_pos ⟨rfl, prefixed⟩]
    rfl

/-- Items of fragments have known tags, and only these. -/
theorem read_insides {items : List Item} (known : AllFragmentItems items) :
    (items.filterMap Item.inside?).mapM Tag.read = some (items.filterMap tag?) := by
  induction items with
  | nil => rfl
  | cons item rest ih =>
    rw [allFragmentItems_cons] at known
    cases found : item.inside? with
    | none =>
      have untagged : tag? item = none := by cases item <;> first | rfl | cases found
      rw [List.filterMap_cons_none found, List.filterMap_cons_none untagged]
      exact ih known.2
    | some inside =>
      have read := read_of_isFragmentItem known.1 found
      obtain ⟨tag, tagged⟩ : ∃ tag, tag? item = some tag := by
        cases item with
        | text => cases found
        | opening | closing | void => exact ⟨_, rfl⟩
      rw [List.filterMap_cons_some found, List.filterMap_cons_some tagged, List.mapM_cons, read,
        tagged, ih known.2]
      rfl

/-! ### Nesting -/

/-- Items that may stand inside the open elements and leave them as they found them. -/
def Neutral (stack : List String) (items : List Item) : Prop :=
  ∀ rest, Nests stack rest → Nests stack (items.filterMap tag? ++ rest)

section

variable {stack : List String}

theorem neutral_nil : Neutral stack [] := fun _ nests => nests

theorem neutral_append {first second : List Item} (left : Neutral stack first)
    (right : Neutral stack second) : Neutral stack (first ++ second) := by
  intro rest nests
  rw [List.filterMap_append, List.append_assoc]
  exact left _ (right rest nests)

theorem neutral_flatMap {nodes : List Node} {items : Node → List Item}
    (each : ∀ node ∈ nodes, Neutral stack (items node)) :
    Neutral stack (nodes.flatMap items) := by
  induction nodes with
  | nil => exact neutral_nil
  | cons node nodes ih =>
    rw [List.forall_mem_cons] at each
    exact neutral_append each.1 (ih each.2)

theorem neutral_named (text : String) : Neutral stack [.named text] := fun _ nests => nests

theorem neutral_newline : Neutral stack [newline] := neutral_named "\n"

theorem neutral_void {name : String} (fits : name ∈ allowed stack) :
    Neutral stack [.void name] :=
  fun _ nests => ⟨fits, nests⟩

theorem neutral_enclosed {name : String} (attributes : List Attribute) {content : List Item}
    (fits : name ∈ allowed stack) (inside : Neutral (name :: stack) content) :
    Neutral stack (.opening name attributes :: (content ++ [.closing name])) := by
  intro rest nests
  have closed : Nests (name :: stack) (.closing name :: rest) := ⟨rfl, nests⟩
  have tagged : (Item.opening name attributes :: (content ++ [.closing name])).filterMap tag? =
      .opening name :: (content.filterMap tag? ++ [.closing name]) := by
    simp [tag?]
  rw [tagged, List.cons_append, List.append_assoc]
  exact ⟨fits, inside _ closed⟩

theorem neutral_element {name : String} {content : List Item} (fits : name ∈ allowed stack)
    (inside : Neutral (name :: stack) content) : Neutral stack (element name content) := by
  simpa [element, Item.start] using neutral_enclosed [] fits inside

theorem neutral_formula (source : String) : Neutral stack (formula source) :=
  fun _ nests => nests

/-- Marks nest inside each other, whatever their order and number. -/
private theorem neutral_marked {elements : List String}
    (marked : ∀ name ∈ elements, name ∈ ["strong", "em", "code"])
    (fits : inlineElements ⊆ allowed stack) (literal : String) :
    Neutral stack
      (elements.map Item.start ++ [Item.named literal] ++ elements.reverse.map Item.closing) := by
  -- the first mark encloses all others, which then stand one element deeper
  induction elements generalizing stack with
  | nil => exact neutral_named literal
  | cons name elements ih =>
    rw [List.forall_mem_cons] at marked
    have inline : name ∈ inlineElements ∧ contents name = inlineElements :=
      (by decide : ∀ name ∈ ["strong", "em", "code"],
        name ∈ inlineElements ∧ contents name = inlineElements) name marked.1
    have deeper : inlineElements ⊆ allowed (name :: stack) := by
      rw [allowed, inline.2]
      exact List.Subset.refl _
    simpa [element] using neutral_element (fits inline.1) (ih marked.2 deeper)

theorem neutral_inline (node : Node) (fits : inlineElements ⊆ allowed stack) :
    Neutral stack (inline node) := by
  induction node using Node.induction_children with
  | step node ih =>
    rcases node.inline_cases with
      ⟨literal, marks, rfl⟩ | ⟨source, rfl⟩ | ⟨source, rfl⟩ | rfl | container
    · refine neutral_marked ?_ fits literal
      intro name member
      obtain ⟨mark, -, rfl⟩ := List.mem_map.mp member
      exact markElement_mem mark
    · exact neutral_formula source
    · exact neutral_formula source
    · exact neutral_void (fits (by decide))
    · rw [inline_of_not_isInlineLeaf container]
      exact neutral_flatMap ih

theorem neutral_inlines (nodes : List Node) (fits : inlineElements ⊆ allowed stack) :
    Neutral stack (inlines nodes) := by
  rw [inlines_eq_flatMap]
  exact neutral_flatMap fun node _ => neutral_inline node fits

/-- Inline content inside an element that takes nothing else, and the end of the line. -/
private theorem neutral_line {name : String} (fits : name ∈ allowed stack)
    (takes : contents name = inlineElements) (nodes : List Node) :
    Neutral stack (element name (inlines nodes) ++ [newline]) := by
  have inside : inlineElements ⊆ allowed (name :: stack) := by
    rw [allowed, takes]
    exact List.Subset.refl _
  exact neutral_append (neutral_element fits (neutral_inlines nodes inside)) neutral_newline

theorem neutral_listItems (items : List Node) (fits : "li" ∈ allowed stack) :
    Neutral stack (listItems items) := by
  rw [listItems_eq_flatMap]
  refine neutral_flatMap fun item _ => ?_
  have inside : inlineElements ⊆ allowed ("li" :: stack) := List.Subset.refl _
  have line := neutral_element fits (neutral_inline item inside)
  exact neutral_append (neutral_append (neutral_named "  ") line) neutral_newline

private theorem neutral_list {name : String} {attributes : List Attribute}
    (fits : name ∈ allowed stack) (takes : contents name = ["li"]) (items : List Node) :
    Neutral stack ([.opening name attributes, newline] ++ listItems items ++
      [.closing name, newline]) := by
  have member : "li" ∈ allowed (name :: stack) := by simp [allowed, takes]
  have inside := neutral_append neutral_newline (neutral_listItems items member)
  have list := neutral_append (neutral_enclosed attributes fits inside) neutral_newline
  simpa using list

private theorem neutral_tablePlaceholder (fits : "table" ∈ allowed stack) :
    Neutral stack tablePlaceholder := by
  intro rest nests
  -- the tags of the table with the texts between them left out
  have shape : Nests stack (.opening "table" ::
      [.opening "tr", .opening "th", .closing "th", .opening "th", .closing "th", .closing "tr",
        .opening "tr", .opening "td", .closing "td", .opening "td", .closing "td", .closing "tr",
        .closing "table"] ++ rest) := by
    refine ⟨fits, ?_⟩
    simp [Nests, allowed, contents, nests]
  exact shape

/-- Blocks may stand where all elements of blocks may, and leave the open elements as they are. -/
theorem neutral_block (node : Node) (fits : blockElements ⊆ allowed stack) :
    Neutral stack (block node) := by
  -- the children of a quote stand inside other open elements than the quote itself
  induction node using Node.induction_children generalizing stack with
  | step node ih =>
    have inline : inlineElements ⊆ allowed stack := fun name member =>
      fits (List.mem_append_right _ member)
    have below {stack : List String} (fits : blockElements ⊆ allowed stack) :
        Neutral stack (blocks node.children) := by
      rw [blocks_eq_flatMap]
      exact neutral_flatMap fun child member => ih child member fits
    cases node with
    | document content => exact below fits
    | heading level content =>
      have known := headingElement_mem level
      have takes := (by decide : ∀ name ∈ ["h1", "h2", "h3", "h4", "h5", "h6"],
        name ∈ blockElements ∧ contents name = inlineElements) _ known
      exact neutral_line (fits takes.1) takes.2 content
    | paragraph content => exact neutral_line (fits (by decide)) rfl content
    | listItem content => exact neutral_line (fits (by decide)) rfl content
    | bulletList items =>
      rw [block]
      split
      · exact neutral_nil
      · exact neutral_list (fits (by decide)) rfl items
    | orderedList start items =>
      rw [block]
      split
      · exact neutral_nil
      · unfold orderedStart
        split
        · exact neutral_list (fits (by decide)) rfl items
        · exact neutral_list (fits (by decide)) rfl items
    | codeBlock language content =>
      have takes : "code" ∈ contents "pre" := by decide
      have code : Neutral ("pre" :: stack)
          (codeStart language :: ([.named (Node.plainTexts content)] ++ [.closing "code"])) := by
        cases language with
        | none => exact neutral_enclosed _ takes (neutral_named _)
        | some language => exact neutral_enclosed _ takes (neutral_named _)
      have pre := neutral_element (fits (by decide)) code
      simpa [block, element] using neutral_append pre neutral_newline
    | blockquote content =>
      have takes : blockElements ⊆ allowed ("blockquote" :: stack) := List.Subset.refl _
      have inside := neutral_append neutral_newline (below takes)
      have quote := neutral_element (fits (by decide)) inside
      simpa [block, element, Node.children] using neutral_append quote neutral_newline
    | table content => exact neutral_tablePlaceholder (fits (by decide))
    | mathInline source => exact neutral_formula source
    | mathDisplay source =>
      intro rest nests
      exact ⟨fits (by decide), rfl, nests⟩
    | horizontalRule => exact neutral_append (neutral_void (fits (by decide))) neutral_newline
    | hardBreak => exact neutral_void (fits (by decide))
    | text literal marks =>
      exact neutral_inline (.text literal marks) inline
    | unknown kind content => exact neutral_nil

end

/-! ### What the texts of a tree cannot change -/

/-- The tags of items without the values of their attributes. -/
def itemOutlines (items : List Item) : List (List (List Char)) :=
  (items.filterMap Item.inside?).map outline

theorem itemOutlines_append (first second : List Item) :
    itemOutlines (first ++ second) = itemOutlines first ++ itemOutlines second := by
  simp [itemOutlines]

theorem itemOutlines_flatMap_withoutText {nodes : List Node} {items : Node → List Item}
    (each : ∀ node ∈ nodes, itemOutlines (items node) = itemOutlines (items node.withoutText)) :
    itemOutlines (nodes.flatMap items) =
      itemOutlines ((nodes.map Node.withoutText).flatMap items) := by
  induction nodes with
  | nil => rfl
  | cons node rest ih =>
    rw [List.forall_mem_cons] at each
    simp only [List.map_cons, List.flatMap_cons, itemOutlines_append, each.1, ih each.2]

theorem itemOutlines_textRun (literal other : String) (marks : List Mark) :
    itemOutlines (textRun literal marks) = itemOutlines (textRun other marks) := by
  simp only [textRun, itemOutlines_append]
  rfl

theorem itemOutlines_inline_withoutText (node : Node) :
    itemOutlines (inline node) = itemOutlines (inline node.withoutText) := by
  induction node using Node.induction_children with
  | step node ih =>
    rcases node.inline_cases with
      ⟨literal, marks, rfl⟩ | ⟨source, rfl⟩ | ⟨source, rfl⟩ | rfl | container
    · exact itemOutlines_textRun literal "" marks
    · rfl
    · rfl
    · rfl
    · -- without its texts the node is a container still
      have bare := node.isInlineLeaf_withoutText.trans container
      rw [inline_of_not_isInlineLeaf container, inline_of_not_isInlineLeaf bare,
        Node.children_withoutText]
      exact itemOutlines_flatMap_withoutText ih

private theorem itemOutlines_inlines_withoutTexts (nodes : List Node) :
    itemOutlines (inlines nodes) = itemOutlines (inlines (Node.withoutTexts nodes)) := by
  rw [inlines_eq_flatMap, inlines_eq_flatMap, Node.withoutTexts_eq_map]
  exact itemOutlines_flatMap_withoutText fun node _ => itemOutlines_inline_withoutText node

private theorem itemOutlines_listItems_withoutTexts (items : List Node) :
    itemOutlines (listItems items) = itemOutlines (listItems (Node.withoutTexts items)) := by
  rw [listItems_eq_flatMap, listItems_eq_flatMap, Node.withoutTexts_eq_map]
  refine itemOutlines_flatMap_withoutText fun item _ => ?_
  simp only [listLine, element, itemOutlines_append, itemOutlines_inline_withoutText item]

/-- The outline of the tag that names the language of code does not depend on the language. -/
private theorem itemOutlines_codeStart (language : Option String) :
    itemOutlines [codeStart language] =
      itemOutlines [codeStart (language.map fun _ => "")] := by
  have shape (language : String) :
      itemOutlines [codeStart (some language)] = [["code class=".toList, []]] := by
    have quoted := Markup.not_mem_written_named ("language-" ++ language).toList '"' (by decide)
    rw [itemOutlines, codeStart, List.filterMap_cons_some (Item.inside?_opening_valued _ _ _ _)]
    change [outline ("code class=".toList ++ '"' :: _)] = _
    rw [outline, Text.splitAt_append (by decide), Text.splitAt_append quoted]
    rfl
  cases language with
  | none => rfl
  | some language => rw [Option.map_some, shape, shape]

theorem itemOutlines_block_withoutText (node : Node) :
    itemOutlines (block node) = itemOutlines (block node.withoutText) := by
  induction node using Node.induction_children with
  | step node ih =>
    have below : itemOutlines (blocks node.children) =
        itemOutlines (blocks (Node.withoutTexts node.children)) := by
      rw [blocks_eq_flatMap, blocks_eq_flatMap, Node.withoutTexts_eq_map]
      exact itemOutlines_flatMap_withoutText ih
    cases node with
    | document content => exact below
    | heading _ content | paragraph content | listItem content =>
      simp only [Node.withoutText, block, element, itemOutlines_append,
        itemOutlines_inlines_withoutTexts content]
    | bulletList items | orderedList _ items =>
      have empty : (Node.withoutTexts items).isEmpty = items.isEmpty := by
        cases items <;> rfl
      simp only [Node.withoutText, block, empty]
      split
      · rfl
      · simp only [itemOutlines_append, itemOutlines_listItems_withoutTexts items]
    | codeBlock language content =>
      -- the text inside has no tags, whatever it is
      have split (language : Option String) (text : String) :
          itemOutlines [.start "pre", codeStart language, .named text, .closing "code",
              .closing "pre", newline] =
            itemOutlines [.start "pre"] ++ itemOutlines [codeStart language] ++
              itemOutlines [.closing "code", .closing "pre"] := by
        rw [← itemOutlines_append, ← itemOutlines_append]
        cases language <;> rfl
      rw [Node.withoutText, block, block, split, split, itemOutlines_codeStart language]
    | blockquote content =>
      have inside : itemOutlines (blocks content) =
          itemOutlines (blocks (Node.withoutTexts content)) := below
      simp only [Node.withoutText, block, itemOutlines_append, inside]
    | table content => rfl
    | mathInline | mathDisplay | horizontalRule | hardBreak | unknown => rfl
    | text literal marks => exact itemOutlines_textRun literal "" marks

/-! ### Rendered trees -/

/-- **Rendered trees are fragments**: only known tags, nested as the content model allows, and text
with complete references. The texts, formulas and languages in the tree leave every tag as it is. -/
theorem isFragment_render (node : Node) (lang : String) :
    IsFragment ((Renderer.mk .html lang).render node) ∧
      outlines ((Renderer.mk .html lang).render node) =
        outlines ((Renderer.mk .html lang).render node.withoutText) := by
  -- both halves speak of the items, which the reader gets back from the fragment
  have found (node : Node) : outlines (render node) = some (itemOutlines (block node)) := by
    rw [outlines, read_render, Option.map_some, Item.filterMap_inside?_pieces]
    rfl
  constructor
  · refine ⟨(block node).filterMap tag?, ?_, ?_⟩
    · change (Markup.read _ (render node)).bind _ = _
      rw [read_render, Option.bind_some, Item.filterMap_inside?_pieces]
      exact read_insides (allFragmentItems_block node)
    · have nests := neutral_block node (List.Subset.refl _ : _ ⊆ allowed []) [] rfl
      rwa [List.append_nil] at nests
  · change outlines (render node) = outlines (render node.withoutText)
    rw [found, found, itemOutlines_block_withoutText]

example : tags "<p>1 &lt; 2<br /></p>" = some [.opening "p", .void "br", .closing "p"] := by decide

example : tags "<p>1 < 2</p>" = none := by decide

example : ¬ Nests [] [.opening "li", .opening "p", .closing "p", .closing "li"] := by decide

end Galley.Render.Html
