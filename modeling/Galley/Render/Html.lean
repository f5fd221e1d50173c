import Galley.Document.Node
import Galley.Markup.Item
/-!
# Documents as HTML fragments

A tree becomes a sequence of tags and texts. Blocks stand on lines of their own. Inside a block only
inline content counts: text runs, formulas and breaks; every other node contributes the inline
content of its children. Tables are shown by a placeholder.
-/
namespace Galley.Render

/-- The level a heading is shown at, in any syntax: from one to six. -/
def headingLevel (level : UInt8) : Nat := max 1 (min 6 level.toNat)

theorem one_le_headingLevel (level : UInt8) : 1 ≤ headingLevel level := by
  unfold headingLevel; omega

theorem headingLevel_le_six (level : UInt8) : headingLevel level ≤ 6 := by
  unfold headingLevel; omega

namespace Html

open Galley.Document (Node Mark)
open Galley.Markup (Item Attribute)

/-- The element of a mark. -/
def markElement : Mark → String
  | .bold => "strong"
  | .italic => "em"
  | .code => "code"

/-- A text run inside the elements of its marks. -/
def textRun (literal : String) (marks : List Mark) : List Item :=
  let elements := (Mark.normalize marks).map markElement
  elements.map Item.start ++ [Item.named literal] ++ elements.reverse.map Item.closing

/-- A formula between dollar signs. -/
def formula (source : String) : List Item :=
  [Item.named "$", Item.named source, Item.named "$"]

mutual

/-- The inline content of a node. -/
def inline : Node → List Item
  | .text literal marks => textRun literal marks
  | .mathInline source => formula source
  | .mathDisplay source => formula source
  | .hardBreak => [.void "br"]
  | .document content => inlines content
  | .heading _ content => inlines content
  | .paragraph content => inlines content
  | .bulletList items => inlines items
  | .orderedList _ items => inlines items
  | .listItem content => inlines content
  | .codeBlock _ content => inlines content
  | .blockquote content => inlines content
  | .table content => inlines content
  | .unknown _ content => inlines content
  | .horizontalRule => []

/-- The inline content of several nodes in sequence. -/
def inlines : List Node → List Item
  | [] => []
  | node :: rest => inline node ++ inlines rest

end

/-- An element around items. -/
def element (name : String) (content : List Item) : List Item :=
  [Item.start name] ++ content ++ [.closing name]

/-- The end of a line. -/
def newline : Item := .named "\n"

/-- The items of a list, one on a line. -/
def listItems : List Node → List Item
  | [] => []
  | item :: rest => [.named "  "] ++ element "li" (inline item) ++ [newline] ++ listItems rest

/-- The opening tag of an ordered list; numbering from one is not stated. -/
def orderedStart (start : UInt64) : Item :=
  if start = 1 then .start "ol"
  else .opening "ol" [.valued "start" .named (toString start.toNat)]

/-- The opening tag of a code block's content. -/
def codeStart : Option String → Item
  | some language => .opening "code" [.valued "class" .named ("language-" ++ language)]
  | none => .start "code"

private def tableRow (cell first second : String) : List Item :=
  [.named "  "] ++
    element "tr" (element cell [.named first] ++ element cell [.named second]) ++ [newline]

/-- What is shown for any table. -/
def tablePlaceholder : List Item :=
  [.start "table", newline] ++ tableRow "th" "Column 1" "Column 2" ++
    tableRow "td" "Cell 1" "Cell 2" ++
    [.closing "table", newline]

mutual

/-- A node as a block. -/
def block : Node → List Item
  | .document content => blocks content
  | .heading level content =>
    element ("h" ++ toString (headingLevel level)) (inlines content) ++ [newline]
  | .paragraph content => element "p" (inlines content) ++ [newline]
  | .bulletList items =>
    if items.isEmpty then []
    else [.start "ul", newline] ++ listItems items ++ [.closing "ul", newline]
  | .orderedList start items =>
    if items.isEmpty then []
    else [orderedStart start, newline] ++ listItems items ++ [.closing "ol", newline]
  | .listItem content => element "li" (inlines content) ++ [newline]
  | .codeBlock language content =>
    [.start "pre", codeStart language, .named (Node.plainTexts content), .closing "code",
      .closing "pre", newline]
  | .blockquote content =>
    [.start "blockquote", newline] ++ blocks content ++ [.closing "blockquote", newline]
  | .table _ => tablePlaceholder
  | .mathInline source => formula source
  | .mathDisplay source =>
    [.opening "div" [.fixed "class" "math-display"], .named "$$", .named source, .named "$$",
      .closing "div", newline]
  | .horizontalRule => [.void "hr", newline]
  | .hardBreak => [.void "br"]
  | .text literal marks => textRun literal marks
  | .unknown _ _ => []

/-- Several nodes as blocks in sequence. -/
def blocks : List Node → List Item
  | [] => []
  | node :: rest => block node ++ blocks rest

end

/-- A tree as an HTML fragment. -/
def render (node : Node) : String := Markup.print (block node)

end Html
end Galley.Render
