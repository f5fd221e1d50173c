import Galley.Document.Mark
/-!
# The document tree

A document is a tree of typed nodes. Only text nodes carry literal text and marks, math nodes carry
their source, and all other nodes that are not bare carry children.
-/
namespace Galley.Document

/-- A node of a document tree. -/
inductive Node where
  | document (content : List Node)
  | heading (level : UInt8) (content : List Node)
  | paragraph (content : List Node)
  | bulletList (items : List Node)
  | orderedList (start : UInt64) (items : List Node)
  | listItem (content : List Node)
  | codeBlock (language : Option String) (content : List Node)
  | blockquote (content : List Node)
  | table (content : List Node)
  | mathInline (source : String)
  | mathDisplay (source : String)
  | horizontalRule
  | hardBreak
  | text (literal : String) (marks : List Mark)
  /-- A node of a kind that is not known, or without a kind. -/
  | unknown (kind : Option String) (content : List Node)
deriving Repr

namespace Node

/-- The children of a node, in document order. -/
def children : Node → List Node
  | .document content => content
  | .heading _ content => content
  | .paragraph content => content
  | .bulletList items => items
  | .orderedList _ items => items
  | .listItem content => content
  | .codeBlock _ content => content
  | .blockquote content => content
  | .table content => content
  | .unknown _ content => content
  | .mathInline _ => []
  | .mathDisplay _ => []
  | .horizontalRule => []
  | .hardBreak => []
  | .text _ _ => []

/-- The name of a node's kind, as it is written. -/
def kindName : Node → String
  | .document _ => "doc"
  | .heading _ _ => "heading"
  | .paragraph _ => "paragraph"
  | .bulletList _ => "bulletList"
  | .orderedList _ _ => "orderedList"
  | .listItem _ => "listItem"
  | .codeBlock _ _ => "codeBlock"
  | .blockquote _ => "blockquote"
  | .table _ => "table"
  | .mathInline _ => "mathInline"
  | .mathDisplay _ => "mathDisplay"
  | .horizontalRule => "horizontalRule"
  | .hardBreak => "hardBreak"
  | .text _ _ => "text"
  | .unknown kind _ => kind.getD ""

/-! ### Plain text -/

mutual

/-- The literal text below a node, marks ignored; a hard break is a line feed. -/
def plainText : Node → String
  | .text literal _ => literal
  | .hardBreak => "\n"
  | .document content => plainTexts content
  | .heading _ content => plainTexts content
  | .paragraph content => plainTexts content
  | .bulletList items => plainTexts items
  | .orderedList _ items => plainTexts items
  | .listItem content => plainTexts content
  | .codeBlock _ content => plainTexts content
  | .blockquote content => plainTexts content
  | .table content => plainTexts content
  | .unknown _ content => plainTexts content
  | .mathInline _ => ""
  | .mathDisplay _ => ""
  | .horizontalRule => ""

/-- The literal text of several nodes in sequence. -/
def plainTexts : List Node → String
  | [] => ""
  | node :: rest => plainText node ++ plainTexts rest

end

end Node
end Galley.Document
