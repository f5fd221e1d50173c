import Galley.Document.Node
import Galley.Text.Blank
/-!
# Leaf blocks

Records that keep no structure show a document as its leaf blocks: containers are walked into,
tables and rules are left out, a display formula counts by its source and every other node by its
plain text. Blocks are trimmed, and blank ones are dropped.
-/
namespace Galley.Document.Node

/-- One block, unless it is blank. -/
def block (text : String) : List String :=
  let trimmed := Text.trim text
  if trimmed.isEmpty then [] else [trimmed]

mutual

/-- The texts of the leaf blocks of a node, in document order. -/
def blockTexts : Node → List String
  | .document content => blockTextsOf content
  | .bulletList items => blockTextsOf items
  | .orderedList _ items => blockTextsOf items
  | .listItem content => blockTextsOf content
  | .blockquote content => blockTextsOf content
  | .unknown _ content => blockTextsOf content
  | .table _ => []
  | .horizontalRule => []
  | .mathDisplay source => block source
  | .heading level content => block (plainText (.heading level content))
  | .paragraph content => block (plainText (.paragraph content))
  | .codeBlock language content => block (plainText (.codeBlock language content))
  | .mathInline source => block (plainText (.mathInline source))
  | .hardBreak => block (plainText .hardBreak)
  | .text literal marks => block (plainText (.text literal marks))

/-- The texts of the leaf blocks of several nodes in sequence. -/
def blockTextsOf : List Node → List String
  | [] => []
  | node :: rest => blockTexts node ++ blockTextsOf rest

end

end Galley.Document.Node
