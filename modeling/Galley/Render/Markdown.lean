import Galley.Render.Html
import Galley.Text.Blank
import Galley.Text.Lines
/-!
# Documents as Markdown

Blocks end in an empty line. Inside a block only inline content counts, as in the HTML rendering.
Literal text is written as it is. A block quote prefixes every line of its content, so quotes nest.

The items of an ordered list are counted in 64 bits. Where the count goes beyond them, it goes on
from zero in one build of the renderer; in another build, which checks its arithmetic, rendering
breaks off.
-/
namespace Galley.Render.Markdown

open Galley.Document (Node Mark)

/-- What is written on both sides of a marked run. -/
def delimiter : Mark → String
  | .bold => "**"
  | .italic => "*"
  | .code => "`"

/-- A text run between the delimiters of its marks, the outermost mark first. -/
def textRun (literal : String) (marks : List Mark) : String :=
  (Mark.normalize marks).foldr (fun mark run => delimiter mark ++ run ++ delimiter mark) literal

/-- A formula between dollar signs. -/
def formula (source : String) : String := "$" ++ source ++ "$"

/-- A line break inside a block. -/
def lineBreak : String := "\\\n"

mutual

/-- The inline content of a node. -/
def inline : Node → String
  | .text literal marks => textRun literal marks
  | .mathInline source => formula source
  | .mathDisplay source => formula source
  | .hardBreak => lineBreak
  | .document content => inlines content
  | .heading _ content => inlines content
  | .paragraph content => inlines content
  | .bulletList items => inlines items
  | .orderedList _ items => inlines items
  | .listItem content => inlines content
  | .codeBlock _ content => inlines content
  | .blockquote content => inlines content
  | .table content => inlines content
  | .unknown _ content => inlines content
  | .horizontalRule => ""

/-- The inline content of several nodes in sequence. -/
def inlines : List Node → String
  | [] => ""
  | node :: rest => inline node ++ inlines rest

end

/-- The items of a bullet list, one on a line. -/
def bulletItems : List Node → String
  | [] => ""
  | item :: rest => "- " ++ inline item ++ "\n" ++ bulletItems rest

/-- An item of an ordered list. -/
def orderedItem (number : UInt64) (item : Node) : String :=
  toString number.toNat ++ ". " ++ inline item ++ "\n"

/-- The items of an ordered list, numbered from `number` on. -/
def orderedItems (number : UInt64) : List Node → String
  | [] => ""
  | item :: rest => orderedItem number item ++ orderedItems (number + 1) rest

/-- A line inside a block quote. -/
def quoteLine (line : String) : String :=
  if line.isEmpty then ">\n" else "> " ++ line ++ "\n"

/-- A text as a block quote. The line feeds at its end are dropped first. -/
def quote (inner : String) : String :=
  let kept := String.ofList (Text.dropEndWhile (· == '\n') inner.toList)
  String.join ((Text.splitOnChar '\n' kept).map quoteLine) ++ "\n"

/-- What is shown for any table. -/
def tablePlaceholder : String :=
  "\n| Column 1 | Column 2 |\n|----------|----------|\n| Cell 1   | Cell 2   |\n\n"

mutual

/-- A node as a block. -/
def block : Node → String
  | .document content => blocks content
  | .heading level content =>
    String.ofList (List.replicate (headingLevel level) '#') ++ " " ++ inlines content ++ "\n\n"
  | .paragraph content => inlines content ++ "\n\n"
  | .bulletList items => if items.isEmpty then "" else bulletItems items ++ "\n"
  | .orderedList start items =>
    if items.isEmpty then "" else orderedItems start items ++ "\n"
  | .listItem content => "- " ++ inlines content ++ "\n"
  | .codeBlock language content =>
    "```" ++ language.getD "" ++ "\n" ++ Node.plainTexts content ++ "\n```\n\n"
  | .blockquote content => quote (blocks content)
  | .table _ => tablePlaceholder
  | .mathInline source => formula source
  | .mathDisplay source => "\n$$\n" ++ source ++ "\n$$\n\n"
  | .horizontalRule => "\n---\n\n"
  | .hardBreak => lineBreak
  | .text literal marks => textRun literal marks
  | .unknown _ _ => ""

/-- Several nodes as blocks in sequence. -/
def blocks : List Node → String
  | [] => ""
  | node :: rest => block node ++ blocks rest

end

/-- A tree as Markdown. -/
def render (node : Node) : String := block node

/-! ### Checked numbers -/

/-- The number behind a number, if it has 64 bits. -/
def next? (number : UInt64) : Option UInt64 :=
  if number.toNat + 1 < UInt64.size then some (number + 1) else none

/-- The items of an ordered list, as long as the count stays within 64 bits. It moves on before it
is known whether another item comes. -/
def orderedItems? (number : UInt64) : List Node → Option String
  | [] => (next? number).map fun _ => ""
  | item :: rest => do
    let next ← next? number
    return orderedItem number item ++ (← orderedItems? next rest)

mutual

/-- A node as a block, by a build that checks its arithmetic. -/
def block? : Node → Option String
  | .document content => blocks? content
  | .blockquote content => (blocks? content).map quote
  | .orderedList start items =>
    if items.isEmpty then some "" else (orderedItems? start items).map (· ++ "\n")
  | node => some (block node)

def blocks? : List Node → Option String
  | [] => some ""
  | node :: rest => do return (← block? node) ++ (← blocks? rest)

end

/-- A tree as Markdown, by a build that checks its arithmetic. -/
def render? (node : Node) : Option String := block? node

end Galley.Render.Markdown
