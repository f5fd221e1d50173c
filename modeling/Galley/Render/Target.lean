import Galley.Json.Reader
import Galley.Json.Printer
import Galley.Render.Html
import Galley.Render.Markdown
/-!
# Render targets
-/
namespace Galley.Render

open Galley.Document (Node)

/-- The syntax that a document is rendered to. -/
inductive Target where
  | markdown
  | html
deriving DecidableEq, Repr

namespace Target

def all : List Target := [.markdown, .html]

def name : Target → String
  | .markdown => "markdown"
  | .html => "html"

def ofName? (name : String) : Option Target := all.find? (·.name == name)

/-- A target as a JSON text. -/
def json (target : Target) : String := Json.printString target.name

/-- The target that a JSON text names. -/
def ofText (text : String) : Except Json.Fault Target := do
  let name ← Json.decode (Json.variant (all.map Target.name)) text
  return (ofName? name).getD .markdown

end Target

/-- A document in a target's syntax. -/
def render (target : Target) (node : Node) : String :=
  match target with
  | .markdown => Markdown.render node
  | .html => Html.render node

/-- A document in a target's syntax, by a build that checks its arithmetic. Only the Markdown of an
ordered list counts. -/
def render? (target : Target) (node : Node) : Option String :=
  match target with
  | .markdown => Markdown.render? node
  | .html => some (Html.render node)

/-- A renderer for one target and one language. The language is kept for what surrounds a
rendering; the rendering itself does not depend on it. -/
structure Renderer where
  target : Target
  lang : String
deriving DecidableEq, Repr

def Renderer.render (renderer : Renderer) (node : Node) : String :=
  Render.render renderer.target node

def Renderer.render? (renderer : Renderer) (node : Node) : Option String :=
  Render.render? renderer.target node

end Galley.Render
