import Galley.Article.Basic
import Galley.Document.Blocks
import Galley.Markup.Item
/-!
# What renditions show of an article
-/
namespace Galley.Rendition

open Galley.Markup (Item)

/-- The title where an article has none. -/
def untitled : String := "Untitled"

/-- The only paragraph of an article without text. -/
def noContent : String := "No content"

/-- A reference as it is shown. -/
structure Citation where
  text : String
  doi : Option String
  url : Option String
deriving DecidableEq, Repr

/-- A reference in a language, or in its first one. -/
def Citation.ofReference (lang : String) (reference : Article.Reference) : Citation :=
  { text := (reference.text.getOrFirst? lang).getD ""
    doi := reference.doi?
    url := reference.url? }

def citations (article : Article) (lang : String) : List Citation :=
  article.references.map (Citation.ofReference lang)

/-- The paragraphs of a record: the leaf blocks of the document, if there are any. -/
def paragraphs (article : Article) : List String :=
  let blocks :=
    match article.content with
    | some node => node.blockTexts
    | none => []
  if blocks.isEmpty then [noContent] else blocks

/-- The items for a value that may be absent. -/
def whenPresent {α : Type} (value : Option α) (items : α → List Item) : List Item :=
  match value with
  | some v => items v
  | none => []

/-- A line break and the blanks before the next item. -/
def indent (level : Nat) : Item :=
  .raw (String.ofList ('\n' :: List.replicate (2 * level) ' '))

/-- An element whose only content is a text of the article. -/
def leaf (opening : Item) (name text : String) : List Item :=
  [opening, .numbered text, .closing name]

end Galley.Rendition
