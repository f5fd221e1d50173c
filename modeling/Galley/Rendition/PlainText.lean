import Galley.Rendition.Shared
import Galley.Text.Lines
/-!
# Articles as plain text
-/
namespace Galley.Rendition.PlainText

/-- Where an article has no DOI. -/
def noDoi : String := "N/A"

/-- The paragraphs of the text, which an empty line separates: the underlined title, the DOI,
abstract and keywords if there are any, and the blocks of the document. -/
def sections (article : Article) (lang : String) : List String :=
  let title := (article.titleFor? lang).getD untitled
  let keywords := article.keywordsFor lang
  [title ++ "\n" ++ String.ofList (List.replicate title.length '='),
    "DOI: " ++ article.doi?.getD noDoi] ++
    (match article.abstractFor? lang with
      | some text => ["Abstract: " ++ Text.trim text]
      | none => []) ++
    (if keywords.isEmpty then [] else ["Keywords: " ++ Text.joinWith ", " keywords]) ++
    paragraphs article

/-- An article in a language as plain text. -/
def render (article : Article) (lang : String) : String :=
  Text.joinWith "\n\n" (sections article lang)

end Galley.Rendition.PlainText
