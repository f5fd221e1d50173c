import Galley.Json.Reader
import Galley.Json.Printer
import Galley.Text.Blank
import Galley.Text.Lines
/-!
# Article metadata in one language
-/
namespace Galley.Article

/-- Title, abstract and keywords in one language; keywords are separated by commas. -/
structure Metadata where
  title : Option String
  abstract : Option String
  keywords : Option String
deriving DecidableEq, Repr

namespace Metadata

def empty : Metadata := ⟨none, none, none⟩

/-- The title, unless it is blank. -/
def title? (metadata : Metadata) : Option String := Text.nonBlank? metadata.title

/-- The abstract, unless it is blank. -/
def abstract? (metadata : Metadata) : Option String := Text.nonBlank? metadata.abstract

/-- The keywords of a line: trimmed, without the empty ones. -/
def splitKeywords (line : String) : List String :=
  ((Text.splitOnChar ',' line).map Text.trim).filter fun keyword => !keyword.isEmpty

def keywordList (metadata : Metadata) : List String :=
  match metadata.keywords with
  | some line => splitKeywords line
  | none => []

/-! ### JSON -/

def toJson (metadata : Metadata) : Json.Value :=
  .object [("title", .ofText? metadata.title), ("abstract", .ofText? metadata.abstract),
    ("keywords", .ofText? metadata.keywords)]

/-- Fields read so far. -/
structure Draft where
  title : Option (Option String) := none
  abstract : Option (Option String) := none
  keywords : Option (Option String) := none

private def optionalText : Json.Reader (Option String) := Json.optional Json.string

/-- How metadata is spelled. The abstract may also be called an annotation. -/
def record : Json.Record Draft Metadata where
  name := "ArticleMetadata"
  fields :=
    [{ names := ["title"], required := false, isSet := fun draft => draft.title.isSome,
       read := fun draft =>
         Json.Reader.map (fun text => { draft with title := some text }) optionalText },
     { names := ["abstract", "annotation"], required := false,
       isSet := fun draft => draft.abstract.isSome,
       read := fun draft =>
         Json.Reader.map (fun text => { draft with abstract := some text }) optionalText },
     { names := ["keywords"], required := false, isSet := fun draft => draft.keywords.isSome,
       read := fun draft =>
         Json.Reader.map (fun text => { draft with keywords := some text }) optionalText }]
  empty := {}
  finish := fun draft =>
    some ⟨draft.title.join, draft.abstract.join, draft.keywords.join⟩

def reader : Json.Reader Metadata := record.reader

def ofText (text : String) : Except Json.Fault Metadata := Json.decode reader text

end Metadata
end Galley.Article
