import Galley.Article.LocalizedText
import Galley.Text.Blank
/-!
# References
-/
namespace Galley.Article

/-- An entry of an article's list of references. -/
structure Reference where
  id : Option String
  text : LocalizedText
  doi : Option String
  url : Option String
deriving DecidableEq, Repr

namespace Reference

/-- The DOI, unless it is blank. -/
def doi? (reference : Reference) : Option String := Text.nonBlank? reference.doi

/-- The URL, unless it is blank. -/
def url? (reference : Reference) : Option String := Text.nonBlank? reference.url

/-! ### JSON -/

def toJson (reference : Reference) : Json.Value :=
  .object [("id", .ofText? reference.id), ("text", reference.text.toJson),
    ("doi", .ofText? reference.doi), ("url", .ofText? reference.url)]

/-- Fields read so far. -/
structure Draft where
  id : Option (Option String) := none
  text : Option LocalizedText := none
  doi : Option (Option String) := none
  url : Option (Option String) := none

private def optionalWord : Json.Reader (Option String) := Json.optional Json.string

/-- How a reference is spelled. -/
def record : Json.Record Draft Reference where
  name := "ReferenceEntry"
  fields :=
    [{ names := ["id"], required := false, isSet := fun draft => draft.id.isSome,
       read := fun draft => Json.Reader.map (fun id => { draft with id := some id }) optionalWord },
     { names := ["text"], required := false, isSet := fun draft => draft.text.isSome,
       read := fun draft =>
         Json.Reader.map (fun text => { draft with text := some text }) LocalizedText.reader },
     { names := ["doi"], required := false, isSet := fun draft => draft.doi.isSome,
       read := fun draft =>
         Json.Reader.map (fun doi => { draft with doi := some doi }) optionalWord },
     { names := ["url"], required := false, isSet := fun draft => draft.url.isSome,
       read := fun draft =>
         Json.Reader.map (fun url => { draft with url := some url }) optionalWord }]
  empty := {}
  finish := fun draft =>
    some ⟨draft.id.join, draft.text.getD .empty, draft.doi.join, draft.url.join⟩

def reader : Json.Reader Reference := record.reader

def ofText (text : String) : Except Json.Fault Reference := Json.decode reader text

/-- The references of a JSON list. -/
def listOfText (text : String) : Except Json.Fault (List Reference) :=
  Json.decode (Json.list reader) text

end Reference
end Galley.Article
