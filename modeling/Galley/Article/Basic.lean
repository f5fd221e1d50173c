import Galley.Article.Metadata
import Galley.Article.Reference
import Galley.Document.Decode
/-!
# Articles
-/
namespace Galley

open Galley.Article (Metadata Reference)

/-- What an article's record holds for its renditions. -/
structure Article where
  id : String
  content : Option Document.Node
  /-- Metadata by language, the languages in ascending order. -/
  metadata : List (String × Metadata)
  doi : Option String
  firstPage : Option UInt32
  lastPage : Option UInt32
  references : List Reference
deriving Repr

namespace Article

def metadataFor? (article : Article) (lang : String) : Option Metadata :=
  article.metadata.lookup lang

/-- The title in a language, unless it is blank. -/
def titleFor? (article : Article) (lang : String) : Option String :=
  (article.metadataFor? lang).bind (·.title?)

/-- The abstract in a language, unless it is blank. -/
def abstractFor? (article : Article) (lang : String) : Option String :=
  (article.metadataFor? lang).bind (·.abstract?)

def keywordsFor (article : Article) (lang : String) : List String :=
  match article.metadataFor? lang with
  | some metadata => metadata.keywordList
  | none => []

/-- The DOI, unless it is blank. -/
def doi? (article : Article) : Option String := Text.nonBlank? article.doi

def languages (article : Article) : List String := article.metadata.map Prod.fst

/-! ### JSON -/

/-- Puts metadata in its language's place in ascending order, in place of any it had. -/
def putMetadata (lang : String) (metadata : Metadata) :
    List (String × Metadata) → List (String × Metadata)
  | [] => [(lang, metadata)]
  | (key, old) :: rest =>
    if lang = key then (key, metadata) :: rest
    else if lang < key then (lang, metadata) :: (key, old) :: rest
    else (key, old) :: putMetadata lang metadata rest

/-- Fields read so far. -/
structure Draft where
  id : Option String := none
  content : Option (Option Document.Node) := none
  metadata : Option (List (String × Metadata)) := none
  doi : Option (Option String) := none
  firstPage : Option (Option UInt32) := none
  lastPage : Option (Option UInt32) := none
  references : Option (List Reference) := none

/-- Metadata by language; of several with one language the last counts. -/
def metadataReader : Json.Reader (List (String × Metadata)) :=
  Json.members
    (fun read lang =>
      .ok (Json.Reader.map (fun metadata => putMetadata lang metadata read) Metadata.reader))
    [] "a map"

/-- How an article is spelled. -/
def record : Json.Record Draft Article where
  name := "Article"
  fields :=
    [{ names := ["id"], required := true, isSet := fun draft => draft.id.isSome,
       read := fun draft => Json.Reader.map (fun id => { draft with id := some id }) Json.string },
     { names := ["content", "pmJson", "pm_json"], required := false,
       isSet := fun draft => draft.content.isSome,
       read := fun draft =>
         Json.Reader.map (fun content => { draft with content := some content })
           (Json.optional (Json.Reader.map Document.Node.ofJson Json.value)) },
     { names := ["metadata"], required := false, isSet := fun draft => draft.metadata.isSome,
       read := fun draft =>
         Json.Reader.map (fun metadata => { draft with metadata := some metadata })
           metadataReader },
     { names := ["doi"], required := false, isSet := fun draft => draft.doi.isSome,
       read := fun draft =>
         Json.Reader.map (fun doi => { draft with doi := some doi }) (Json.optional Json.string) },
     { names := ["firstPage", "first_page"], required := false,
       isSet := fun draft => draft.firstPage.isSome,
       read := fun draft =>
         Json.Reader.map (fun page => { draft with firstPage := some page })
           (Json.optional Json.natural32) },
     { names := ["lastPage", "last_page"], required := false,
       isSet := fun draft => draft.lastPage.isSome,
       read := fun draft =>
         Json.Reader.map (fun page => { draft with lastPage := some page })
           (Json.optional Json.natural32) },
     { names := ["references"], required := false, isSet := fun draft => draft.references.isSome,
       read := fun draft =>
         Json.Reader.map (fun references => { draft with references := some references })
           (Json.list Reference.reader) }]
  empty := {}
  finish := fun draft =>
    draft.id.map fun id =>
      { id, content := draft.content.join, metadata := draft.metadata.getD [],
        doi := draft.doi.join, firstPage := draft.firstPage.join, lastPage := draft.lastPage.join,
        references := draft.references.getD [] }

def reader : Json.Reader Article := record.reader

/-- The article that a JSON text spells. -/
def ofText (text : String) : Except Json.Fault Article := Json.decode reader text

end Article
end Galley
