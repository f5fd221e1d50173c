import Galley.Article.Metadata
import Galley.Config.Basic
/-!
# Front matter

The preamble of an article for the converter: `key: value` lines between two lines of dashes. Text
of the article stands in double quotes or, for the abstract, in a block whose lines are indented.
-/
namespace Galley

open Galley.Article (Metadata)

/-- What all preambles of a configuration share. -/
structure FrontMatter where
  documentClass : String
  fontSize : String
  paperSize : String
  margin : String
  bibliography : String
  citationStyle : String
deriving DecidableEq, Repr

namespace FrontMatter

/-- The file that holds the citation database. -/
def bibliographyFile : String := "references.bib"

def ofConfig (config : Config) : FrontMatter where
  documentClass := "article"
  fontSize := config.fontSize
  paperSize := config.paperSize
  margin := config.margin
  bibliography := bibliographyFile
  citationStyle := config.citationStyle

/-! ### Values -/

/-- The languages that have a name of their own. -/
def languageNames : List (String × String) :=
  [("ru", "russian"), ("uk", "ukrainian"), ("de", "german"), ("fr", "french"), ("es", "spanish")]

private def lowerAscii (text : String) : String :=
  String.ofList (text.toList.map Char.toLower)

/-- The name of a language code; any other counts as English. -/
def languageName (lang : String) : String :=
  (languageNames.lookup (lowerAscii (Text.trim lang))).getD "english"

/-- The characters of a quoted value: quotes and backslashes are escaped, and a line break is one
blank. -/
def escapeQuoted : List Char → List Char
  | [] => []
  | '\r' :: '\n' :: rest => ' ' :: escapeQuoted rest
  | c :: rest =>
    if c = '\\' then '\\' :: '\\' :: escapeQuoted rest
    else if c = '"' then '\\' :: '"' :: escapeQuoted rest
    else if c = '\n' ∨ c = '\r' then ' ' :: escapeQuoted rest
    else c :: escapeQuoted rest

/-- A value in double quotes. -/
def quoted (text : String) : String :=
  String.ofList ('"' :: escapeQuoted text.toList ++ ['"'])

/-! ### Lines -/

/-- The line that opens and closes a preamble. -/
def fence : String := "---"

/-- A key with its value. -/
def pair (key value : String) : String := key ++ ": " ++ value

def optionalPair (key : String) (value : Option String) : List String :=
  match value with
  | some text => [pair key text]
  | none => []

def titleLines (metadata : Metadata) : List String :=
  optionalPair "title" (metadata.title?.map quoted)

/-- The abstract as a block of lines, each two blanks in. -/
def abstractLines (metadata : Metadata) : List String :=
  match metadata.abstract? with
  | some text => pair "abstract" "|2" :: (Text.lines text).map ("  " ++ ·)
  | none => []

def keywordLines (metadata : Metadata) : List String :=
  if metadata.keywordList.isEmpty then []
  else [pair "keywords" ("[" ++ Text.joinWith ", " (metadata.keywordList.map quoted) ++ "]")]

def metadataLines (metadata : Metadata) : List String :=
  titleLines metadata ++ abstractLines metadata ++ keywordLines metadata

/-- The lines of a preamble. -/
def lines (builder : FrontMatter) (metadata : Option Metadata) (doi : Option String)
    (firstPage lastPage : Option UInt32) (lang : String) : List String :=
  [fence] ++
    (match metadata with
      | some metadata => metadataLines metadata
      | none => []) ++
    optionalPair "doi" ((Text.nonBlank? doi).map fun text => quoted (Text.trim text)) ++
    optionalPair "first-page" (firstPage.map fun page => toString page.toNat) ++
    optionalPair "last-page" (lastPage.map fun page => toString page.toNat) ++
    [pair "lang" (languageName lang), pair "documentclass" builder.documentClass,
      pair "classoption" ("[" ++ builder.fontSize ++ ", " ++ builder.paperSize ++ "]"),
      pair "geometry" ("margin=" ++ builder.margin), pair "bibliography" builder.bibliography,
      pair "citation-style" builder.citationStyle, fence]

/-- The preamble, each line ended by a line feed. -/
def build (builder : FrontMatter) (metadata : Option Metadata) (doi : Option String)
    (firstPage lastPage : Option UInt32) (lang : String) : String :=
  String.join ((builder.lines metadata doi firstPage lastPage lang).map (· ++ "\n"))

end FrontMatter
end Galley
