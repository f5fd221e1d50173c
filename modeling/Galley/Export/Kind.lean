/-!
# Kinds of artifacts
-/
namespace Galley.Export

/-- What makes a PDF. -/
inductive PdfEngine where
  /-- The converter writes LaTeX, and the TeX engine lays it out. -/
  | tex
  /-- The paged-media engine lays out the article page. -/
  | pagedMedia
deriving DecidableEq, Repr

inductive Kind where
  | latex
  | pdf (engine : PdfEngine)
  | html
  | docx
  | jats
  | text
deriving DecidableEq, Repr

namespace Kind

def all : List Kind := [.latex, .pdf .tex, .pdf .pagedMedia, .html, .docx, .jats, .text]

def name : Kind → String
  | .latex => "latex"
  | .pdf .tex => "pdf"
  | .pdf .pagedMedia => "paged-pdf"
  | .html => "html"
  | .docx => "docx"
  | .jats => "jats"
  | .text => "text"

/-- Other names of a kind. -/
def otherNames : Kind → List String
  | .latex => ["tex", "latex-source"]
  | .pdf .pagedMedia => ["paged"]
  | .jats => ["xml"]
  | .text => ["txt"]
  | _ => []

def names (kind : Kind) : List String := kind.name :: kind.otherNames

/-- The kind that a name stands for; the case of ASCII letters does not count. -/
def ofName? (name : String) : Option Kind :=
  let lower := String.ofList (name.toList.map Char.toLower)
  all.find? fun kind => kind.names.contains lower

/-- Whether programs have to be run to make it. -/
def needsPrograms : Kind → Bool
  | .html | .jats | .text => false
  | _ => true

/-- The extension of file names. -/
def suffix : Kind → String
  | .latex => "tex"
  | .pdf _ => "pdf"
  | .html => "html"
  | .docx => "docx"
  | .jats => "xml"
  | .text => "txt"

def contentType : Kind → String
  | .latex => "text/plain"
  | .pdf _ => "application/pdf"
  | .html => "text/html"
  | .docx => "application/vnd.openxmlformats-officedocument.wordprocessingml.document"
  | .jats => "application/xml"
  | .text => "text/plain; charset=utf-8"

end Kind

/-! ### File names -/

/-- The characters that stay in a file name. -/
def isSafe (c : Char) : Bool := c.isAlphanum || c == '-' || c == '_'

/-- A text as part of a file name; other characters become underscores. -/
def safePart (text : String) : String :=
  String.ofList (text.toList.map fun c => if isSafe c then c else '_')

/-- What tells apart the two ways to a PDF. -/
def variantPart : Kind → String
  | .pdf .pagedMedia => "_paged"
  | _ => ""

/-- The file name of an artifact. -/
def fileName (id lang : String) (kind : Kind) : String :=
  "article_" ++ safePart id ++ "_" ++ safePart lang ++ variantPart kind ++ "." ++ kind.suffix

end Galley.Export
