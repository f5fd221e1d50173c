import Galley.Article.Basic
import Galley.Bibliography.Entry
import Galley.Export.Kind
import Galley.Export.Workspace
import Galley.FrontMatter
import Galley.Render.Markdown
import Galley.Rendition.Jats
import Galley.Rendition.Page
import Galley.Rendition.PlainText
/-!
# Making artifacts

Records and pages are made in memory. All else is made by programs in a workspace, which is removed
again whatever happens.
-/
namespace Galley.Export

open Galley.Host (Action)
open Galley.Rendition (PageStyle)

/-- What an export makes. -/
structure Artifact where
  bytes : ByteArray
  fileName : String
  contentType : String

/-! ### Files of a workspace -/

def markdownFile : String := "article.md"

def latexFile : String := "article.tex"

def pdfFile : String := "article.pdf"

def pageFile : String := "article.html"

def stylesheetFile : String := "style.css"

def docxFile : String := "article.docx"

/-! ### Sources -/

/-- What the converter reads: the preamble, an empty line and the document. -/
def markdownSource (config : Config) (article : Article) (lang : String) : String :=
  let preamble :=
    (FrontMatter.ofConfig config).build (article.metadataFor? lang) article.doi? article.firstPage
      article.lastPage lang
  let body :=
    match article.content with
    | some node => Render.Markdown.render node
    | none => ""
  preamble ++ "\n" ++ body

/-- The configured stylesheet, or else the built-in one. -/
def stylesheet (config : Config) : Step String :=
  match config.stylesheetPath with
  | some path => Step.ofTask .io (Action.readText path)
  | none => return Rendition.Stylesheet.builtin

/-- The converter's template, as it is seen from a workspace. -/
def latexTemplate (config : Config) : Step (Option String) :=
  match config.latexTemplatePath with
  | some path => some <$> Step.ofTask .io (Action.absolute path)
  | none => return none

/-! ### Runs -/

/-- The converter's arguments for LaTeX. -/
def latexArguments (template : Option String) (engine : String) (cites : Bool) : List String :=
  [markdownFile, "-o", latexFile,
    (match template with
      | some path => "--template=" ++ path
      | none => "--standalone"),
    "--pdf-engine=" ++ engine] ++
    (if cites then ["--bibliography=" ++ FrontMatter.bibliographyFile, "--citeproc"] else [])

/-- The TeX engine's arguments. -/
def texArguments (workspace : Workspace) : List String :=
  ["-interaction=nonstopmode", "-output-directory=" ++ workspace.path, latexFile]

/-- The paged-media engine's arguments. -/
def pagedArguments : List String :=
  ["build", pageFile, "--style", stylesheetFile, "--output", pdfFile, "--size", "A4"]

/-- The converter's arguments for DOCX. -/
def docxArguments : List String :=
  [pageFile, "-o", docxFile, "--from", "html", "--to", "docx", "--standalone"]

/-- Runs a tool in a workspace, and reads the file it should have made. -/
def runFor (config : Config) (workspace : Workspace) (command : String) (arguments : List String)
    (output : String) : Step ByteArray := do
  let tool := Tool.ofCommand command
  let printed ← tool.run arguments workspace.path (timeLimit config)
  workspace.readOutput output tool.program printed

/-- Makes LaTeX by the converter. -/
def makeLatex (config : Config) (article : Article) (lang : String) (workspace : Workspace) :
    Step ByteArray := do
  let _ ← workspace.write markdownFile (markdownSource config article lang).toUTF8
  let entries := Bibliography.entries article.references
  if !entries.isEmpty then
    let _ ← workspace.write FrontMatter.bibliographyFile (Bibliography.print entries).toUTF8
  let template ← latexTemplate config
  let engine := (Tool.ofCommand config.texEngine).program
  runFor config workspace config.converter
    (latexArguments template engine !entries.isEmpty) latexFile

/-- Makes PDF by the TeX engine, from the LaTeX in the workspace. -/
def layOutLatex (config : Config) (workspace : Workspace) : Step ByteArray :=
  runFor config workspace config.texEngine (texArguments workspace) pdfFile

/-- Makes PDF by the paged-media engine. -/
def makePaged (config : Config) (article : Article) (lang : String) (workspace : Workspace) :
    Step ByteArray := do
  let page := Rendition.Page.render article lang (.linked stylesheetFile)
  let _ ← workspace.write pageFile page.toUTF8
  let css ← stylesheet config
  let _ ← workspace.write stylesheetFile css.toUTF8
  runFor config workspace config.pagedMediaEngine pagedArguments pdfFile

/-- Makes DOCX by the converter, from the article page. -/
def makeDocx (config : Config) (article : Article) (lang : String) (workspace : Workspace) :
    Step ByteArray := do
  let css ← stylesheet config
  let page := Rendition.Page.render article lang (.inline css)
  let _ ← workspace.write pageFile page.toUTF8
  runFor config workspace config.converter docxArguments docxFile

/-! ### Artifacts -/

/-- Makes an artifact without any program. -/
def makeInMemory (config : Config) (article : Article) (lang : String) : Kind → Step String
  | .jats => return Rendition.Jats.render article lang
  | .text => return Rendition.PlainText.render article lang
  | _ => do return Rendition.Page.render article lang (.inline (← stylesheet config))

/-- Makes an artifact in a workspace. -/
def makeIn (config : Config) (article : Article) (lang : String) (workspace : Workspace) :
    Kind → Step ByteArray
  | .latex => makeLatex config article lang workspace
  | .pdf .tex => do
    let _ ← makeLatex config article lang workspace
    layOutLatex config workspace
  | .pdf .pagedMedia => makePaged config article lang workspace
  | .docx => makeDocx config article lang workspace
  | kind => do return (← makeInMemory config article lang kind).toUTF8

/-- The bytes of an artifact. The workspace is removed whether making it succeeds or not. -/
def makeBytes (config : Config) (article : Article) (lang : String) (kind : Kind) :
    Step ByteArray := do
  if kind.needsPrograms then
    let workspace ← Workspace.create config.workspaceRootPath
    let result ← ExceptT.lift (makeIn config article lang workspace kind).run
    ExceptT.lift workspace.close
    liftExcept result
  else return (← makeInMemory config article lang kind).toUTF8
where
  liftExcept {α : Type} (result : Except Fault α) : Step α := ExceptT.mk (return result)

/-- Exports an article. -/
def make (config : Config) (article : Article) (lang : String) (kind : Kind) :
    Action (Except Fault Artifact) :=
  ExceptT.run do
    let bytes ← makeBytes config article lang kind
    return ⟨bytes, fileName article.id lang kind, kind.contentType⟩

end Galley.Export
