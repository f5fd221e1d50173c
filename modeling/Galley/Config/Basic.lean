import Galley.Path
import Galley.Time.Duration
/-!
# Export configuration
-/
namespace Galley

/-- The settings of an export. -/
structure Config where
  /-- Turns Markdown into LaTeX and HTML into DOCX. -/
  converter : String := "pandoc"
  texEngine : String := "xelatex"
  /-- The converter's template; a standalone document is made without one. -/
  latexTemplate : Option String := none
  /-- Turns the article page and a stylesheet into PDF. -/
  pagedMediaEngine : String := "vivliostyle"
  /-- Replaces the built-in stylesheet. -/
  stylesheet : Option String := none
  /-- Where workspaces are made, in place of the directory for temporary files. -/
  workspaceRoot : Option String := none
  /-- The limit for one run of a program, in seconds; none for zero. -/
  timeoutSeconds : UInt64 := 120
  citationStyle : String := "gost-numeric"
  paperSize : String := "a4paper"
  fontSize : String := "12pt"
  margin : String := "2.5cm"
  /-- Where the configuration was read from. -/
  source : Option String := none
deriving DecidableEq, Repr

namespace Config

def default : Config := {}

/-- The limit for one run of a program; zero stands for none. -/
def timeout (config : Config) : Time.Duration := .ofSeconds config.timeoutSeconds.toNat

/-- A path of the configuration, as seen from the directory of the file it was read from. -/
def resolve (config : Config) (path : String) : String :=
  match config.source with
  | some file => Path.join (Path.parent file) path
  | none => path

def latexTemplatePath (config : Config) : Option String := config.latexTemplate.map config.resolve

def stylesheetPath (config : Config) : Option String := config.stylesheet.map config.resolve

def workspaceRootPath (config : Config) : Option String := config.workspaceRoot.map config.resolve

end Config
end Galley
