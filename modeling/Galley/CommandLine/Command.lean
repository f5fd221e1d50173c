import Galley.Article.File
import Galley.CommandLine.Arguments
import Galley.CommandLine.Report
import Galley.Config.File
import Galley.Export.Artifact
/-!
# Commands

Every command gives what it prints, or the report of why it failed.
-/
namespace Galley.CommandLine

open Galley.Host (Action)

/-- A step of a command: an action that a report ends. -/
abbrev Step (α : Type) := ExceptT Report Action α

/-- A step that is told about in a report if it fails. -/
def Step.ofTask {α ε : Type} (message : String) (causes : ε → List String)
    (task : Action (Except ε α)) : Step α :=
  ExceptT.mk do return (← task).mapError fun fault => ⟨message, causes fault⟩

/-! ### Reading -/

def loadConfig (path : String) : Step Config :=
  Step.ofTask ("Failed to load configuration from " ++ path)
    (fun fault => [fault.message, fault.cause]) (Config.loadOrDefault path)

def loadArticle (path : String) : Step Article :=
  Step.ofTask ("Failed to read article " ++ path) (fun fault => [fault.message, fault.cause])
    (Article.load path)

def loadDocument (path : String) : Step Document.Node := do
  let text ←
    Step.ofTask ("Failed to read document " ++ path) (fun reason => [reason.message])
      (Action.readText path)
  Step.ofTask ("Invalid document JSON in " ++ path) (fun fault => [fault.message text])
    (return Document.Node.ofText text)

/-! ### Tools -/

private def padRight (width : Nat) (text : String) : String :=
  text ++ String.ofList (List.replicate (width - text.length) ' ')

def statusLine (status : Export.ToolStatus) : String :=
  let (word, detail) :=
    match status.version with
    | .ok version => ("ok", version)
    | .error text => ("missing", text)
  padRight 9 word ++ padRight 20 status.role ++ " " ++ status.command ++ " (" ++ detail ++ ")\n"

/-- The tools one by one, and how many of them cannot be used, if any. -/
def statusText (statuses : List Export.ToolStatus) : String :=
  let missing := (statuses.filter (!·.isAvailable)).length
  String.join (statuses.map statusLine) ++
    (if missing = 0 then ""
      else toString missing ++ " of " ++ toString statuses.length ++ " tools unavailable\n")

/-! ### Exports -/

/-- What a fault has for causes: itself, and the failure of the host behind it. -/
def faultCauses (fault : Export.Fault) : List String :=
  fault.message :: (fault.reason?.map Host.Failure.message).toList

/-- Exports an article into a file, and gives the file's path. -/
def exportArticle (config path : String) (kind : Export.Kind) (lang : String)
    (output : Option String) : Step String := do
  let config ← loadConfig config
  let article ← loadArticle path
  let artifact ←
    Step.ofTask ("Failed to export " ++ article.id ++ " as " ++ kind.name) faultCauses
      (Export.make config article lang kind)
  let destination := output.getD artifact.fileName
  Step.ofTask ("Failed to write " ++ destination) (fun reason => [Host.Failure.message reason])
    (Action.write destination artifact.bytes)
  return destination

/-! ### Commands -/

/-- Does a command, and gives what it prints. -/
def Command.perform (config : String) : Command → Step String
  | .render path target lang => do
    let node ← loadDocument path
    return (⟨target, lang⟩ : Render.Renderer).render node
  | .frontMatter path lang => do
    let config ← loadConfig config
    let article ← loadArticle path
    return (FrontMatter.ofConfig config).build (article.metadataFor? lang) article.doi?
      article.firstPage article.lastPage lang
  | .bibliography path => do
    let article ← loadArticle path
    return Bibliography.print (Bibliography.entries article.references)
  | .export path kind lang output => do
    return (← exportArticle config path kind lang output) ++ "\n"
  | .check json => do
    let config ← loadConfig config
    let statuses ← ExceptT.lift (Export.probe config)
    if json then
      return (Json.Value.array (statuses.map Export.ToolStatus.toJson)).pretty 0 ++ "\n"
    else return statusText statuses

/-! ### Runs -/

/-- What a run leaves behind. The standard error stream is given without the lines of the log, which
may stand there before the report. -/
structure Outcome where
  status : UInt32
  stdout : String
  stderr : String
deriving DecidableEq, Repr

/-- The line that names the program and its version. -/
def versionLine : String := "folio 0.1.0\n"

def usage : String :=
  "Usage: folio [--config <CONFIG>] [--verbose] <COMMAND>\n\nCommands:\n" ++
    String.join (forms.map fun form => "  " ++ form.name ++ "\n")

/-- What ended the reading of a command line. -/
def Stop.outcome : Stop → Outcome
  | .help => ⟨0, usage, ""⟩
  | .version => ⟨0, versionLine, ""⟩
  | .fault reason => ⟨2, "", "error: " ++ reason.message ++ "\n\n" ++ usage⟩

/-- Does what a command line asks for. What is logged on the way is no part of the outcome. -/
def run (words : List String) : Action Outcome := do
  match Arguments.ofWords words with
  | .error stop => return stop.outcome
  | .ok arguments =>
    match ← (arguments.command.perform arguments.config).run with
    | .ok printed => return ⟨0, printed, ""⟩
    | .error report => return ⟨1, "", report.text⟩

end Galley.CommandLine
