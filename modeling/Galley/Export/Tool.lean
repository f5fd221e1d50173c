import Galley.Config.Basic
import Galley.Export.Fault
import Galley.Host.Action
import Galley.Json.Printer
import Galley.Text.Utf8
/-!
# External programs

A configured command is a program with the arguments that come before those of a run. A run counts
as successful if the program ends with status zero within its limit.
-/
namespace Galley.Export

open Galley.Host (Action Invocation Outcome)

/-- A step of an export: an action that a fault ends. -/
abbrev Step (α : Type) := ExceptT Fault Action α

structure Tool where
  program : String
  arguments : List String
deriving DecidableEq, Repr

namespace Tool

/-- The words of a configured command. -/
def ofCommand (command : String) : Tool :=
  match Text.words command with
  | program :: arguments => ⟨program, arguments⟩
  | [] => ⟨"", []⟩

def text (tool : Tool) : String := Text.joinWith " " (tool.program :: tool.arguments)

/-- What a program printed, the errors behind the rest on a line of their own. -/
def combine (stdout stderr : ByteArray) : String :=
  let shown := Text.shownText stdout
  if stderr.isEmpty then shown
  else
    let gap := if shown.isEmpty ∨ shown.toList.getLast? = some '\n' then "" else "\n"
    shown ++ gap ++ Text.shownText stderr

/-- What the end of a run means. -/
def judge (tool : Tool) (limit : Option Time.Duration) : Outcome → Except Fault String
  | .unstartable reason => .error (.unstartable tool.program reason)
  | .timedOut => .error (.timedOut tool.program (limit.getD (.ofSeconds 0)))
  | .finished status stdout stderr =>
    let output := combine stdout stderr
    if status = some 0 then .ok output
    else .error (.failed tool.program (status.map Int.ofNat) output)

/-- Runs a tool in a directory; a success gives what it printed. -/
def run (tool : Tool) (arguments : List String) (directory : String)
    (limit : Option Time.Duration) :
    Step String :=
  ExceptT.mk do
    let outcome ← Action.start ⟨tool.program, tool.arguments ++ arguments, directory, limit⟩
    return tool.judge limit outcome

end Tool

/-- The limit for one run of a program. -/
def timeLimit (config : Config) : Option Time.Duration :=
  if config.timeout.isZero then none else some config.timeout

/-! ### Probing -/

/-- Whether a tool can be used. -/
structure ToolStatus where
  role : String
  command : String
  /-- What it calls its version, or why it cannot be used. -/
  version : Except String String

namespace ToolStatus

def version? (status : ToolStatus) : Option String := status.version.toOption

def error? (status : ToolStatus) : Option String :=
  match status.version with
  | .error text => some text
  | .ok _ => none

def isAvailable (status : ToolStatus) : Bool := status.version?.isSome

def toJson (status : ToolStatus) : Json.Value :=
  .object [("role", .string status.role), ("command", .string status.command),
    ("version", .ofText? status.version?), ("error", .ofText? status.error?)]

end ToolStatus

/-- The first line that is not blank, trimmed. -/
def versionLine (output : String) : String :=
  (((Text.lines output).map Text.trim).find? fun line => !line.isEmpty).getD ""

/-- Asks a tool for its version. -/
def probeTool (role : String) (tool : Tool) (directory : String) (limit : Option Time.Duration) :
    Action ToolStatus := do
  let result ← (tool.run ["--version"] directory limit).run
  return ⟨role, tool.text, (result.map versionLine).mapError Fault.message⟩

/-- The tools of a configuration by their roles. -/
def roles (config : Config) : List (String × String) :=
  [("converter", config.converter), ("tex-engine", config.texEngine),
    ("paged-media-engine", config.pagedMediaEngine)]

/-- Probes every tool of a configuration, one after the other. -/
def probe (config : Config) : Action (List ToolStatus) := do
  let directory ← Action.temporaryDirectory
  (roles config).mapM fun entry =>
    probeTool entry.1 (Tool.ofCommand entry.2) directory (timeLimit config)

end Galley.Export
