import Galley.Export.Tool
/-!
# Workspaces

A workspace is a directory of its own for the files of one export.
-/
namespace Galley.Export

open Galley.Host (Action)

structure Workspace where
  path : String
deriving DecidableEq, Repr

/-- An action as a step, its failures told by `fault`. -/
def Step.ofTask {α : Type} (fault : Host.Failure → Fault)
    (action : Action (Except Host.Failure α)) :
    Step α :=
  ExceptT.mk do return (← action).mapError fault

namespace Workspace

/-- Makes a workspace under a directory, which is made if it is missing, or under the one for
temporary files. -/
def create (root : Option String) : Step Workspace := do
  let parent ←
    match root with
    | some root =>
      Step.ofTask .workspace (Action.makeDirectories root)
      Step.ofTask .workspace (Action.absolute root)
    | none => Action.temporaryDirectory
  return ⟨← Step.ofTask .workspace (Action.makeScratch parent)⟩

/-- The path of a file of the workspace. -/
def join (workspace : Workspace) (name : String) : String := Path.join workspace.path name

/-- Writes a file of the workspace. -/
def write (workspace : Workspace) (name : String) (bytes : ByteArray) : Step String := do
  let path := workspace.join name
  Step.ofTask .io (Action.write path bytes)
  return path

/-- What reading an output file of a program means. -/
def judgeOutput (program path output : String) :
    Except Host.Failure ByteArray → Except Fault ByteArray
  | .ok bytes =>
    if bytes.isEmpty then .error (.missingOutput program path output) else .ok bytes
  | .error .notFound => .error (.missingOutput program path output)
  | .error reason => .error (.io reason)

/-- Reads a file that a program, which printed `output`, should have made. -/
def readOutput (workspace : Workspace) (name program output : String) : Step ByteArray :=
  let path := workspace.join name
  ExceptT.mk do return judgeOutput program path output (← Action.read path)

/-- Removes the workspace. That this fails shows nowhere. -/
def close (workspace : Workspace) : Action Unit := do
  let _ ← Action.removeAll workspace.path

end Workspace
end Galley.Export
