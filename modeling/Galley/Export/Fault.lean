import Galley.Host.Failure
import Galley.Text.Blank
import Galley.Time.Duration
/-!
# Why an export fails
-/
namespace Galley.Export

open Galley.Time (Duration)

inductive Fault where
  /-- There is no workspace. -/
  | workspace (reason : Host.Failure)
  | io (reason : Host.Failure)
  | unstartable (program : String) (reason : Host.Failure)
  /-- A program failed; one that a signal ended has no status. -/
  | failed (program : String) (status : Option Int) (output : String)
  /-- A program succeeded, but its output file is missing or empty. -/
  | missingOutput (program path output : String)
  | timedOut (program : String) (after : Duration)
  /-- The article page cannot be made. -/
  | page (reason : String)
deriving DecidableEq, Repr

namespace Fault

private def statusText : Option Int → String
  | some status => "Some(" ++ toString status ++ ")"
  | none => "None"

/-- What a program printed, unless that is blank. -/
def diagnostics (output : String) : String :=
  if Text.isAllBlank output then "" else ":\n" ++ output

def message : Fault → String
  | .workspace reason => "Failed to create export workspace: " ++ reason.message
  | .io reason => "I/O error during export: " ++ reason.message
  | .unstartable program reason => "Failed to start " ++ program ++ ": " ++ reason.message
  | .failed program status output =>
    program ++ " failed (exit " ++ statusText status ++ "):\n" ++ output
  | .missingOutput program path output =>
    program ++ " exited successfully but did not produce " ++ path ++ diagnostics output
  | .timedOut program after => program ++ " did not finish within " ++ after.text
  | .page reason => "Failed to render article page: " ++ reason

/-- Whether the same export may succeed another time. -/
def isRetryable : Fault → Bool
  | .unstartable _ _ => false
  | .page _ => false
  | _ => true

/-- What the program printed. -/
def programOutput? : Fault → Option String
  | .failed _ _ output => some output
  | .missingOutput _ _ output => some output
  | _ => none

/-- The failure of the host behind it. -/
def reason? : Fault → Option Host.Failure
  | .workspace reason => some reason
  | .io reason => some reason
  | .unstartable _ reason => some reason
  | _ => none

end Fault
end Galley.Export
