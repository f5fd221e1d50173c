import Galley.CommandLine.Command
import Galley.Host.Machine
/-!
# The command line on a real host

The requests of a command are answered by the file system. This host starts no programs.
-/
namespace Galley.Host.Real

/-- What an error of the file system means. -/
def failureOf : IO.Error → Failure
  | .noFileOrDirectory _ _ _ => .notFound
  | .permissionDenied _ _ _ => .permissionDenied
  | .alreadyExists _ _ _ => .alreadyExists
  | .inappropriateType _ code _ => if code = 20 then .notDirectory else .isDirectory
  | error => .other (toString error)

/-- The result of a task, its errors told as failures. -/
def settle {α : Type} (task : IO α) : IO (Except Failure α) := do
  try return .ok (← task)
  catch error => return .error (failureOf error)

/-- Makes a directory with a name that nobody else is likely to choose. -/
def makeScratch (parent : String) : IO String := do
  let path := Path.join parent (Machine.scratchName (← IO.rand 0 Machine.scratchCount))
  IO.FS.createDir path
  return path

def isPresent (path : String) : IO Bool := do
  match ← settle (IO.FS.readBinFile path) with
  | .error .notFound | .error .notDirectory => return false
  | _ => return true

/-- The file system's answers to requests. -/
def handler : Action.Handler IO := fun request =>
  match request with
  | .currentDirectory => settle do return (← IO.currentDir).toString
  | .temporaryDirectory => return (← IO.getEnv "TMPDIR").getD "/tmp"
  | .isPresent path => isPresent path
  | .read path => settle (IO.FS.readBinFile path)
  | .write path bytes => settle (IO.FS.writeBinFile path bytes)
  | .makeDirectories path => settle (IO.FS.createDirAll path)
  | .makeScratch parent => settle (makeScratch parent)
  | .removeAll path => settle (IO.FS.removeDirAll path)
  | .run _ => return .unstartable (.other "programs cannot be started here")

end Galley.Host.Real

/-- Does what the words of the command line ask for. -/
def main (words : List String) : IO UInt32 := do
  let outcome ← (Galley.CommandLine.run words).run Galley.Host.Real.handler
  IO.print outcome.stdout
  IO.eprint outcome.stderr
  return outcome.status
