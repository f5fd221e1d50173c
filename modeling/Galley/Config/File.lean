import Galley.Config.Reader
import Galley.Host.Action
/-!
# Configuration files

A configuration remembers the file that it was read from, since its paths are seen from there.
-/
namespace Galley.Config

open Galley.Host (Action)

/-- Why a file gives no configuration. -/
inductive FileFault where
  | unreadable (reason : Host.Failure)
  | invalid (fault : Fault)
deriving DecidableEq, Repr

/-- What is wrong in itself, without saying with what. -/
def FileFault.cause : FileFault → String
  | .unreadable reason => reason.message
  | .invalid fault => fault.message

def FileFault.message : FileFault → String
  | .unreadable reason => "Failed to read config file: " ++ reason.message
  | .invalid fault => "Failed to parse YAML: " ++ fault.message

/-- The configuration that a file's text spells. -/
def ofFileText (path text : String) : Except FileFault Config :=
  match ofText text with
  | .ok config => .ok { config with source := some path }
  | .error fault => .error (.invalid fault)

/-- Reads a configuration file. -/
def load (path : String) : Action (Except FileFault Config) := do
  match ← Action.readText path with
  | .ok text => return ofFileText path text
  | .error reason => return .error (.unreadable reason)

/-- Reads a configuration file, if there is one. -/
def loadOrDefault (path : String) : Action (Except FileFault Config) := do
  if ← Action.isPresent path then load path else return .ok default

end Galley.Config
