import Galley.Host.Failure
import Galley.Path
import Galley.Time.Duration
/-!
# Actions

An action asks the host for one thing after another; what it asks next may depend on the answers. It
says nothing about the host: a handler gives the answers, be it a machine in memory or a real one.
-/
namespace Galley.Host

/-- A program to be started. -/
structure Invocation where
  program : String
  arguments : List String
  /-- Where it runs. -/
  directory : String
  /-- How long it may take. -/
  limit : Option Time.Duration
deriving DecidableEq, Repr

/-- What became of a program. -/
inductive Outcome where
  | unstartable (reason : Failure)
  | timedOut
  /-- A program that a signal ended has no status. -/
  | finished (status : Option Nat) (stdout stderr : ByteArray)

/-- What an action may ask for. -/
inductive Request where
  | currentDirectory
  /-- The directory for temporary files. -/
  | temporaryDirectory
  | isPresent (path : String)
  | read (path : String)
  /-- Writes a file, in place of any there is. -/
  | write (path : String) (bytes : ByteArray)
  /-- Makes a directory and those around it. -/
  | makeDirectories (path : String)
  /-- Makes a new directory with a name of its own. -/
  | makeScratch (parent : String)
  /-- Removes a directory with all that is in it. -/
  | removeAll (path : String)
  | run (invocation : Invocation)

/-- The kind of answer to a request. -/
def Request.Answer : Request → Type
  | .currentDirectory => Except Failure String
  | .temporaryDirectory => String
  | .isPresent _ => Bool
  | .read _ => Except Failure ByteArray
  | .write _ _ => Except Failure Unit
  | .makeDirectories _ => Except Failure Unit
  | .makeScratch _ => Except Failure String
  | .removeAll _ => Except Failure Unit
  | .run _ => Outcome

inductive Action (α : Type) where
  | done (value : α)
  | ask (request : Request) (next : request.Answer → Action α)

namespace Action

variable {α β : Type}

/-- An action, and then another one that depends on its value. -/
def bind (action : Action α) (next : α → Action β) : Action β :=
  match action with
  | .done value => next value
  | .ask request go => .ask request fun answer => bind (go answer) next

instance : Monad Action where
  pure := .done
  bind := bind

/-- The answer to one request. -/
def request (r : Request) : Action r.Answer := .ask r .done

/-- What answers requests. -/
abbrev Handler (m : Type → Type) := (r : Request) → m r.Answer

/-- Runs an action by a handler. -/
def run {m : Type → Type} [Monad m] (handler : Handler m) : Action α → m α
  | .done value => pure value
  | .ask request next => do run handler (next (← handler request))

theorem bind_pure (action : Action α) : (action >>= pure) = action := by
  induction action with
  | done value => rfl
  | ask request go ih => exact congrArg (Action.ask request) (funext fun answer => ih answer)

theorem bind_assoc {γ : Type} (action : Action α) (next : α → Action β) (last : β → Action γ) :
    (action >>= next >>= last) = (action >>= fun value => next value >>= last) := by
  induction action with
  | done value => rfl
  | ask request go ih => exact congrArg (Action.ask request) (funext fun answer => ih answer)

/-! ### Requests -/

def currentDirectory : Action (Except Failure String) := request .currentDirectory

def temporaryDirectory : Action String := request .temporaryDirectory

def isPresent (path : String) : Action Bool := request (.isPresent path)

def read (path : String) : Action (Except Failure ByteArray) := request (.read path)

def write (path : String) (bytes : ByteArray) : Action (Except Failure Unit) :=
  request (.write path bytes)

def makeDirectories (path : String) : Action (Except Failure Unit) :=
  request (.makeDirectories path)

def makeScratch (parent : String) : Action (Except Failure String) := request (.makeScratch parent)

def removeAll (path : String) : Action (Except Failure Unit) := request (.removeAll path)

def start (invocation : Invocation) : Action Outcome := request (.run invocation)

/-- The text of a file. -/
def readText (path : String) : Action (Except Failure String) := do
  match ← read path with
  | .error reason => return .error reason
  | .ok bytes =>
    match String.fromUTF8? bytes with
    | some text => return .ok text
    | none => return .error .invalidText

/-- A path as it is seen from the root. -/
def absolute (path : String) : Action (Except Failure String) := do
  if path.isEmpty then return .error .emptyPath
  if Path.isAbsolute path then return .ok (Path.absolute "" path)
  match ← currentDirectory with
  | .error reason => return .error reason
  | .ok current => return .ok (Path.absolute current path)

end Action
end Galley.Host
