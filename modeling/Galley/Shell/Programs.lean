import Galley.Host.Machine
import Galley.Shell.Evaluation
/-!
# The programs of a machine

The machine has a shell and the utilities, under their plain names and in the usual directories. Its
files cannot be executed.

The shell is the system's and no part of the exporter. It is written out so that exports can be run
with scripts in the place of the compilers. What is proved about exports holds for every table of
programs, and nothing is proved about this one.
-/
namespace Galley.Shell

open Galley.Host (FileTree Invocation Location Outcome Programs)

namespace Programs

/-- Whether a machine has a program of a name. -/
def isKnown (name : String) : Bool :=
  Evaluation.plainName name == "env" || Evaluation.isProgram name

/-- Why a program cannot be started. -/
def refusal? (tree : FileTree) (current : Location) (name : String) : Option Host.Failure :=
  if isKnown name then none
  else if name.toList.contains '/' then
    match tree.find current name with
    | .ok _ => some .permissionDenied
    | .error reason => some reason
  else if name = "." ∨ name = ".." then some .permissionDenied
  else if 255 < name.utf8ByteSize then some .nameTooLong
  else some .notFound

/-- The first process of a machine. -/
def firstProcess : Nat := 1000

/-- The state that a program starts in. -/
def start (environment : List (String × String)) (invocation : Invocation) (current : Location)
    (tree : FileTree) : State where
  tree := tree
  current := current
  captures := #[ByteArray.empty, ByteArray.empty]
  input := ByteArray.empty
  output := .capture 0
  errors := .capture 1
  clock := 0
  busyUntil := 0
  limit := invocation.limit.map fun limit => limit.seconds * 1000000000 + limit.nanos
  process := firstProcess
  lastProcess := 0
  name := invocation.program
  within := ""
  arguments := invocation.arguments
  bindings := environment
  exported := environment.map (·.1)
  functions := []
  status := 0
  line := 0
  farewell := ""
  strict := false
  careful := false
  traced := false

/-- How deep the parts of a script may be. -/
def depth : Nat := 1000

/-- What a program does. -/
def body (invocation : Invocation) : Run Unit :=
  let runner := Evaluation.run depth
  let (name, arguments) := (invocation.program, invocation.arguments)
  if Evaluation.shellNames.contains (Evaluation.plainName name) then
    Evaluation.runShell runner name arguments
  else if Evaluation.plainName name = "env" then Evaluation.runPlain runner 8 "env" arguments
  else Evaluation.runProgram runner name arguments

/-- The outcome that a state shows once a program is over. -/
def outcome (result : Except Exit Unit) (state : State) : Outcome :=
  let finished (status : Option Nat) : Outcome :=
    .finished status (state.captures.getD 0 ByteArray.empty)
      (state.captures.getD 1 ByteArray.empty)
  let busy := max state.clock state.busyUntil
  if result matches .error .late ∨ state.limit.any (fun limit => limit ≤ busy) then
    .timedOut
  else
    match result with
    | .error (.killed _ _) => finished none
    | _ => finished (some state.status)

end Programs

/-- What the programs of a machine do in an environment. -/
def programs (environment : List (String × String)) : Programs :=
  fun invocation current tree =>
    match Programs.refusal? tree current invocation.program with
    | some reason => (.unstartable reason, tree)
    | none =>
      let (result, state) :=
        (Programs.body invocation).run (Programs.start environment invocation current tree)
      (Programs.outcome result state, state.tree)

end Galley.Shell
