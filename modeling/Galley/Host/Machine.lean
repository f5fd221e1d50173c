import Galley.Host.FileTree
import Galley.Host.Action
/-!
# Machines

A machine is a host in memory: a file tree, a current directory and one for temporary files. What
its programs do is not fixed: a table of programs tells what becomes of an invocation, and of the
file tree.
-/
namespace Galley.Host

structure Machine where
  tree : FileTree
  current : Location
  /-- The path of the directory for temporary files. -/
  temporary : String

/-- What programs do: the outcome of an invocation at a location, and the tree it leaves. -/
abbrev Programs := Invocation → Location → FileTree → Outcome × FileTree

namespace Machine

/-- The path of a location. -/
def pathOf (location : Location) : String := "/" ++ Text.joinWith "/" location

/-! ### New names -/

/-- A number in so many digits of base 36. -/
def digits36 : (width : Nat) → Nat → List Char
  | 0, _ => []
  | width + 1, n =>
    digits36 width (n / 36) ++
      [if n % 36 < 10 then Char.ofNat (48 + n % 36) else Char.ofNat (87 + n % 36)]

/-- The greatest number with six digits of base 36. -/
def scratchCount : Nat := 2176782335

/-- The names of scratch directories. -/
def scratchName (n : Nat) : String := "folio-export-" ++ String.ofList (digits36 6 n)

/-- A name that no entry has. -/
def freshName? (entries : List (String × FileTree)) : Option String :=
  ((List.range (entries.length + 1)).map scratchName).find? fun name =>
    (FileTree.lookup name entries).isNone

/-- Makes a directory with a new name in another one. -/
def makeScratch (machine : Machine) (parent : String) : Except Failure (String × FileTree) := do
  let (location, entry) ← machine.tree.find machine.current parent
  match entry with
  | .file _ => throw .notDirectory
  | .directory entries =>
    match freshName? entries with
    | some name =>
      return (Path.join parent name, machine.tree.set (location ++ [name]) (some (.directory [])))
    | none => throw .alreadyExists

/-! ### Answers -/

/-- The answer to an operation, and the machine after it; one that failed changes nothing. -/
def settle {α : Type} (machine : Machine) (result : Except Failure (α × FileTree)) :
    Except Failure α × Machine :=
  match result with
  | .ok (value, tree) => (.ok value, { machine with tree })
  | .error reason => (.error reason, machine)

def unit (result : Except Failure FileTree) : Except Failure (Unit × FileTree) :=
  result.map fun tree => ((), tree)

/-- Runs a program, if its directory is there. -/
def invoke (machine : Machine) (programs : Programs) (invocation : Invocation) :
    Outcome × Machine :=
  if (invocation.program :: invocation.arguments).any (·.toList.contains (Char.ofNat 0)) then
    (.unstartable .zeroInWord, machine)
  else
    match machine.tree.find machine.current invocation.directory with
    | .error reason => (.unstartable reason, machine)
    | .ok (_, .file _) => (.unstartable .notDirectory, machine)
    | .ok (location, .directory _) =>
      let (outcome, tree) := programs invocation location machine.tree
      (outcome, { machine with tree })

/-- The machine's answers to requests. -/
def handler (programs : Programs) : Action.Handler (StateM Machine) := fun request machine =>
  match request with
  | .currentDirectory => (.ok (pathOf machine.current), machine)
  | .temporaryDirectory => (machine.temporary, machine)
  | .isPresent path => ((machine.tree.find machine.current path).isOk, machine)
  | .read path => (machine.tree.read machine.current path, machine)
  | .write path bytes => settle machine (unit (machine.tree.write machine.current path bytes))
  | .makeDirectories path =>
    settle machine (unit (machine.tree.makeDirectories machine.current path))
  | .makeScratch parent => settle machine (machine.makeScratch parent)
  | .removeAll path => settle machine (unit (machine.tree.removeAll machine.current path))
  | .run invocation => machine.invoke programs invocation

/-- Runs an action on a machine. -/
def run {α : Type} (programs : Programs) (action : Action α) (machine : Machine) : α × Machine :=
  action.run (handler programs) machine

end Machine
end Galley.Host
