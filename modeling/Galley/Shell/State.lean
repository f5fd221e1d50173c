import Galley.Host.FileTree
import Galley.Shell.Command
import Galley.Text.Utf8
/-!
# States of a running script

A script reads and writes files of a tree. What it prints is captured: a stream is either a capture,
a file, or nothing. A clock of its own, which only waiting moves, tells when a script has used up
its time.

This is a part of the stand-in for the system's shell, see `Galley.Shell.Programs`.
-/
namespace Galley.Shell

open Galley.Host (FileTree Location)

/-- Where a descriptor leads. -/
inductive Stream where
  | capture (index : Nat)
  | file (location : Location)
  /-- What is written here is lost. -/
  | nothing
deriving DecidableEq, Repr

/-- What ends a script, or a part of it, before its end. -/
inductive Exit where
  | script
  | function
  /-- Goes on behind so many loops. -/
  | leave (loops : Nat)
  /-- Goes on with the next turn of the loop so many loops out. -/
  | again (loops : Nat)
  /-- A signal ended the process. -/
  | killed (process : Nat) (signal : Nat)
  /-- The time is used up. -/
  | late
deriving DecidableEq, Repr

structure State where
  tree : FileTree
  current : Location
  /-- What was printed: first what went to the output, then what went to the errors. -/
  captures : Array ByteArray
  /-- What there still is to read. -/
  input : ByteArray
  output : Stream
  errors : Stream
  /-- Nanoseconds. -/
  clock : Nat
  /-- When a part that nobody waits for is over. -/
  busyUntil : Nat
  limit : Option Nat
  process : Nat
  lastProcess : Nat
  /-- What the script calls itself. -/
  name : String
  /-- What complaints of parts that the script takes in from elsewhere begin with. -/
  within : String
  arguments : List String
  bindings : List (String × String)
  /-- The variables that other programs see. -/
  exported : List String
  functions : List (String × Command)
  status : Nat
  line : Nat
  /-- What a script still does when it ends. -/
  farewell : String
  /-- Whether a failure ends the script. -/
  strict : Bool
  /-- Whether an unset parameter ends the script. -/
  careful : Bool
  /-- Whether simple commands are shown before they are run. -/
  traced : Bool

/-- A step of a script. -/
abbrev Run := ExceptT Exit (StateM State)

namespace Run

/-- Runs a part with another way of going on when it ends early. -/
def handle {α : Type} (part : Run α) (onExit : Exit → Run α) : Run α :=
  ExceptT.tryCatch part onExit

/-! ### Variables -/

def lookup (name : String) : Run (Option String) := do
  return (← get).bindings.lookup name

def assign (name value : String) : Run Unit :=
  modify fun state =>
    { state with bindings := (name, value) :: state.bindings.filter (·.1 != name) }

def unassign (name : String) : Run Unit :=
  modify fun state => { state with bindings := state.bindings.filter (·.1 != name) }

def setStatus (status : Nat) : Run Unit := modify fun state => { state with status := status % 256 }

def exitWith {α : Type} (status : Nat) : Run α := do
  setStatus status
  throw .script

/-! ### Printing -/

/-- Puts bytes at the end of a file. -/
private def appendTo (tree : FileTree) (location : Location) (bytes : ByteArray) : FileTree :=
  match tree.get? location with
  | some (.directory _) => tree
  | some (.file old) => tree.set location (some (.file (old ++ bytes)))
  | none => tree

def emitTo (stream : Stream) (bytes : ByteArray) : Run Unit :=
  modify fun state =>
    match stream with
    | .nothing => state
    | .capture index => { state with captures := state.captures.modify index (· ++ bytes) }
    | .file location => { state with tree := appendTo state.tree location bytes }

def emit (bytes : ByteArray) : Run Unit := do emitTo (← get).output bytes

def print (text : String) : Run Unit := emit text.toUTF8

def complain (text : String) : Run Unit := do emitTo (← get).errors text.toUTF8

/-- A complaint of the script itself, with its name and line. -/
def complainAt (text : String) : Run Unit := do
  let state ← get
  complain (state.name ++ ": " ++ toString state.line ++ ": " ++ text ++ "\n")

/-- A complaint about what the script holds. -/
def complainOf (text : String) : Run Unit := do complainAt ((← get).within ++ text)

/-- Runs a part that comes from elsewhere. -/
def within (place : String) (part : Run Unit) : Run Unit := do
  let before := (← get).within
  modify fun state => { state with within := place }
  let finish : Run Unit := modify fun state => { state with within := before }
  handle (do part; finish) fun exit => do finish; throw exit

/-! ### Files -/

/-- Paths that lead to no file of the tree. -/
def isNowhere (path : String) : Bool := path == "/dev/null"

def stat (path : String) : Run (Except Host.Failure FileTree) := do
  let state ← get
  return (state.tree.find state.current path).map (·.2)

def readFile (path : String) : Run (Except Host.Failure ByteArray) := do
  if isNowhere path then return .ok ByteArray.empty
  let state ← get
  return state.tree.read state.current path

/-- Changes the tree, if that can be done. -/
def change (edit : FileTree → Location → Except Host.Failure FileTree) :
    Run (Except Host.Failure Unit) := do
  let state ← get
  match edit state.tree state.current with
  | .ok tree => do set { state with tree }; return .ok ()
  | .error reason => return .error reason

/-- The stream into a file, which is emptied first unless it is `kept`. -/
def openStream (path : String) (kept : Bool) : Run (Except Host.Failure Stream) := do
  if isNowhere path then return .ok .nothing
  let state ← get
  match state.tree.locateNew state.current path with
  | .error reason => return .error reason
  | .ok location =>
    if kept ∧ ¬ Path.endsWithSlash path ∧ (state.tree.get? location matches some (.file _)) then
      return .ok (.file location)
    match ← change fun tree current => tree.write current path ByteArray.empty with
    | .ok () => return .ok (.file location)
    | .error reason => return .error reason

/-! ### Parts -/

/-- Runs a part and gives back what it printed. -/
def captured (part : Run Unit) : Run ByteArray := do
  let before ← get
  let index := before.captures.size
  set { before with captures := before.captures.push ByteArray.empty, output := .capture index }
  let finish : Run ByteArray := do
    let after ← get
    let text := after.captures.getD index ByteArray.empty
    set { after with captures := after.captures.take index, output := before.output }
    return text
  handle (do part; finish) fun exit => do let _ ← finish; throw exit

/-- Runs a part as a process of its own: it shares the files and the clock, and what else it changes
is lost. -/
def forked (part : Run Unit) : Run Unit := do
  let before ← get
  let finish : Run Unit := modify fun after =>
    { before with
      tree := after.tree, captures := after.captures, input := after.input, clock := after.clock,
      busyUntil := after.busyUntil, lastProcess := after.lastProcess, status := after.status }
  handle (do part; finish) fun exit => do
    finish
    match exit with
    | .killed process signal => throw (.killed process signal)
    | .late => throw .late
    | _ => return ()

/-- Lets time go by. -/
def wait (nanos : Nat) : Run Unit := do
  modify fun state => { state with clock := state.clock + nanos }
  let state ← get
  match state.limit with
  | some limit => if limit ≤ state.clock then throw .late
  | none => return ()

/-- Runs the same part as long as it asks for another turn; a script that takes too many turns is
late. -/
def turns (part : Run Bool) : Nat → Run Unit
  | 0 => throw .late
  | fuel + 1 => do if ← part then turns part fuel

end Run
end Galley.Shell
