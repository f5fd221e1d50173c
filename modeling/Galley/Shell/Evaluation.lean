import Galley.Shell.Expansion
import Galley.Shell.Utility
/-!
# Evaluating commands

One step evaluates a command, given a way to run its parts. Where a command is `tested`, its failure
decides something and does not end a strict script.

This is a part of the stand-in for the system's shell, see `Galley.Shell.Programs`.
-/
namespace Galley.Shell.Evaluation

open Galley.Shell.Expansion (Printer)

/-- How the parts of commands are run. -/
abbrev Runner := (tested : Bool) → Command → Run Unit

/-- Ends a strict script after a failure. -/
def checkStatus (tested : Bool) : Run Unit := do
  let state ← get
  if state.strict ∧ !tested ∧ state.status ≠ 0 then throw .script

/-- Runs the text of a script, line by line. -/
def runText (runner : Runner) (text : String) : Run Unit := do
  let (commands, fault) := Command.ofScript text
  commands.forM (runner false)
  match fault with
  | none => return ()
  | some fault =>
    modify fun state => { state with line := fault.line }
    Run.complainOf ("Syntax error: " ++ fault.text)
    Run.exitWith 2

/-- What a script in a word prints. -/
def printer (runner : Runner) : Printer := fun script =>
  Run.captured (Run.forked do
    Run.setStatus 0
    runText runner script)

/-! ### Redirections -/

private def setStream (descriptor : Nat) (stream : Stream) : Run Unit :=
  modify fun state =>
    match descriptor with
    | 1 => { state with output := stream }
    | 2 => { state with errors := stream }
    | _ => state

/-- The script's own wording of a failure to open a file. -/
def openingText (verb path : String) (reason : Host.Failure) : String :=
  let text :=
    match reason with
    | .notFound | .notDirectory => if verb = "open" then "No such file" else "Directory nonexistent"
    | _ => reason.text
  "cannot " ++ verb ++ " " ++ path ++ ": " ++ text

private def refuseOpening (verb path : String) (reason : Host.Failure) : Run Bool := do
  Run.complainOf (openingText verb path reason)
  return false

/-- Does as a redirection says; false if that fails. -/
def redirect (runner : Runner) : Redirection → Run Bool
  | .file _ .reading word => do
    let path ← Expansion.expandText (printer runner) word
    match ← Run.readFile path with
    | .ok bytes =>
      modify fun state => { state with input := bytes }
      return true
    | .error reason => refuseOpening "open" path reason
  | .file descriptor opening word => do
    let path ← Expansion.expandText (printer runner) word
    match ← Run.openStream path (opening == .appending) with
    | .ok stream =>
      setStream descriptor stream
      return true
    | .error reason => refuseOpening "create" path reason
  | .same descriptor word => do
    let state ← get
    match ← Expansion.expandText (printer runner) word with
    | "1" => setStream descriptor state.output
    | "2" => setStream descriptor state.errors
    | "-" =>
      if descriptor = 0 then modify fun state => { state with input := ByteArray.empty }
      else setStream descriptor .nothing
    | _ => pure ()
    return true
  | .document word => do
    let text ← Expansion.expandText (printer runner) word
    modify fun state => { state with input := text.toUTF8 }
    return true

def redirectAll (runner : Runner) : List Redirection → Run Bool
  | [] => return true
  | first :: rest => do if ← redirect runner first then redirectAll runner rest else return false

private def redirectsInput : Redirection → Bool
  | .file descriptor _ _ => descriptor == 0
  | .same descriptor _ => descriptor == 0
  | .document _ => true

/-- Runs a part under redirections. -/
def withRedirections (runner : Runner) (redirections : List Redirection) (part : Run Unit) :
    Run Unit := do
  if redirections.isEmpty then part
  else
    let before ← get
    let finish : Run Unit := modify fun after =>
      { after with
        output := before.output, errors := before.errors,
        input := if redirections.any redirectsInput then before.input else after.input }
    let whole : Run Unit := do
      if ← redirectAll runner redirections then part else Run.setStatus 2
    Run.handle (do whole; finish) fun exit => do finish; throw exit

/-! ### Loops -/

/-- Runs the body of a loop; false if the loop is over. -/
def turn (body : Run Unit) : Run Bool :=
  Run.handle (do body; return true) fun exit =>
    match exit with
    | .leave loops => if loops ≤ 1 then return false else throw (.leave (loops - 1))
    | .again loops => if loops ≤ 1 then return true else throw (.again (loops - 1))
    | other => throw other

/-- The number of turns that a loop may take. -/
def turnLimit : Nat := 1000000

def runLoop (runner : Runner) (wanted : Bool) (condition body : Command) : Run Unit := do
  let oneTurn : Run Bool := do
    runner true condition
    let succeeded := (← get).status = 0
    if succeeded = wanted then turn (runner false body)
    else
      Run.setStatus 0
      return false
  Run.turns oneTurn turnLimit

def runEach (runner : Runner) (name : String) (body : Command) : List String → Run Unit
  | [] => return ()
  | value :: rest => do
    Run.assign name value
    if ← turn (runner false body) then runEach runner name body rest

/-! ### Arms -/

/-- Whether one of the patterns of an arm fits. -/
def armFits (runner : Runner) (subject : String) : List Word → Run Bool
  | [] => return false
  | word :: rest => do
    let pattern ← Expansion.expandPattern (printer runner) word
    if pattern.fits subject.toList then return true else armFits runner subject rest

def runArms (runner : Runner) (tested : Bool) (subject : String) :
    List (List Word × Command) → Run Unit
  | [] => Run.setStatus 0
  | (patterns, body) :: rest => do
    if ← armFits runner subject patterns then runner tested body
    else runArms runner tested subject rest

/-! ### Pipelines -/

/-- Runs commands, each on what the one before it printed. -/
def runPipeline (runner : Runner) : List Command → Run Unit
  | [] => return ()
  | [last] => Run.forked (runner true last)
  | first :: rest => do
    let bytes ← Run.captured (Run.forked (runner true first))
    let before ← get
    set { before with input := bytes }
    runPipeline runner rest
    modify fun after => { after with input := before.input }

/-! ### Programs -/

/-- How a shell is to be started. -/
structure Start where
  /-- The text of a script, or the file that holds it; what there is to read if both are missing. -/
  text : Option String
  file : Option String
  arguments : List String
  options : List Char

/-- The options that a shell was started with, and what follows them. -/
def takeOptions : List String → Option (List Char × List String)
  | [] => some ([], [])
  | "--" :: rest => some ([], rest)
  | argument :: rest =>
    match argument.toList with
    | '-' :: c :: letters =>
      if (c :: letters).all fun letter => "ceufnvxsi".toList.contains letter then
        (takeOptions rest).map fun found => (c :: letters ++ found.1, found.2)
      else none
    | _ => some ([], argument :: rest)

/-- The letter of an argument that is no option. -/
private def illegalOption (arguments : List String) : String :=
  let letters := (arguments.filter fun argument => argument.startsWith "-").flatMap fun argument =>
    argument.toList.drop 1
  ((letters.find? fun letter => !"ceufnvxsi".toList.contains letter).getD '-').toString

def Start.ofArguments (arguments : List String) : Except String Start :=
  match takeOptions arguments with
  | none => .error ("Illegal option -" ++ illegalOption arguments)
  | some (options, rest) =>
    if options.contains 'c' then
      match rest with
      | text :: arguments => .ok ⟨some text, none, arguments, options⟩
      | [] => .error "-c requires an argument"
    else
      match rest with
      | file :: arguments =>
        if options.contains 's' then .ok ⟨none, none, rest, options⟩
        else .ok ⟨none, some file, file :: arguments, options⟩
      | [] => .ok ⟨none, none, [], options⟩

/-- Runs a script in a new state; the shell calls itself `shell` until it knows the script's
name. -/
def runShell (runner : Runner) (shell : String) (arguments : List String) : Run Unit := do
  modify fun state =>
    { state with
      bindings := state.bindings.filter fun entry => state.exported.contains entry.1,
      functions := [], status := 0, line := 0, farewell := "", name := shell, within := "",
      arguments := [], strict := false, careful := false, traced := false,
      process := state.process + 1 }
  match Start.ofArguments arguments with
  | .error text =>
    Run.complainAt text
    Run.exitWith 2
  | .ok start =>
    let text ←
      match start.text, start.file with
      | some text, _ => pure text
      | none, some path =>
        match ← Run.readFile path with
        | .ok bytes => pure (Text.shownText bytes)
        | .error reason =>
          Run.complainAt (openingText "open" path reason)
          Run.exitWith 2
      | none, none => pure (Text.shownText (← Utility.takeInput))
    modify fun state =>
      { state with
        name := start.arguments.head?.getD shell, arguments := start.arguments.drop 1,
        strict := start.options.contains 'e', careful := start.options.contains 'u',
        traced := start.options.contains 'x' }
    let ending : Run Unit := do
      let state ← get
      set { state with farewell := "" }
      if !state.farewell.isEmpty then
        runText runner state.farewell
        Run.setStatus state.status
    Run.handle (do runText runner text; ending) fun exit => do
      if exit = .script then ending
      throw exit

/-- The same as a process of its own. -/
def forkShell (runner : Runner) (shell : String) (arguments : List String) : Run Unit := do
  let process := (← get).process + 1
  Run.handle (Run.forked (runShell runner shell arguments)) fun exit =>
    match exit with
    | .killed killed signal => do
      if killed ≠ process then throw exit
      if let some text := Utility.endingText? signal then Run.complain (text ++ "\n")
      Run.setStatus (128 + signal)
    | other => throw other

/-- The names of the shell itself. -/
def shellNames : List String := ["sh", "dash"]

/-- The plain name of a program in one of the directories for programs. -/
def plainName (path : String) : String :=
  match (["/bin/", "/usr/bin/"] : List String).find? fun directory => path.startsWith directory with
  | some directory => String.ofList (path.toList.drop directory.length)
  | none => path

/-- Whether there is a program of a name. -/
def isProgram (name : String) : Bool :=
  shellNames.contains (plainName name) || (Utility.find? (plainName name)).isSome

/-- Runs a program that is neither a function nor part of the shell. -/
def runProgram (runner : Runner) (name : String) (arguments : List String) : Run Unit := do
  let plain := plainName name
  if shellNames.contains plain then forkShell runner name arguments
  else
    match Utility.find? plain with
    | some utility => utility arguments
    | none =>
      if name.toList.contains '/' then
        match ← Run.stat name with
        | .ok _ =>
          Run.complainOf (name ++ ": Permission denied")
          Run.setStatus 126
        | .error _ =>
          Run.complainOf (name ++ ": not found")
          Run.setStatus 127
      else
        Run.complainOf (name ++ ": not found")
        Run.setStatus 127

/-! ### Parts of the shell -/

private def countOf (name : String) (arguments : List String) (otherwise : Nat) : Run Nat := do
  match arguments with
  | [] => return otherwise
  | text :: _ =>
    match text.toNat? with
    | some n => return n
    | none =>
      Run.complainAt (name ++ ": Illegal number: " ++ text)
      Run.exitWith 2

/-- Sets options, or the arguments behind two hyphens. -/
def setOptions : List String → Run Unit
  | [] => return ()
  | "--" :: rest => modify fun state => { state with arguments := rest }
  | option :: rest => do
    match option.toList with
    | '-' :: letters =>
      modify fun state =>
        { state with
          strict := state.strict || letters.contains 'e',
          careful := state.careful || letters.contains 'u',
          traced := state.traced || letters.contains 'x' }
      setOptions rest
    | '+' :: letters =>
      modify fun state =>
        { state with
          strict := state.strict && !letters.contains 'e',
          careful := state.careful && !letters.contains 'u',
          traced := state.traced && !letters.contains 'x' }
      setOptions rest
    | _ => modify fun state => { state with arguments := option :: rest }

private def splitSetting (text : String) : String × Option String :=
  let name := text.toList.takeWhile (· != '=')
  if name.length < text.length then
    (String.ofList name, some (String.ofList (text.toList.drop (name.length + 1))))
  else (text, none)

/-- Sets variables of the form `name=value`. -/
def declare (exported : Bool) (arguments : List String) : Run Unit := do
  Run.setStatus 0
  for argument in arguments do
    let (name, value) := splitSetting argument
    if let some value := value then Run.assign name value
    if exported then modify fun state => { state with exported := name :: state.exported }

def changeDirectory (path : String) : Run Unit := do
  let state ← get
  match state.tree.find state.current path with
  | .ok (location, .directory _) =>
    set { state with current := location }
    Run.assign "PWD" ("/" ++ Text.joinWith "/" location)
    Run.setStatus 0
  | _ =>
    Run.complainAt ("cd: can" ++ (Char.ofNat 39).toString ++ "t cd to " ++ path)
    Run.setStatus 2

/-- Gives the words of a line to variables, the last one all that is left. -/
def assignFields : List String → List String → Run Unit
  | [], _ => return ()
  | [name], fields => Run.assign name (Text.joinWith " " fields)
  | name :: names, fields => do
    Run.assign name (fields.head?.getD "")
    assignFields names (fields.drop 1)

def readLine (names : List String) : Run Unit := do
  let state ← get
  match Utility.linesOf state.input with
  | [] =>
    assignFields names []
    Run.setStatus 1
  | line :: rest =>
    set { state with input := ⟨rest.flatten.toArray⟩ }
    let text := Text.shownText ⟨(line.filter (· != 10)).toArray⟩
    assignFields (names.filter (· != "-r")) (Text.words text)
    Run.setStatus (if line.getLast? = some 10 then 0 else 1)

/-- Calls a function. -/
def callFunction (runner : Runner) (body : Command) (arguments : List String) : Run Unit := do
  let before ← get
  set { before with arguments }
  let finish : Run Unit := modify fun after => { after with arguments := before.arguments }
  Run.handle (do runner false body; finish) fun exit => do
    finish
    match exit with
    | .function => return ()
    | other => throw other

mutual

/-- Runs a command by its name; `fuel` bounds how many names stand in front of each other. -/
def runNamed (runner : Runner) (fuel : Nat) (name : String) (arguments : List String) : Run Unit :=
  match fuel with
  | 0 => throw .late
  | fuel + 1 => do
    match (← get).functions.lookup name with
    | some body => callFunction runner body arguments
    | none => runPlain runner fuel name arguments

/-- The same without regard to functions. -/
def runPlain (runner : Runner) (fuel : Nat) (name : String) (arguments : List String) : Run Unit :=
  match fuel with
  | 0 => throw .late
  | fuel + 1 =>
    match name with
    | ":" => Run.setStatus 0
    | "exit" => do Run.exitWith (← countOf name arguments (← get).status)
    | "return" => do
      Run.setStatus (← countOf name arguments (← get).status)
      throw .function
    | "break" => do throw (.leave (← countOf name arguments 1))
    | "continue" => do throw (.again (← countOf name arguments 1))
    | "echo" => Format.echo arguments
    | "cd" => changeDirectory (arguments.head?.getD "/")
    | "set" => do
      setOptions arguments
      Run.setStatus 0
    | "shift" => do
      let count ← countOf name arguments 1
      if (← get).arguments.length < count then
        Run.complainAt ("shift: can" ++ (Char.ofNat 39).toString ++ "t shift that many")
        Run.exitWith 2
      modify fun state => { state with arguments := state.arguments.drop count }
      Run.setStatus 0
    | "unset" => do
      Run.setStatus 0
      for argument in arguments do Run.unassign argument
    | "export" => declare true arguments
    | "local" | "readonly" => declare false arguments
    | "read" => readLine arguments
    | "eval" => do
      Run.setStatus 0
      Run.within "eval: " (runText runner (Text.joinWith " " arguments))
    | "." => do
      let path := arguments.head?.getD ""
      match ← Run.readFile path with
      | .ok bytes =>
        Run.handle (Run.within (path ++ ": ") (runText runner (Text.shownText bytes))) fun exit =>
          match exit with
          | .function => return ()
          | other => throw other
      | .error reason =>
        Run.complainAt (".: " ++ openingText "open" path reason)
        Run.exitWith 2
    | "exec" => do
      match arguments with
      | [] => Run.setStatus 0
      | program :: arguments =>
        if shellNames.contains (plainName program) then
          modify fun state => { state with process := state.process - 1 }
          runShell runner program arguments
        else Run.within "exec: " (runProgram runner program arguments)
        throw .script
    | "command" => do
      match arguments with
      | "-v" :: program :: _ =>
        if isProgram program then
          Run.print (program ++ "\n")
          Run.setStatus 0
        else Run.setStatus 127
      | program :: arguments => runPlain runner fuel program arguments
      | [] => Run.setStatus 0
    | "env" => do
      let settings := arguments.takeWhile fun argument => argument.toList.contains '='
      match arguments.drop settings.length with
      | program :: rest =>
        Run.forked do
          declare true settings
          if isProgram program then
            runProgram runner program rest
          else
            let quote := (Char.ofNat 39).toString
            Run.complain ("env: " ++ quote ++ program ++ quote ++ ": " ++
              Host.Failure.notFound.text ++ "\n")
            Run.setStatus 127
      | [] => Run.setStatus 0
    | "trap" => do
      Run.setStatus 0
      match arguments with
      | "-" :: _ => modify fun state => { state with farewell := "" }
      | text :: signals =>
        if signals.any fun signal => signal == "EXIT" || signal == "0" then
          modify fun state => { state with farewell := text }
      | [] => return ()
    | "umask" | "wait" | "ulimit" | "hash" | "times" => Run.setStatus 0
    | _ => runProgram runner name arguments

end

/-! ### Commands -/

/-- Sets variables for one command, which other programs see. -/
def withSettings (settings : List (String × String)) (part : Run Unit) : Run Unit := do
  if settings.isEmpty then part
  else
    let before ← get
    for (name, value) in settings do Run.assign name value
    modify fun state => { state with exported := settings.map (·.1) ++ state.exported }
    let finish : Run Unit := modify fun after =>
      { after with bindings := before.bindings, exported := before.exported }
    Run.handle (do part; finish) fun exit => do finish; throw exit

private def expandSettings (runner : Runner) :
    List (String × Word) → Run (List (String × String))
  | [] => return []
  | (name, word) :: rest => do
    let value ← Expansion.expandText (printer runner) word
    return (name, value) :: (← expandSettings runner rest)

/-- Sets variables one after the other, and gives back what they were set to. -/
private def assignSettings (runner : Runner) :
    List (String × Word) → Run (List (String × String))
  | [] => return []
  | (name, word) :: rest => do
    let value ← Expansion.expandText (printer runner) word
    Run.assign name value
    return (name, value) :: (← assignSettings runner rest)

/-- Shows a simple command in a script that is traced. -/
def trace (settings : List (String × String)) (fields : List String) : Run Unit := do
  if (← get).traced then
    let shown := settings.map (fun setting => setting.1 ++ "=" ++ setting.2) ++ fields
    Run.complain ("+ " ++ Text.joinWith " " shown ++ "\n")

def runSimple (runner : Runner) (settings : List (String × Word)) (words : List Word)
    (redirections : List Redirection) : Run Unit := do
  let fields ← Expansion.expandWords (printer runner) words
  match fields with
  | [] =>
    if words.isEmpty then Run.setStatus 0
    withRedirections runner redirections do
      let settings ← assignSettings runner settings
      if !settings.isEmpty then trace settings []
  | name :: arguments =>
    let settings ← expandSettings runner settings
    trace settings fields
    if name = "exec" ∧ arguments.isEmpty then
      if ← redirectAll runner redirections then Run.setStatus 0 else Run.exitWith 2
    else
      withRedirections runner redirections do
        withSettings settings do
          runNamed runner 8 name arguments

/-- Evaluates a command. -/
def step (runner : Runner) (tested : Bool) : Command → Run Unit
  | .run line settings words redirections => do
    modify fun state => { state with line }
    runSimple runner settings words redirections
    checkStatus tested
  | .redirected command redirections =>
    withRedirections runner redirections (runner tested command)
  | .pipeline commands => do
    runPipeline runner commands
    checkStatus tested
  | .negated command => do
    runner true command
    Run.setStatus (if (← get).status = 0 then 1 else 0)
  | .both first second => do
    runner true first
    if (← get).status = 0 then runner tested second
  | .either first second => do
    runner true first
    if (← get).status ≠ 0 then runner tested second
  | .row commands => commands.forM (runner tested)
  | .inner body => do
    Run.forked (runner tested body)
    checkStatus tested
  | .detached command => do
    let before ← get
    Run.forked (runner true command)
    modify fun after =>
      { after with
        clock := before.clock, busyUntil := max before.busyUntil after.clock,
        lastProcess := before.process + 1, status := 0 }
  | .choice condition yes no => do
    runner true condition
    if (← get).status = 0 then runner tested yes
    else
      Run.setStatus 0
      runner tested no
  | .loop wanted condition body => runLoop runner wanted condition body
  | .each name words body => do
    let values ←
      match words with
      | some words => Expansion.expandWords (printer runner) words
      | none => pure (← get).arguments
    Run.setStatus 0
    runEach runner name body values
  | .select subject arms => do
    let text ← Expansion.expandText (printer runner) subject
    runArms runner tested text arms
  | .define name body => do
    modify fun state => { state with functions := (name, body) :: state.functions }
    Run.setStatus 0

/-- Runs a command whose parts are not deeper than `fuel`. -/
def run : (fuel : Nat) → Runner
  | 0, _, _ => throw .late
  | fuel + 1, tested, command => step (run fuel) tested command

end Galley.Shell.Evaluation
