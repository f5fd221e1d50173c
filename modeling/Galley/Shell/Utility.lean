import Galley.Shell.Condition
import Galley.Shell.Format
/-!
# Utilities

The programs that scripts find under a plain name. Each prints to the streams of the script, changes
the files of the tree and leaves a status.

This is a part of the stand-in for the system's shell, see `Galley.Shell.Programs`.
-/
namespace Galley.Shell.Utility

open Galley.Host (FileTree)

/-- Tells what went wrong, and with what. -/
private def failWith (name text : String) (reason : Host.Failure) : Run Unit := do
  Run.complain (name ++ ": " ++ text ++ ": " ++ reason.text ++ "\n")
  Run.setStatus 1

private def quoted (path : String) : String :=
  let quote := (Char.ofNat 39).toString
  quote ++ path ++ quote

/-- Does something for each operand; the status is zero unless one of them fails. -/
private def forEach (operands : List String) (part : String → Run Unit) : Run Unit := do
  Run.setStatus 0
  for operand in operands do part operand

/-- The options in front of operands, and the operands. -/
def splitOptions (arguments : List String) : List Char × List String :=
  match arguments with
  | [] => ([], [])
  | "--" :: rest => ([], rest)
  | argument :: rest =>
    match argument.toList with
    | '-' :: c :: letters =>
      let (options, operands) := splitOptions rest
      (c :: letters ++ options, operands)
    | _ => ([], arguments)

/-! ### Reading -/

/-- Takes all that is left to read. -/
def takeInput : Run ByteArray := do
  let state ← get
  set { state with input := ByteArray.empty }
  return state.input

/-- The bytes that an operand names; a hyphen names what is left to read. -/
def contents (name : String) (operand : String) : Run (Option ByteArray) := do
  if operand = "-" then return some (← takeInput)
  match ← Run.readFile operand with
  | .ok bytes => return some bytes
  | .error reason =>
    failWith name operand reason
    return none

private def orInput (operands : List String) : List String :=
  if operands.isEmpty then ["-"] else operands

def cat (arguments : List String) : Run Unit :=
  forEach (orInput (splitOptions arguments).2) fun operand => do
    if let some bytes ← contents "cat" operand then Run.emit bytes

/-- The lines of bytes, each with the line end behind it. -/
def linesOf (bytes : ByteArray) : List (List UInt8) :=
  let step (b : UInt8) (lines : List (List UInt8)) : List (List UInt8) :=
    if b = 10 then [b] :: lines
    else
      match lines with
      | [] => [[b]]
      | line :: rest => (b :: line) :: rest
  bytes.toList.foldr step []

private def joinLines (lines : List (List UInt8)) : ByteArray := ⟨lines.flatten.toArray⟩

/-- The byte that an endless file repeats. -/
def endless? (operand : String) : Option UInt8 := if operand = "/dev/zero" then some 0 else none

/-- How much of a file is wanted: so many lines, or so many bytes. -/
structure Amount where
  count : Nat
  bytes : Bool

/-- The count that digits spell, or else the one there is. -/
def Amount.countOr (amount : Amount) (digits : List Char) : Nat :=
  (String.ofList digits).toNat?.getD amount.count

/-- The amount that arguments ask for, and the operands. -/
def takeAmount (amount : Amount) : List String → Amount × List String
  | "-n" :: count :: rest => takeAmount ⟨amount.countOr count.toList, false⟩ rest
  | "-c" :: count :: rest => takeAmount ⟨amount.countOr count.toList, true⟩ rest
  | argument :: rest =>
    match argument.toList with
    | '-' :: 'n' :: digits => takeAmount ⟨amount.countOr digits, false⟩ rest
    | '-' :: 'c' :: digits => takeAmount ⟨amount.countOr digits, true⟩ rest
    | '-' :: d :: digits => takeAmount ⟨amount.countOr (d :: digits), false⟩ rest
    | _ => (amount, argument :: rest)
  | [] => (amount, [])

def head (arguments : List String) : Run Unit := do
  let (amount, operands) := takeAmount ⟨10, false⟩ arguments
  forEach (orInput operands) fun operand => do
    if let some byte := (endless? operand).filter fun _ => amount.bytes then
      Run.emit ⟨Array.replicate amount.count byte⟩
    else if let some bytes ← contents "head" operand then
      Run.emit <|
        if amount.bytes then bytes.extract 0 amount.count
        else joinLines ((linesOf bytes).take amount.count)

def tail (arguments : List String) : Run Unit := do
  let (amount, operands) := takeAmount ⟨10, false⟩ arguments
  forEach (orInput operands) fun operand => do
    if let some bytes ← contents "tail" operand then
      let lines := linesOf bytes
      Run.emit <|
        if amount.bytes then bytes.extract (bytes.size - amount.count) bytes.size
        else joinLines (lines.drop (lines.length - amount.count))

private def padLeft (width n : Nat) : String :=
  let digits := toString n
  String.ofList (List.replicate (width - digits.length) ' ') ++ digits

/-- Counts lines, words and bytes. -/
def wc (arguments : List String) : Run Unit := do
  let (options, operands) := splitOptions arguments
  let options := if options.isEmpty then ['l', 'w', 'c'] else options
  forEach (orInput operands) fun operand => do
    if let some bytes ← contents "wc" operand then
      let wanted (option : Char) (n : Nat) : List Nat := if options.contains option then [n] else []
      let counts :=
        wanted 'l' (bytes.toList.count 10) ++
          wanted 'w' (Text.words (Text.shownText bytes)).length ++ wanted 'c' bytes.size
      let width :=
        if counts.length = 1 then 1
        else if operand = "-" then 7
        else (toString bytes.size).length
      let shown := Text.joinWith " " (counts.map (padLeft width))
      Run.print (shown ++ (if operands.isEmpty then "" else " " ++ operand) ++ "\n")

private def lineTexts (bytes : ByteArray) : List String := Text.lines (Text.shownText bytes)

def sort (arguments : List String) : Run Unit := do
  let (options, operands) := splitOptions arguments
  let mut lines : List String := []
  Run.setStatus 0
  for operand in orInput operands do
    if let some bytes ← contents "sort" operand then lines := lines ++ lineTexts bytes
  let number (line : String) : Nat :=
    ((String.ofList (line.toList.takeWhile Char.isDigit)).toNat?).getD 0
  let sorted := lines.mergeSort fun a b => a ≤ b
  let sorted :=
    if options.contains 'n' then sorted.mergeSort fun a b => number a ≤ number b else sorted
  let sorted := if options.contains 'u' then sorted.eraseDups else sorted
  let sorted := if options.contains 'r' then sorted.reverse else sorted
  Run.print (String.join (sorted.map (· ++ "\n")))

/-- The bytes of a set: ranges have a hyphen, and escapes are replaced. -/
private def bytesOfSet (set : String) : List UInt8 :=
  let (bytes, _) := Format.unescape (set.length + 1) set.toList
  let rec spread : List UInt8 → List UInt8
    | a :: 45 :: b :: rest =>
      (List.range (b.toNat + 1 - a.toNat)).map (fun n => (a.toNat + n).toUInt8) ++ spread rest
    | a :: rest => a :: spread rest
    | [] => []
  spread bytes.toList

/-- Replaces bytes of the first set by those of the second, or drops them. -/
def tr (arguments : List String) : Run Unit := do
  let bytes := (← takeInput).toList
  Run.setStatus 0
  match arguments with
  | ["-d", set] =>
    let dropped := bytesOfSet set
    Run.emit ⟨(bytes.filter (!dropped.contains ·)).toArray⟩
  | [first, second] =>
    let (old, new) := (bytesOfSet first, bytesOfSet second)
    let map (b : UInt8) : UInt8 :=
      match old.findIdx? (· == b) with
      | some i => (new[i]?).getD (new.getLast?.getD b)
      | none => b
    Run.emit ⟨(bytes.map map).toArray⟩
  | _ =>
    Run.complain "tr: missing operand\n"
    Run.setStatus 1

/-! ### Directories -/

private def namesOf (entries : List (String × FileTree)) (options : List Char) : List String :=
  let shown := (entries.map (·.1)).filter fun name =>
    options.contains 'a' || options.contains 'A' || !(name.toList.head? == some '.')
  let own := if options.contains 'a' then [".", ".."] else []
  own ++ shown.mergeSort fun a b => a ≤ b

private def printLines (lines : List String) : Run Unit :=
  Run.print (String.join (lines.map (· ++ "\n")))

/-- Lists files, and the names in directories. -/
def ls (arguments : List String) : Run Unit := do
  let (options, operands) := splitOptions arguments
  let operands := if operands.isEmpty then ["."] else operands.mergeSort fun a b => a ≤ b
  Run.setStatus 0
  let mut files : List String := []
  let mut directories : List (String × List String) := []
  for operand in operands do
    match ← Run.stat operand with
    | .ok (.directory entries) =>
      if options.contains 'd' then files := files ++ [operand]
      else directories := directories ++ [(operand, namesOf entries options)]
    | .ok (.file _) => files := files ++ [operand]
    | .error reason =>
      Run.complain ("ls: cannot access " ++ quoted operand ++ ": " ++ reason.text ++ "\n")
      Run.setStatus 2
  printLines files
  let mut first := files.isEmpty
  for (operand, names) in directories do
    if operands.length > 1 then
      if !first then Run.print "\n"
      Run.print (operand ++ ":\n")
    first := false
    printLines names

def mkdir (arguments : List String) : Run Unit := do
  let (options, operands) := splitOptions arguments
  forEach operands fun operand => do
    let result ← Run.change fun tree current =>
      if options.contains 'p' then tree.makeDirectories current operand
      else tree.makeDirectory current operand
    if let .error reason := result then
      failWith "mkdir" ("cannot create directory " ++ quoted operand) reason

def rmdir (arguments : List String) : Run Unit :=
  forEach (splitOptions arguments).2 fun operand => do
    let result ← Run.change fun tree current => do
      match (← tree.find current operand).2 with
      | .directory [] => tree.removeAll current operand
      | .directory _ => throw .notEmpty
      | .file _ => throw .notDirectory
    if let .error reason := result then
      failWith "rmdir" ("failed to remove " ++ quoted operand) reason

def rm (arguments : List String) : Run Unit := do
  let (options, operands) := splitOptions arguments
  let whole := options.contains 'r' || options.contains 'R'
  forEach operands fun operand => do
    let result ← Run.change fun tree current => do
      if (← tree.find current operand).2.isDirectory ∧ !whole then throw .isDirectory
      tree.removeAll current operand
    match result with
    | .ok () => pure ()
    | .error .notFound =>
      if !options.contains 'f' then failWith "rm" ("cannot remove " ++ quoted operand) .notFound
    | .error reason => failWith "rm" ("cannot remove " ++ quoted operand) reason

/-! ### Files -/

private def baseName (path : String) : String :=
  let pieces := (Text.splitOnChar '/' path).filter (!·.isEmpty)
  match pieces.getLast? with
  | some name => name
  | none => if path.isEmpty then "" else "/"

/-- Where a copy of a file goes: into a directory under its own name. -/
private def destination (source target : String) : Run String := do
  match ← Run.stat target with
  | .ok (.directory _) => return Path.join target (baseName source)
  | _ => return target

/-- Puts what a path leads to at another place. -/
private def place (name : String) (moved whole : Bool) (target source : String) : Run Unit := do
  match ← Run.stat source with
  | .error reason => failWith name ("cannot stat " ++ quoted source) reason
  | .ok entry =>
    if entry.isDirectory ∧ !whole then
      Run.complain (name ++ ": -r not specified; omitting directory " ++ quoted source ++ "\n")
      Run.setStatus 1
    else
      let target ← destination source target
      let result ← Run.change fun tree current => do
        let location ← tree.locate current target
        let tree ← if moved then tree.removeAll current source else pure tree
        return tree.set location (some entry)
      if let .error reason := result then
        failWith name ("cannot create regular file " ++ quoted target) reason

/-- Copies or moves files. -/
private def placeAll (name : String) (moved : Bool) (arguments : List String) : Run Unit := do
  let (options, operands) := splitOptions arguments
  let whole := moved || options.contains 'r' || options.contains 'R' || options.contains 'a'
  match operands.getLast? with
  | some target => forEach operands.dropLast (place name moved whole target)
  | none =>
    Run.complain (name ++ ": missing file operand\n")
    Run.setStatus 1

def cp (arguments : List String) : Run Unit := placeAll "cp" false arguments

def mv (arguments : List String) : Run Unit := placeAll "mv" true arguments

def touch (arguments : List String) : Run Unit :=
  forEach (splitOptions arguments).2 fun operand => do
    if let .error .notFound ← Run.stat operand then
      let result ← Run.change fun tree current => tree.write current operand ByteArray.empty
      if let .error reason := result then
        failWith "touch" ("cannot touch " ++ quoted operand) reason

/-- Copies what it reads to files and to its output. -/
def tee (arguments : List String) : Run Unit := do
  let (options, operands) := splitOptions arguments
  let bytes ← takeInput
  Run.emit bytes
  forEach operands fun operand => do
    match ← Run.openStream operand (options.contains 'a') with
    | .ok stream => Run.emitTo stream bytes
    | .error reason => failWith "tee" operand reason

/-! ### Texts -/

def basename (arguments : List String) : Run Unit := do
  Run.setStatus 0
  match arguments with
  | [path] => Run.print (baseName path ++ "\n")
  | path :: ending :: _ =>
    let name := baseName path
    let cut := (name.toList.reverse.drop ending.length).reverse
    let kept := ending.toList.isSuffixOf name.toList ∧ !cut.isEmpty
    Run.print ((if kept then String.ofList cut else name) ++ "\n")
  | [] =>
    Run.complain "basename: missing operand\n"
    Run.setStatus 1

def dirname (arguments : List String) : Run Unit := do
  Run.setStatus 0
  match arguments with
  | path :: _ =>
    let parent := Path.parent path
    Run.print ((if parent.isEmpty then "." else parent) ++ "\n")
  | [] =>
    Run.complain "dirname: missing operand\n"
    Run.setStatus 1

def seq (arguments : List String) : Run Unit := do
  let numbers := arguments.filterMap Arithmetic.integer?
  let (first, last) :=
    match numbers with
    | [last] => (1, last)
    | [first, last] => (first, last)
    | _ => (1, 0)
  let count := (last + 1 - first).toNat
  printLines ((List.range count).map fun (n : Nat) => toString (first + n))
  Run.setStatus 0

/-- More lines than a reader takes. -/
def plenty : Nat := 100000

/-- Repeats a line until its reader has enough; without a reader it never ends. -/
def yes (arguments : List String) : Run Unit := do
  let line := if arguments.isEmpty then "y" else Text.joinWith " " arguments
  match (← get).output with
  | .capture index =>
    if index < 2 then throw .late
    printLines (List.replicate plenty line)
    Run.setStatus 141
  | _ => throw .late

/-! ### Processes -/

/-- The nanoseconds that a text stands for, with a fraction and a unit. -/
def duration? (text : String) : Option Nat :=
  let cs := text.toList
  let whole := cs.takeWhile Char.isDigit
  let rest := cs.dropWhile Char.isDigit
  let (fraction, unit) :=
    match rest with
    | '.' :: more => (more.takeWhile Char.isDigit, more.dropWhile Char.isDigit)
    | _ => ([], rest)
  let scale :=
    match unit with
    | [] | ['s'] => some 1
    | ['m'] => some 60
    | ['h'] => some 3600
    | ['d'] => some 86400
    | _ => none
  let number (digits : List Char) : Nat := (String.ofList digits).toNat?.getD 0
  let billionths := number ((fraction ++ List.replicate 9 '0').take 9)
  if whole.isEmpty ∧ fraction.isEmpty then none
  else scale.map fun unit => (number whole * 1000000000 + billionths) * unit

def sleep (arguments : List String) : Run Unit := do
  let refuse (text : String) : Run Unit := do
    Run.complain
      ("sleep: " ++ text ++ "\nTry " ++ quoted "sleep --help" ++ " for more information.\n")
    Run.setStatus 1
  match arguments, arguments.find? fun argument => (duration? argument).isNone with
  | [], _ => refuse "missing operand"
  | _, some argument => refuse ("invalid time interval " ++ quoted argument)
  | _, none =>
    Run.wait ((arguments.filterMap duration?).foldl Nat.add 0)
    Run.setStatus 0

/-- What is said of a process that a signal ended; of some nothing is. -/
def endingText? : Nat → Option String
  | 1 => some "Hangup"
  | 3 => some "Quit"
  | 6 => some "Aborted"
  | 9 => some "Killed"
  | 10 => some "User defined signal 1"
  | 11 => some "Segmentation fault"
  | 12 => some "User defined signal 2"
  | 14 => some "Alarm clock"
  | 15 => some "Terminated"
  | _ => none

private def signals : List (String × Nat) :=
  [("HUP", 1), ("INT", 2), ("QUIT", 3), ("ABRT", 6), ("KILL", 9), ("USR1", 10), ("SEGV", 11),
    ("USR2", 12), ("PIPE", 13), ("ALRM", 14), ("TERM", 15)]

private def signal? (text : String) : Option Nat :=
  text.toNat? <|> signals.lookup text <|>
    signals.lookup (String.ofList (text.toList.drop (if text.startsWith "SIG" then 3 else 0)))

/-- Sends a signal to processes; the script's own is ended by it. -/
def kill (arguments : List String) : Run Unit := do
  let (signal, processes) :=
    match arguments with
    | "-s" :: name :: rest => (signal? name, rest)
    | first :: rest =>
      match first.toList with
      | '-' :: name => (signal? (String.ofList name), rest)
      | _ => (some 15, arguments)
    | [] => (some 15, [])
  Run.setStatus 0
  for text in processes do
    match text.toNat?, signal with
    | some process, some signal =>
      if signal ≠ 0 ∧ process ≤ (← get).process then throw (.killed process signal)
    | _, _ =>
      Run.complainAt ("kill: Illegal number: " ++ text)
      Run.setStatus 2

def pwd (_ : List String) : Run Unit := do
  Run.print ("/" ++ Text.joinWith "/" (← get).current ++ "\n")
  Run.setStatus 0

/-! ### Names -/

/-- A condition in brackets. -/
def bracket (arguments : List String) : Run Unit := do
  if arguments.getLast? = some "]" then Condition.test arguments.dropLast
  else
    Run.complainAt "[: missing ]"
    Run.setStatus 2

/-- The utilities by their names. -/
def all : List (String × (List String → Run Unit)) :=
  [("true", fun _ => Run.setStatus 0), ("false", fun _ => Run.setStatus 1),
    ("echo", Format.echoProgram), ("printf", Format.printf), ("test", Condition.test),
    ("[", bracket), ("cat", cat), ("head", head), ("tail", tail), ("wc", wc), ("sort", sort),
    ("tr", tr), ("ls", ls), ("mkdir", mkdir), ("rmdir", rmdir), ("rm", rm), ("cp", cp), ("mv", mv),
    ("touch", touch), ("tee", tee), ("basename", basename), ("dirname", dirname), ("seq", seq),
    ("sleep", sleep), ("yes", yes), ("kill", kill), ("pwd", pwd)]

def find? (name : String) : Option (List String → Run Unit) := all.lookup name

end Galley.Shell.Utility
