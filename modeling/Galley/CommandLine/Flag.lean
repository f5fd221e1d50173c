/-!
# Flags and operands

A command line is a row of words. A word with two hyphens names a flag, a word with one hyphen names
flags by their letters, and all other words are operands. The value of a flag stands behind an
equals sign or in the next word; behind a word of two hyphens alone all words are operands.
-/
namespace Galley.CommandLine

/-- What a value may be. -/
inductive ValueKind where
  | text
  /-- A path is never empty. -/
  | path
  | choice (names : List String)
deriving DecidableEq, Repr

structure Flag where
  name : String
  letter : Option Char
  /-- None for a flag that has no value. -/
  value : Option ValueKind
deriving DecidableEq, Repr

/-- Why a command line cannot be used. -/
inductive UsageFault where
  | unknownFlag (word : String)
  | unwantedOperand (word : String)
  | unknownCommand (word : String)
  | missingCommand
  | missingOperand (name : String)
  | missingFlag (name : String)
  | missingValue (flag : String)
  | unwantedValue (flag : String)
  | invalidValue (name value : String)
  | repeated (flag : String)
deriving DecidableEq, Repr

/-- What ends the reading of a command line early. -/
inductive Stop where
  | fault (fault : UsageFault)
  | help
  | version
deriving DecidableEq, Repr

def UsageFault.message : UsageFault → String
  | .unknownFlag word => "unexpected argument " ++ word
  | .unwantedOperand word => "unexpected argument " ++ word
  | .unknownCommand word => "unrecognized subcommand " ++ word
  | .missingCommand => "a subcommand is required"
  | .missingOperand name => "the argument <" ++ name ++ "> was not provided"
  | .missingFlag name => "the argument --" ++ name ++ " was not provided"
  | .missingValue flag => "a value is required for --" ++ flag ++ " but none was supplied"
  | .unwantedValue flag => "--" ++ flag ++ " takes no value"
  | .invalidValue name value => "invalid value " ++ value ++ " for " ++ name
  | .repeated flag => "the argument --" ++ flag ++ " cannot be used multiple times"

/-- Flags with their values, and operands, in order. -/
structure Found where
  flags : List (String × String)
  operands : List String
deriving DecidableEq, Repr

namespace Found

def empty : Found := ⟨[], []⟩

def has (found : Found) (name : String) : Bool := found.flags.any (·.1 == name)

def value? (found : Found) (name : String) : Option String := found.flags.lookup name

end Found

/-! ### Values -/

def ValueKind.admits : ValueKind → String → Bool
  | .text, _ => true
  | .path, value => !value.isEmpty
  | .choice names, value => names.contains value

/-- Takes in a flag with its value. No flag stands twice. -/
def Found.addFlag (found : Found) (flag : Flag) (value : String) : Except Stop Found :=
  if flag.name = "help" then .error .help
  else if flag.name = "version" then .error .version
  else if !(flag.value.getD .text).admits value then
    .error (.fault (.invalidValue flag.name value))
  else if found.has flag.name then .error (.fault (.repeated flag.name))
  else .ok { found with flags := found.flags ++ [(flag.name, value)] }

/-- Takes in an operand. There are only so many, and each is a path. -/
def Found.addOperand (found : Found) (wanted : List String) (word : String) : Except Stop Found :=
  match wanted[found.operands.length]? with
  | some name =>
    if ValueKind.path.admits word then .ok { found with operands := found.operands ++ [word] }
    else .error (.fault (.invalidValue name word))
  | none => .error (.fault (.unwantedOperand word))

/-! ### Words -/

/-- The value of a flag that stands in the next word; a word that looks like a flag is none. -/
def nextValue (flag : Flag) : List String → Except Stop (String × List String)
  | [] => .error (.fault (.missingValue flag.name))
  | word :: rest =>
    match word.toList with
    | '-' :: _ :: _ => .error (.fault (.missingValue flag.name))
    | _ => .ok (word, rest)

/-- Takes a flag by its name; `value` stood behind an equals sign. -/
def takeLong (flags : List Flag) (found : Found) (name : String) (value : Option String)
    (rest : List String) : Except Stop (Found × List String) := do
  match flags.find? (·.name == name) with
  | none => throw (.fault (.unknownFlag ("--" ++ name)))
  | some flag =>
    match flag.value, value with
    | none, none => return (← found.addFlag flag "", rest)
    | none, some _ => throw (.fault (.unwantedValue name))
    | some _, some value => return (← found.addFlag flag value, rest)
    | some _, none =>
      let (value, rest) ← nextValue flag rest
      return (← found.addFlag flag value, rest)

/-- Takes the flags that a row of letters names; the value of one may follow it directly. -/
def takeLetters (flags : List Flag) (found : Found) (rest : List String) :
    List Char → Except Stop (Found × List String)
  | [] => return (found, rest)
  | c :: letters => do
    match flags.find? (·.letter == some c) with
    | none => throw (.fault (.unknownFlag ("-" ++ c.toString)))
    | some flag =>
      match flag.value, letters with
      | none, _ => takeLetters flags (← found.addFlag flag "") rest letters
      | some _, [] =>
        let (value, rest) ← nextValue flag rest
        return (← found.addFlag flag value, rest)
      | some _, '=' :: value => return (← found.addFlag flag (String.ofList value), rest)
      | some _, value => return (← found.addFlag flag (String.ofList value), rest)

/-- Takes a word that names flags; none if it is an operand. -/
def takeFlags? (flags : List Flag) (found : Found) (word : String) (rest : List String) :
    Option (Except Stop (Found × List String)) :=
  match word.toList with
  | '-' :: '-' :: long =>
    let name := String.ofList (long.takeWhile (· != '='))
    let value :=
      match long.dropWhile (· != '=') with
      | [] => none
      | _ :: value => some (String.ofList value)
    some (takeLong flags found name value rest)
  | '-' :: c :: letters => some (takeLetters flags found rest (c :: letters))
  | _ => none

/-- Reads the words of a command; `fuel` is at least their number. -/
def takeWords (flags : List Flag) (wanted : List String) (fuel : Nat) (found : Found)
    (words : List String) : Except Stop Found := do
  match fuel, words with
  | _, [] => return found
  | 0, _ => return found
  | fuel + 1, word :: rest =>
    if word = "--" then rest.foldlM (fun found word => found.addOperand wanted word) found
    else
      match takeFlags? flags found word rest with
      | some result =>
        let (found, rest) ← result
        takeWords flags wanted fuel found rest
      | none => takeWords flags wanted fuel (← found.addOperand wanted word) rest

/-- Reads the words in front of a command's name, and gives that name with what follows it. -/
def takeLeading (flags : List Flag) (fuel : Nat) (found : Found) (words : List String) :
    Except Stop (Found × String × List String) := do
  match fuel, words with
  | _, [] => throw (.fault .missingCommand)
  | 0, _ => throw (.fault .missingCommand)
  | fuel + 1, word :: rest =>
    if word = "--" then
      throw (.fault (match rest with
        | [] => .missingCommand
        | word :: _ => .unwantedOperand word))
    else
      match takeFlags? flags found word rest with
      | some result =>
        let (found, rest) ← result
        takeLeading flags fuel found rest
      | none => return (found, word, rest)

end Galley.CommandLine
