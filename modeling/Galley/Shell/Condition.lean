import Galley.Shell.Arithmetic
import Galley.Shell.State
/-!
# Conditions

Conditions compare texts and numbers and look at files. Up to three words are read by their number;
more of them are read with the operators for negation, conjunction and disjunction.

This is a part of the stand-in for the system's shell, see `Galley.Shell.Programs`.
-/
namespace Galley.Shell.Condition

/-- The operators that have one operand. -/
def unaryOperators : List String :=
  ["-n", "-z", "-e", "-f", "-d", "-s", "-r", "-w", "-x", "-L", "-h", "-t", "-p", "-b", "-c", "-S"]

/-- The operators that have two. -/
def binaryOperators : List String :=
  ["=", "!=", "<", ">", "-eq", "-ne", "-lt", "-le", "-gt", "-ge"]

def unary (operator operand : String) : Run Bool := do
  match operator with
  | "-n" => return !operand.isEmpty
  | "-z" => return operand.isEmpty
  | _ =>
    if Run.isNowhere operand then return ["-e", "-c", "-r", "-w"].contains operator
    match operator, ← Run.stat operand with
    | "-e", .ok _ => return true
    | "-f", .ok entry => return entry.isFile
    | "-d", .ok entry => return entry.isDirectory
    | "-s", .ok (.file bytes) => return !bytes.isEmpty
    | "-s", .ok (.directory _) => return true
    | "-r", .ok _ => return true
    | "-w", .ok _ => return true
    | "-x", .ok entry => return entry.isDirectory
    | _, _ => return false

/-- Gives up on words that are no condition. -/
def refuse {α : Type} (text : String) : Run α := do
  Run.complainAt ("[: " ++ text)
  Run.setStatus 2
  throw .function

private def integer (text : String) : Run Int := do
  match Arithmetic.integer? text with
  | some value => return value
  | none => refuse ("Illegal number: " ++ text)

def binary (operator left right : String) : Run Bool := do
  match operator with
  | "=" => return left == right
  | "!=" => return left != right
  | "<" => return left < right
  | ">" => return right < left
  | _ =>
    let (a, b) := (← integer left, ← integer right)
    match operator with
    | "-eq" => return a == b
    | "-ne" => return a != b
    | "-lt" => return a < b
    | "-le" => return a ≤ b
    | "-gt" => return b < a
    | _ => return b ≤ a

mutual

/-- A disjunction and what follows it. -/
def takeEither (fuel : Nat) (words : List String) : Run (Bool × List String) :=
  match fuel with
  | 0 => refuse "too deep"
  | fuel + 1 => do
    let (value, rest) ← takeBoth fuel words
    match rest with
    | "-o" :: rest =>
      let (other, rest) ← takeEither fuel rest
      return (value || other, rest)
    | _ => return (value, rest)

def takeBoth (fuel : Nat) (words : List String) : Run (Bool × List String) :=
  match fuel with
  | 0 => refuse "too deep"
  | fuel + 1 => do
    let (value, rest) ← takeSingle fuel words
    match rest with
    | "-a" :: rest =>
      let (other, rest) ← takeBoth fuel rest
      return (value && other, rest)
    | _ => return (value, rest)

def takeSingle (fuel : Nat) (words : List String) : Run (Bool × List String) :=
  match fuel with
  | 0 => refuse "too deep"
  | fuel + 1 => do
    match words with
    | [] => refuse "argument expected"
    | left :: operator :: right :: rest =>
      if binaryOperators.contains operator then return (← binary operator left right, rest)
      else takeOther fuel words
    | _ => takeOther fuel words

def takeOther (fuel : Nat) (words : List String) : Run (Bool × List String) :=
  match fuel with
  | 0 => refuse "too deep"
  | fuel + 1 => do
    match words with
    | "!" :: rest =>
      let (value, rest) ← takeSingle fuel rest
      return (!value, rest)
    | "(" :: rest =>
      match ← takeEither fuel rest with
      | (value, ")" :: rest) => return (value, rest)
      | _ => refuse "closing paren expected"
    | operator :: operand :: rest =>
      if unaryOperators.contains operator then return (← unary operator operand, rest)
      else return (!operator.isEmpty, operand :: rest)
    | [only] => return (!only.isEmpty, [])
    | [] => refuse "argument expected"

end

/-- Whether words hold as a condition. -/
def holds (words : List String) : Run Bool := do
  match words with
  | [] => return false
  | [only] => return !only.isEmpty
  | ["!", word] => return word.isEmpty
  | _ =>
    match ← takeEither (8 * words.length + 8) words with
    | (value, []) => return value
    | (_, rest) =>
      let last := words[words.length - rest.length - 1]?
      refuse (last.getD "" ++ ": unexpected operator")

/-- Tests a condition; the status tells the result. -/
def test (words : List String) : Run Unit := do
  let part : Run Unit := do
    let value ← holds words
    Run.setStatus (if value then 0 else 1)
  Run.handle part fun exit =>
    match exit with
    | .function => return ()
    | other => throw other

end Galley.Shell.Condition
