import Galley.Shell.Arithmetic
import Galley.Shell.State
/-!
# Formatted printing

A format is a text with escapes and directives, each of which takes an argument. As long as there
are arguments left, the format is used once more.

This is a part of the stand-in for the system's shell, see `Galley.Shell.Programs`.
-/
namespace Galley.Shell.Format

/-! ### Escapes -/

private def isOctal (c : Char) : Bool := '0' ≤ c && c ≤ '7'

private def octalByte (digits : List Char) : ByteArray :=
  ⟨#[(digits.foldl (fun (n : Nat) (c : Char) => n * 8 + (c.toNat - 48)) 0).toUInt8]⟩

/-- The character that a letter behind a backslash stands for. -/
def letter? : Char → Option Char
  | 'a' => some (Char.ofNat 7)
  | 'b' => some (Char.ofNat 8)
  | 'e' => some (Char.ofNat 27)
  | 'f' => some (Char.ofNat 12)
  | 'n' => some '\n'
  | 'r' => some '\r'
  | 't' => some '\t'
  | 'v' => some (Char.ofNat 11)
  | '\\' => some '\\'
  | _ => none

/-- What follows a backslash in a format: the bytes and the rest. -/
def takeEscape (cs : List Char) : ByteArray × List Char :=
  match cs with
  | [] => ("\\".toUTF8, [])
  | c :: rest =>
    if isOctal c then
      let digits := (cs.take 3).takeWhile isOctal
      (octalByte digits, cs.drop digits.length)
    else
      match letter? c with
      | some found => (found.toString.toUTF8, rest)
      | none => (("\\" ++ c.toString).toUTF8, rest)

/-- A text with its escapes replaced, and whether it ended at an escape that ends all output. Octal
numbers have a zero in front. -/
def unescape (fuel : Nat) (cs : List Char) : ByteArray × Bool :=
  match fuel, cs with
  | 0, _ => (ByteArray.empty, false)
  | _, [] => (ByteArray.empty, false)
  | fuel + 1, c :: rest =>
    let go (bytes : ByteArray) (after : List Char) : ByteArray × Bool :=
      let (more, ended) := unescape fuel after
      (bytes ++ more, ended)
    if c = '\\' then
      match rest with
      | 'c' :: _ => (ByteArray.empty, true)
      | '0' :: more =>
        let digits := (more.take 3).takeWhile isOctal
        go (octalByte digits) (more.drop digits.length)
      | _ =>
        let (bytes, after) := takeEscape rest
        go bytes after
    else go c.toString.toUTF8 rest

/-! ### Directives -/

structure Directive where
  left : Bool
  zeros : Bool
  plus : Bool
  width : Nat
  precision : Option Nat
  kind : Char

/-- The directive behind a percent sign. -/
def takeDirective (cs : List Char) : Option (Directive × List Char) :=
  let isFlag (c : Char) : Bool := "-+ 0#".toList.contains c
  let flags := cs.takeWhile isFlag
  let rest := cs.dropWhile isFlag
  let width := rest.takeWhile Char.isDigit
  let rest := rest.dropWhile Char.isDigit
  let (precision, rest) :=
    match rest with
    | '.' :: more =>
      (some (((String.ofList (more.takeWhile Char.isDigit)).toNat?).getD 0),
        more.dropWhile Char.isDigit)
    | _ => (none, rest)
  match rest with
  | kind :: rest =>
    some (⟨flags.contains '-', flags.contains '0', flags.contains '+',
      ((String.ofList width).toNat?).getD 0, precision, kind⟩, rest)
  | [] => none

/-- Fills bytes up to the width of a directive. -/
def pad (directive : Directive) (bytes : ByteArray) : ByteArray :=
  let missing := directive.width - bytes.size
  let blanks := (String.ofList (List.replicate missing ' ')).toUTF8
  if directive.left then bytes ++ blanks else blanks ++ bytes

/-- A number in a base, with the zeros that a directive asks for. -/
def numberBytes (directive : Directive) (value : Int) : ByteArray :=
  let base := if directive.kind = 'o' then 8 else if directive.kind ∈ ['x', 'X'] then 16 else 10
  let digits := Nat.toDigits base value.natAbs
  let digits := if directive.kind = 'X' then digits.map Char.toUpper else digits
  let sign := if value < 0 then ['-'] else if directive.plus then ['+'] else []
  let wanted :=
    match directive.precision with
    | some n => n
    | none => if directive.zeros ∧ !directive.left then directive.width - sign.length else 0
  let zeros := List.replicate (wanted - digits.length) '0'
  pad directive (String.ofList (sign ++ zeros ++ digits)).toUTF8

/-- The number that an argument stands for; a quote stands for the code of what follows it. -/
def numberOf (argument : String) : Option Int :=
  match argument.toList with
  | [] => some 0
  | c :: rest =>
    if c = Char.ofNat 39 ∨ c = '"' then some (Int.ofNat ((rest.head?.map Char.toNat).getD 0))
    else
      match c, Arithmetic.integer? argument with
      | '0', _ => Arithmetic.number? argument.toList
      | _, value => value

/-- What a format still has to do. -/
structure Progress where
  bytes : ByteArray
  arguments : List String
  /-- Arguments that are no numbers though they should be. -/
  complaints : List String
  ended : Bool

/-- Prints an argument by a directive. -/
def applyDirective (directive : Directive) (progress : Progress) : Progress :=
  let argument := progress.arguments.head?.getD ""
  let progress := { progress with arguments := progress.arguments.drop 1 }
  let put (bytes : ByteArray) : Progress := { progress with bytes := progress.bytes ++ bytes }
  let cut (bytes : ByteArray) : ByteArray :=
    match directive.precision with
    | some n => bytes.extract 0 n
    | none => bytes
  if directive.kind = 's' then put (pad directive (cut argument.toUTF8))
  else if directive.kind = 'b' then
    let (bytes, ended) := unescape (argument.length + 1) argument.toList
    { put (pad directive (cut bytes)) with ended }
  else if directive.kind = 'c' then
    put (pad directive (String.ofList (argument.toList.take 1)).toUTF8)
  else
    match numberOf argument with
    | some value => put (numberBytes directive value)
    | none =>
      { put (numberBytes directive 0) with complaints := progress.complaints ++ [argument] }

/-- Goes through a format once. -/
def once (fuel : Nat) (cs : List Char) (progress : Progress) : Progress :=
  match fuel, cs with
  | 0, _ => progress
  | _, [] => progress
  | fuel + 1, c :: rest =>
    if progress.ended then progress
    else
      let put (bytes : ByteArray) : Progress := { progress with bytes := progress.bytes ++ bytes }
      if c = '\\' then
        let (bytes, after) := takeEscape rest
        once fuel after (put bytes)
      else if c = '%' then
        match rest with
        | '%' :: after => once fuel after (put "%".toUTF8)
        | _ =>
          match takeDirective rest with
          | some (directive, after) => once fuel after (applyDirective directive progress)
          | none => put "%".toUTF8
      else once fuel rest (put c.toString.toUTF8)

/-- Goes through a format until no arguments are left; a format that takes none is used once. -/
def all (fuel : Nat) (format : List Char) (progress : Progress) : Progress :=
  match fuel with
  | 0 => progress
  | fuel + 1 =>
    let next := once (format.length + 1) format progress
    if next.ended ∨ next.arguments.isEmpty ∨ next.arguments.length = progress.arguments.length then
      next
    else all fuel format next

/-! ### Printing -/

/-- Prints arguments by a format. -/
def printf (arguments : List String) : Run Unit := do
  match (if arguments.head? = some "--" then arguments.drop 1 else arguments) with
  | [] =>
    Run.complainAt "printf: usage: printf format [arg ...]"
    Run.setStatus 2
  | format :: arguments =>
    let progress := all (arguments.length + 1) format.toList ⟨ByteArray.empty, arguments, [], false⟩
    Run.emit progress.bytes
    for argument in progress.complaints do
      Run.complainAt ("printf: " ++ argument ++ ": expected numeric value")
    Run.setStatus (if progress.complaints.isEmpty then 0 else 1)

/-- Prints arguments with blanks between them and a line end behind them; escapes are replaced. -/
def echo (arguments : List String) : Run Unit := do
  let (ending, arguments) :=
    if arguments.head? = some "-n" then ("", arguments.drop 1) else ("\n", arguments)
  let text := Text.joinWith " " arguments
  let (bytes, ended) := unescape (text.length + 1) text.toList
  Run.emit bytes
  if !ended then Run.print ending
  Run.setStatus 0

/-- The same as a program of its own, which leaves escapes alone unless it is told otherwise. -/
def echoProgram (arguments : List String) : Run Unit := do
  let isOption (argument : String) : Bool :=
    match argument.toList with
    | '-' :: letters => !letters.isEmpty && letters.all fun c => "neE".toList.contains c
    | _ => false
  let letters := (arguments.takeWhile isOption).flatMap String.toList
  let text := Text.joinWith " " (arguments.dropWhile isOption)
  let escapes := (letters.filter fun c => c == 'e' || c == 'E').getLast? == some 'e'
  let (bytes, ended) :=
    if escapes then unescape (text.length + 1) text.toList else (text.toUTF8, false)
  Run.emit bytes
  if !ended ∧ !letters.contains 'n' then Run.print "\n"
  Run.setStatus 0

end Galley.Shell.Format
