import Galley.Shell.Word
/-!
# Tokens of a script

A script is a row of words, operators and line ends. A word ends at a blank or at the first
character of an operator that is neither quoted nor part of a parameter. Comments are passed over,
and a backslash at the end of a line joins it with the next one. The tokens end with the end of the
script, or where a quote or a bracket is left open.

This is a part of the stand-in for the system's shell, see `Galley.Shell.Programs`.
-/
namespace Galley.Shell

/-- What a script ends in the middle of. -/
inductive Unclosed where
  | quote
  | backquote
  | brace
  | bracket
  | arithmetic
deriving DecidableEq, Repr

def Unclosed.text : Unclosed → String
  | .quote => "Unterminated quoted string"
  | .backquote => "EOF in backquote substitution"
  | .brace => "Missing '\x7d'"
  | .bracket => "end of file unexpected (expecting \")\")"
  | .arithmetic => "Missing '))'"

inductive Token where
  | word (line : Nat) (word : Word)
  | operator (line : Nat) (text : String)
  /-- The line is the one that begins here. -/
  | lineEnd (line : Nat)
  /-- A number right before a redirection. -/
  | descriptor (number : Nat)
  /-- The lines that a redirection reads in place of a file. -/
  | document (text : Word)
  | ending (line : Nat) (unclosed : Option Unclosed)

namespace Scan

def apostrophe : Char := Char.ofNat 39

def isBlank (c : Char) : Bool := c == ' ' || c == '\t'

/-- Whether an unquoted character ends a word. -/
def isBreak (c : Char) : Bool := " \t\n;&|<>()".toList.contains c

/-! ### Nested scripts -/

/-- Which quotes a character stands in. -/
inductive Quotes where
  | none
  | single
  | double
deriving DecidableEq, Repr

/-- The text up to the bracket that closes one that is open; brackets in quotes do not count. -/
def takeBalanced (depth : Nat) (quotes : Quotes) (text : List Char) :
    List Char → Except Unclosed (List Char × List Char)
  | [] => .error (if quotes = .none then .bracket else .quote)
  | '\\' :: c :: rest =>
    if quotes = .single then takeBalanced depth quotes ('\\' :: text) (c :: rest)
    else takeBalanced depth quotes (c :: '\\' :: text) rest
  | c :: rest =>
    match quotes with
    | .single => takeBalanced depth (if c = apostrophe then .none else .single) (c :: text) rest
    | .double => takeBalanced depth (if c = '"' then .none else .double) (c :: text) rest
    | .none =>
      if c = apostrophe then takeBalanced depth .single (c :: text) rest
      else if c = '"' then takeBalanced depth .double (c :: text) rest
      else if c = '(' then takeBalanced (depth + 1) .none (c :: text) rest
      else if c = ')' then
        match depth with
        | 0 => .ok (text.reverse, rest)
        | depth + 1 => takeBalanced depth .none (c :: text) rest
      else takeBalanced depth .none (c :: text) rest
termination_by cs => cs.length

/-- The text up to a backquote; a backslash before a backquote or another backslash is dropped. -/
def takeBackquoted (text : List Char) : List Char → Except Unclosed (List Char × List Char)
  | [] => .error .backquote
  | '\\' :: c :: rest =>
    if c = Char.ofNat 96 ∨ c = '\\' ∨ c = '$' then takeBackquoted (c :: text) rest
    else takeBackquoted (c :: '\\' :: text) rest
  | c :: rest =>
    if c = Char.ofNat 96 then .ok (text.reverse, rest) else takeBackquoted (c :: text) rest
termination_by cs => cs.length

/-! ### Words -/

/-- What stands around the pieces of a word. -/
inductive Around where
  | nothing
  | doubleQuotes
  /-- The braces of a parameter. -/
  | braces (quoted : Bool)
  /-- The lines of a document. -/
  | document
deriving DecidableEq, Repr

def Around.isQuoted : Around → Bool
  | .nothing => false
  | .doubleQuotes | .document => true
  | .braces quoted => quoted

/-- Whether a character ends the pieces. -/
def Around.isEnd : Around → Char → Bool
  | .nothing, c => isBreak c
  | .doubleQuotes, c => c == '"'
  | .braces _, c => c == '}'
  | .document, _ => false

/-- What is left open where the text ends. -/
def Around.unclosed? : Around → Option Unclosed
  | .nothing | .document => none
  | .braces false => some .brace
  | .doubleQuotes | .braces true => some .quote

/-- Whether a backslash takes the meaning of a character; in quotes it does so for a few only. -/
def Around.isEscaped (around : Around) (c : Char) : Bool :=
  match around with
  | .nothing => true
  | .braces false => true
  | .doubleQuotes => "$\"\\".toList.contains c || c == Char.ofNat 96
  | .braces true => "$\"\\\x7d".toList.contains c || c == Char.ofNat 96
  | .document => "$\\".toList.contains c || c == Char.ofNat 96

/-- The parameters that are one character. -/
def isSpecial (c : Char) : Bool := "@*#?$!-".toList.contains c || c.isDigit

/-- The name of a parameter and what follows it. -/
def takeName (cs : List Char) : Option (String × List Char) :=
  match cs with
  | [] => none
  | c :: rest =>
    if Word.isNameStart c then
      some (String.ofList (cs.takeWhile Word.isNameChar), cs.dropWhile Word.isNameChar)
    else if isSpecial c then some (c.toString, rest)
    else none

/-- The same in braces, where more than one digit may stand. -/
def takeBracedName (cs : List Char) : Option (String × List Char) :=
  match cs with
  | c :: _ =>
    if c.isDigit then some (String.ofList (cs.takeWhile Char.isDigit), cs.dropWhile Char.isDigit)
    else takeName cs
  | [] => none

/-- The operation behind the name of a parameter, and whether empty values count as not set. -/
def takeOperation (cs : List Char) : Option (Operation × Bool × List Char) :=
  let (empties, after) :=
    match cs with
    | ':' :: rest => (true, rest)
    | _ => (false, cs)
  match after with
  | '-' :: rest => some (.orElse, empties, rest)
  | '=' :: rest => some (.orAssign, empties, rest)
  | '?' :: rest => some (.orFail, empties, rest)
  | '+' :: rest => some (.instead, empties, rest)
  | '#' :: '#' :: rest => if empties then none else some (.cutStart true, false, rest)
  | '#' :: rest => if empties then none else some (.cutStart false, false, rest)
  | '%' :: '%' :: rest => if empties then none else some (.cutEnd true, false, rest)
  | '%' :: rest => if empties then none else some (.cutEnd false, false, rest)
  | _ => none

/-- Quotes around nothing make a word of their own, but not around all arguments. -/
def inQuotes (pieces : List Piece) : List Piece :=
  match pieces with
  | [.parameter "@" _ .value _ _] => pieces
  | _ => .literal "" true :: pieces

mutual

/-- The pieces up to the character that ends them, which is left. -/
def takePieces (fuel : Nat) (around : Around) (cs : List Char) :
    Except Unclosed (List Piece × List Char) :=
  match fuel, cs with
  | _, [] =>
    match around.unclosed? with
    | some unclosed => .error unclosed
    | none => .ok ([], [])
  | 0, _ => .error .quote
  | fuel + 1, c :: rest =>
    if around.isEnd c then .ok ([], c :: rest)
    else do
      let (first, after) ← takePiece fuel around c rest
      let (more, after) ← takePieces fuel around after
      return (first ++ more, after)

/-- The pieces that begin with a character. -/
def takePiece (fuel : Nat) (around : Around) (c : Char) (rest : List Char) :
    Except Unclosed (List Piece × List Char) :=
  match fuel with
  | 0 => .error .quote
  | fuel + 1 =>
    let quoted := around.isQuoted
    if c = '\\' then
      match rest with
      | [] => .ok ([.literal "\\" quoted], [])
      | '\n' :: after => .ok ([], after)
      | next :: after =>
        if around.isEscaped next then .ok ([.literal next.toString true], after)
        else .ok ([.literal "\\" true], next :: after)
    else if c = apostrophe ∧ !quoted then
      if rest.contains apostrophe then
        let text := rest.takeWhile (· != apostrophe)
        .ok ([.literal (String.ofList text) true], (rest.dropWhile (· != apostrophe)).drop 1)
      else .error .quote
    else if c = '"' ∧ around ≠ .document then do
      let (pieces, after) ← takePieces fuel .doubleQuotes rest
      return (inQuotes pieces, after.drop 1)
    else if c = '$' then takeParameter fuel quoted rest
    else if c = Char.ofNat 96 then do
      let (script, after) ← takeBackquoted [] rest
      return ([.output (String.ofList script) quoted], after)
    else .ok ([.literal c.toString quoted], rest)

/-- What a dollar sign begins. -/
def takeParameter (fuel : Nat) (quoted : Bool) (cs : List Char) :
    Except Unclosed (List Piece × List Char) :=
  match fuel with
  | 0 => .error .quote
  | fuel + 1 =>
    match cs with
    | '(' :: '(' :: rest => do
      let (text, after) ←
        (takeBalanced 0 .none [] rest).mapError fun unclosed =>
          if unclosed = .bracket then .arithmetic else unclosed
      let (pieces, _) ← takePieces fuel .document text
      match after with
      | ')' :: after => return ([.arithmetic pieces quoted], after)
      | _ => throw .arithmetic
    | '(' :: rest => do
      let (script, after) ← takeBalanced 0 .none [] rest
      return ([.output (String.ofList script) quoted], after)
    | '{' :: '#' :: '}' :: rest => .ok ([.parameter "#" quoted .value false []], rest)
    | '{' :: '#' :: rest =>
      match takeBracedName rest with
      | some (name, '}' :: after) => .ok ([.parameter name quoted .length false []], after)
      | _ => takeMalformed fuel quoted rest
    | '{' :: rest =>
      match takeBracedName rest with
      | some (name, '}' :: after) => .ok ([.parameter name quoted .value false []], after)
      | some (name, after) =>
        match takeOperation after with
        | some (operation, empties, after) => do
          let patterned := operation matches .cutStart _ | .cutEnd _
          let (word, after) ← takePieces fuel (.braces (quoted && !patterned)) after
          return ([.parameter name quoted operation empties word], after.drop 1)
        | none => takeMalformed fuel quoted after
      | none => takeMalformed fuel quoted rest
    | _ =>
      match takeName cs with
      | some (name, after) => .ok ([.parameter name quoted .value false []], after)
      | none => .ok ([.literal "$" quoted], cs)

/-- Braces that hold no parameter. -/
def takeMalformed (fuel : Nat) (quoted : Bool) (cs : List Char) :
    Except Unclosed (List Piece × List Char) :=
  match fuel with
  | 0 => .error .quote
  | fuel + 1 => do
    let (_, after) ← takePieces fuel (.braces quoted) cs
    return ([.parameter "" quoted .malformed false []], after.drop 1)

end

/-! ### Documents -/

/-- The lines up to one that is the delimiter, and what follows it. -/
def takeDocument (delimiter : List Char) (indented : Bool) (fuel : Nat) (cs : List Char) :
    List Char × List Char :=
  match fuel, cs with
  | 0, _ => ([], cs)
  | _, [] => ([], [])
  | fuel + 1, cs =>
    let line := cs.takeWhile (· != '\n')
    let shown := if indented then line.dropWhile (· == '\t') else line
    match cs.dropWhile (· != '\n') with
    | [] => (if shown = delimiter then [] else shown, [])
    | lineEnd :: rest =>
      if shown = delimiter then ([], rest)
      else
        let (more, after) := takeDocument delimiter indented fuel rest
        (shown ++ lineEnd :: more, after)

/-- The characters of a word without its quotes. -/
def unquoted : Word → List Char
  | [] => []
  | .literal text _ :: rest => text.toList ++ unquoted rest
  | _ :: rest => unquoted rest

/-- A document after the rest of the line it stands in, and the text without it. -/
def liftDocument (delimiter : Word) (indented : Bool) (cs : List Char) :
    Except Unclosed (Word × List Char) :=
  let line := cs.takeWhile (· != '\n')
  let rest := (cs.dropWhile (· != '\n')).drop 1
  let (text, after) := takeDocument (unquoted delimiter) indented (rest.length + 1) rest
  if delimiter.bare?.isNone then
    .ok ([.literal (String.ofList text) true], line ++ '\n' :: after)
  else do
    let (word, _) ← takePieces (4 * text.length + 4) .document text
    return (word, line ++ '\n' :: after)

/-! ### Scripts -/

/-- The operators, a longer one before its beginnings. -/
def operators : List String :=
  ["<<-", "&&", "||", ";;", ">>", ">&", "<&", ">|", "<<", ";", "&", "|", "(", ")", "<", ">"]

/-- The operator that a text begins with. -/
def takeOperator (cs : List Char) : Option (String × List Char) :=
  (operators.find? fun text => text.toList.isPrefixOf cs).map fun text =>
    (text, cs.drop text.toList.length)

private def breaksIn (cs : List Char) : Nat := cs.count '\n'

/-- The delimiter behind the operator of a document, if there is one, and the document. -/
def takeLiftedDocument (indented : Bool) (cs : List Char) :
    Except Unclosed (Option (Word × List Char)) := do
  let trimmed := cs.dropWhile isBlank
  if trimmed.head?.all isBreak then return none
  let (delimiter, after) ← takePieces (4 * trimmed.length + 4) .nothing trimmed
  return some (← liftDocument delimiter indented after)

/-- The tokens of a script; `lifted` lines were taken out behind this one. -/
def scan (fuel line lifted : Nat) (cs : List Char) : List Token :=
  let brokenOff (unclosed : Unclosed) : List Token :=
    [.ending (line + lifted + breaksIn cs) (some unclosed)]
  match fuel, cs with
  | _, [] => [.ending (line + lifted) none]
  | 0, _ => brokenOff .quote
  | fuel + 1, c :: rest =>
    if isBlank c then scan fuel line lifted rest
    else if c = '\n' then
      let next := line + lifted + 1
      .lineEnd next :: scan fuel next 0 rest
    else if c = '\\' ∧ rest.head? = some '\n' then scan fuel (line + 1) lifted (rest.drop 1)
    else if c = '#' then scan fuel line lifted (rest.dropWhile (· != '\n'))
    else
      let digits := (c :: rest).takeWhile Char.isDigit
      let behind := (c :: rest).dropWhile Char.isDigit
      if !digits.isEmpty ∧ (behind.head? = some '<' ∨ behind.head? = some '>') then
        .descriptor ((String.ofList digits).toNat?.getD 0) :: scan fuel line lifted behind
      else
        match takeOperator (c :: rest) with
        | some (text, after) =>
          if text = "<<" ∨ text = "<<-" then
            match takeLiftedDocument (text == "<<-") after with
            | .ok (some (document, kept)) =>
              [.operator line "<<", .document document] ++
                scan fuel line (lifted + breaksIn after - breaksIn kept) kept
            | .ok none => .operator line "<<" :: scan fuel line lifted after
            | .error unclosed => brokenOff unclosed
          else .operator line text :: scan fuel line lifted after
        | none =>
          match takePieces (4 * cs.length + 4) .nothing (c :: rest) with
          | .ok (word, after) =>
            let next := line + breaksIn ((c :: rest).take (rest.length + 1 - after.length))
            .word line word :: scan fuel next lifted after
          | .error unclosed => brokenOff unclosed

end Scan

def Token.ofScript (script : String) : List Token :=
  Scan.scan (script.length + 1) 1 0 script.toList

end Galley.Shell
