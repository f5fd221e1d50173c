import Galley.Shell.Token
/-!
# Commands of a script

Simple commands set variables and run what their words name; all others put commands together.

This is a part of the stand-in for the system's shell, see `Galley.Shell.Programs`.
-/
namespace Galley.Shell

/-- How a redirection opens a file. -/
inductive Opening where
  | reading
  | writing
  | appending
deriving DecidableEq, Repr

inductive Redirection where
  | file (descriptor : Nat) (opening : Opening) (path : Word)
  /-- Makes one descriptor lead where another one does. -/
  | same (descriptor : Nat) (as : Word)
  /-- Reads a text that stands in the script. -/
  | document (text : Word)

inductive Command where
  | run (line : Nat) (settings : List (String × Word)) (words : List Word)
    (redirections : List Redirection)
  | redirected (command : Command) (redirections : List Redirection)
  /-- Each command reads what the one before it printed. -/
  | pipeline (commands : List Command)
  | negated (command : Command)
  | both (first second : Command)
  | either (first second : Command)
  | row (commands : List Command)
  /-- Changes no variables of the script around it. -/
  | inner (body : Command)
  /-- Not waited for. -/
  | detached (command : Command)
  | choice (condition yes no : Command)
  /-- Goes on as long as the condition succeeds, or fails. -/
  | loop (wanted : Bool) (condition body : Command)
  /-- Without words it runs through the arguments. -/
  | each (name : String) (words : Option (List Word)) (body : Command)
  | select (subject : Word) (arms : List (List Word × Command))
  | define (name : String) (body : Command)

namespace Command

/-! ### Faults -/

/-- Why a script cannot be read on, and the line where. -/
structure Fault where
  line : Nat
  text : String
deriving DecidableEq, Repr

abbrev Parse := StateT (List Token) (Except Fault)

private def inQuotes (text : String) : String := "\"" ++ text ++ "\""

/-- Words that mean something where a command may begin. -/
def keywords : List String :=
  ["if", "then", "else", "elif", "fi", "do", "done", "case", "esac", "while", "until", "for", "in",
    "\x7b", "\x7d", "!"]

def keyword? : List Token → Option String
  | .word _ word :: _ => word.bare?.filter keywords.contains
  | _ => none

/-- What the next token is called, and its line. -/
def nameOfNext (tokens : List Token) : Nat × String :=
  match tokens with
  | .word line _ :: _ => (line, ((keyword? tokens).map inQuotes).getD "word")
  | .operator line text :: _ =>
    (line, if text.toList.any fun c => c == '<' || c == '>' then "redirection" else inQuotes text)
  | .lineEnd line :: _ => (line, "newline")
  | .descriptor _ :: .operator line _ :: _ => (line, "redirection")
  | .ending line _ :: _ => (line, "end of file")
  | _ => (0, "redirection")

/-- Fails at the next token. -/
def failWith {α : Type} (text : String) : Parse α := do
  match ← get with
  | .ending line (some unclosed) :: _ => throw ⟨line, unclosed.text⟩
  | tokens => throw ⟨(nameOfNext tokens).1, text⟩

/-- Fails at a token that nothing can begin with, or in the place of something else. -/
def unexpected {α : Type} (wanted : Option String) : Parse α := do
  let name := (nameOfNext (← get)).2
  failWith <| name ++ " unexpected" ++
    match wanted with
    | some wanted => " (expecting " ++ wanted ++ ")"
    | none => ""

/-! ### Tokens in order -/

/-- Whether a row of commands ends here. -/
def endsRow (tokens : List Token) : Bool :=
  match tokens with
  | [] => true
  | .ending _ unclosed :: _ => unclosed.isNone
  | .operator _ text :: _ => text == ")" || text == ";;"
  | _ =>
    match keyword? tokens with
    | some name => ["then", "else", "elif", "fi", "do", "done", "esac", "\x7d"].contains name
    | none => false

def skipLineEnds : Parse Unit :=
  modify fun tokens => tokens.dropWhile (· matches .lineEnd _)

def takeKeyword (name : String) : Parse Unit := do
  let tokens ← get
  if keyword? tokens = some name then set (tokens.drop 1) else unexpected (some (inQuotes name))

def takeOperator (text : String) : Parse Unit := do
  match ← get with
  | .operator line found :: rest =>
    if found = text then set rest
    else
      set (Token.operator line found :: rest)
      unexpected (some (inQuotes text))
  | _ => unexpected (some (inQuotes text))

def takeWord : Parse Word := do
  match ← get with
  | .word _ word :: rest => set rest; return word
  | _ => unexpected (some "word")

/-! ### Simple commands -/

private def redirection? (descriptor : Option Nat) (operator : String) (word : Word) :
    Option Redirection :=
  match operator with
  | "<" => some (.file (descriptor.getD 0) .reading word)
  | ">" | ">|" => some (.file (descriptor.getD 1) .writing word)
  | ">>" => some (.file (descriptor.getD 1) .appending word)
  | ">&" => some (.same (descriptor.getD 1) word)
  | "<&" => some (.same (descriptor.getD 0) word)
  | _ => none

/-- The redirection that the tokens begin with. -/
def redirectionAt : List Token → Option (Redirection × List Token)
  | .operator _ "<<" :: .document text :: rest => some (.document text, rest)
  | .descriptor _ :: .operator _ "<<" :: .document text :: rest => some (.document text, rest)
  | .descriptor n :: .operator _ operator :: .word _ word :: rest =>
    (redirection? (some n) operator word).map fun found => (found, rest)
  | .operator _ operator :: .word _ word :: rest =>
    (redirection? none operator word).map fun found => (found, rest)
  | _ => none

def takeRedirections (fuel : Nat) (tokens : List Token) : List Redirection × List Token :=
  match fuel with
  | 0 => ([], tokens)
  | fuel + 1 =>
    match redirectionAt tokens with
    | some (first, rest) =>
      let (more, rest) := takeRedirections fuel rest
      (first :: more, rest)
    | none => ([], tokens)

/-- The parts of a simple command. -/
structure Simple where
  settings : List (String × Word)
  words : List Word
  redirections : List Redirection

/-- Settings stand before the first word; redirections stand anywhere. -/
def takeSimple (fuel : Nat) (named : Bool) (tokens : List Token) : Simple × List Token :=
  match fuel with
  | 0 => (⟨[], [], []⟩, tokens)
  | fuel + 1 =>
    match redirectionAt tokens with
    | some (first, rest) =>
      let (simple, rest) := takeSimple fuel named rest
      ({ simple with redirections := first :: simple.redirections }, rest)
    | none =>
      match tokens with
      | .word _ word :: rest =>
        match if named then none else word.assignment? with
        | some setting =>
          let (simple, rest) := takeSimple fuel named rest
          ({ simple with settings := setting :: simple.settings }, rest)
        | none =>
          let (simple, rest) := takeSimple fuel true rest
          ({ simple with words := word :: simple.words }, rest)
      | _ => (⟨[], [], []⟩, tokens)

/-- What follows a redirection that names nothing. -/
def danglingAt : List Token → Option (List Token)
  | .descriptor _ :: .operator _ _ :: rest => some rest
  | .operator _ text :: rest =>
    if text.toList.any fun c => c == '<' || c == '>' then some rest else none
  | _ => none

/-- Fails if the next token is a redirection that names nothing. -/
def refuseDangling : Parse Unit := do
  match danglingAt (← get) with
  | some rest => set rest; unexpected none
  | none => return ()

def parseSimple : Parse Command := do
  let tokens ← get
  let (simple, rest) := takeSimple (tokens.length + 1) false tokens
  set rest
  refuseDangling
  if simple.settings.isEmpty ∧ simple.words.isEmpty ∧ simple.redirections.isEmpty then
    unexpected none
  return .run (nameOfNext tokens).1 simple.settings simple.words simple.redirections

/-! ### Compound commands -/

/-- The names that no function may have. -/
def reservedNames : List String :=
  [".", ":", "break", "continue", "eval", "exec", "exit", "export", "readonly", "return", "set",
    "shift", "times", "trap", "unset"]

/-- The words of a loop up to the end of their line. -/
def takeWords : Nat → Parse (List Word)
  | 0 => unexpected none
  | fuel + 1 => do
    match ← get with
    | .word _ word :: rest =>
      set rest
      return word :: (← takeWords fuel)
    | .lineEnd _ :: rest => set rest; return []
    | .operator _ ";" :: rest => set rest; return []
    | _ => unexpected none

/-- The patterns of an arm up to its bracket. -/
def takePatterns : Nat → Parse (List Word)
  | 0 => unexpected none
  | fuel + 1 => do
    let word ← takeWord
    match ← get with
    | .operator _ "|" :: rest =>
      set rest
      return word :: (← takePatterns fuel)
    | .operator _ ")" :: rest => set rest; return [word]
    | .word _ _ :: _ => failWith ("word unexpected (expecting " ++ inQuotes ")" ++ ")")
    | _ => unexpected (some (inQuotes ")"))

mutual

/-- Commands up to something that ends their row. The first must be there unless the row
`mayBeEmpty`. -/
def parseRow : (fuel : Nat) → (mayBeEmpty : Bool) → Parse (List Command)
  | 0, _ => unexpected none
  | fuel + 1, mayBeEmpty => do
    skipLineEnds
    let tokens ← get
    if endsRow tokens ∧ (mayBeEmpty ∨ tokens matches .ending _ _ :: _) then return []
    let first ← parseChain fuel
    match ← get with
    | .operator _ ";" :: rest => set rest; return first :: (← parseRow fuel true)
    | .operator _ "&" :: rest => set rest; return .detached first :: (← parseRow fuel true)
    | .lineEnd _ :: rest => set rest; return first :: (← parseRow fuel true)
    | _ => return [first]

def parseChain : Nat → Parse Command
  | 0 => unexpected none
  | fuel + 1 => do parseChainRest fuel (← parsePipeline fuel)

def parseChainRest : Nat → Command → Parse Command
  | 0, _ => unexpected none
  | fuel + 1, first => do
    match ← get with
    | .operator _ "&&" :: rest =>
      set rest
      skipLineEnds
      parseChainRest fuel (.both first (← parsePipeline fuel))
    | .operator _ "||" :: rest =>
      set rest
      skipLineEnds
      parseChainRest fuel (.either first (← parsePipeline fuel))
    | _ => return first

def parsePipeline : Nat → Parse Command
  | 0 => unexpected none
  | fuel + 1 => do
    if keyword? (← get) = some "!" then
      takeKeyword "!"
      return .negated (← parsePipeline fuel)
    match ← parsePipes fuel with
    | [only] => return only
    | commands => return .pipeline commands

def parsePipes : Nat → Parse (List Command)
  | 0 => unexpected none
  | fuel + 1 => do
    let first ← parseCommand fuel
    match ← get with
    | .operator _ "|" :: rest =>
      set rest
      skipLineEnds
      return first :: (← parsePipes fuel)
    | _ => return [first]

def parseCommand : Nat → Parse Command
  | 0 => unexpected none
  | fuel + 1 => do
    let tokens ← get
    match keyword? tokens, tokens with
    | some "if", _ => do takeKeyword "if"; parseTail (← parseChoice fuel)
    | some "while", _ => do takeKeyword "while"; parseTail (← parseLoop fuel true)
    | some "until", _ => do takeKeyword "until"; parseTail (← parseLoop fuel false)
    | some "for", _ => do takeKeyword "for"; parseTail (← parseEach fuel)
    | some "case", _ => do takeKeyword "case"; parseTail (← parseSelect fuel)
    | some "in", _ => parseSimple
    | some "\x7b", _ => do
      takeKeyword "\x7b"
      let body ← parseRow fuel false
      takeKeyword "\x7d"
      parseTail (.row body)
    | some _, _ => unexpected none
    | none, .operator _ "(" :: rest => do
      set rest
      let body ← parseRow fuel false
      takeOperator ")"
      parseTail (.inner (.row body))
    | none, .word line word :: .operator _ "(" :: rest => do
      if word.assignment?.isSome then
        set (tokens.drop 1)
        unexpected none
      set rest
      takeOperator ")"
      match word.bare?.filter fun name => Word.isName name && !reservedNames.contains name with
      | some name =>
        skipLineEnds
        return .define name (← parseCommand fuel)
      | none => throw ⟨line, "Bad function name"⟩
    | none, _ => parseSimple
where
  parseTail (command : Command) : Parse Command := do
    let tokens ← get
    let (redirections, rest) := takeRedirections (tokens.length + 1) tokens
    set rest
    refuseDangling
    return if redirections.isEmpty then command else .redirected command redirections

def parseChoice : Nat → Parse Command
  | 0 => unexpected none
  | fuel + 1 => do
    let condition ← parseRow fuel false
    takeKeyword "then"
    let yes ← parseRow fuel false
    match keyword? (← get) with
    | some "elif" => do
      takeKeyword "elif"
      return .choice (.row condition) (.row yes) (← parseChoice fuel)
    | some "else" => do
      takeKeyword "else"
      let no ← parseRow fuel false
      takeKeyword "fi"
      return .choice (.row condition) (.row yes) (.row no)
    | _ => do
      takeKeyword "fi"
      return .choice (.row condition) (.row yes) (.row [])

def parseLoop : Nat → Bool → Parse Command
  | 0, _ => unexpected none
  | fuel + 1, wanted => do
    let condition ← parseRow fuel false
    return .loop wanted (.row condition) (.row (← parseBody fuel))

/-- The body of a loop. -/
def parseBody : Nat → Parse (List Command)
  | 0 => unexpected none
  | fuel + 1 => do
    takeKeyword "do"
    let body ← parseRow fuel false
    takeKeyword "done"
    return body

def parseEach : Nat → Parse Command
  | 0 => unexpected none
  | fuel + 1 => do
    let tokens ← get
    match tokens with
    | .word _ word :: rest =>
      match word.bare?.filter Word.isName with
      | none => failWith "Bad for loop variable"
      | some name =>
        set rest
        skipLineEnds
        match ← get with
        | .operator _ ";" :: rest =>
          set rest
          skipLineEnds
          return .each name none (.row (← parseBody fuel))
        | tokens =>
          if keyword? tokens = some "in" then
            set (tokens.drop 1)
            let words ← takeWords fuel
            skipLineEnds
            return .each name (some words) (.row (← parseBody fuel))
          else return .each name none (.row (← parseBody fuel))
    | _ => failWith "Bad for loop variable"

def parseSelect : Nat → Parse Command
  | 0 => unexpected none
  | fuel + 1 => do
    let subject ← takeWord
    skipLineEnds
    takeKeyword "in"
    skipLineEnds
    return .select subject (← parseArms fuel)

def parseArms : Nat → Parse (List (List Word × Command))
  | 0 => unexpected none
  | fuel + 1 => do
    skipLineEnds
    if keyword? (← get) = some "esac" then
      takeKeyword "esac"
      return []
    modify fun tokens =>
      match tokens with
      | .operator _ "(" :: rest => rest
      | _ => tokens
    let patterns ← takePatterns fuel
    let body ← parseRow fuel true
    match ← get with
    | .operator _ ";;" :: rest => set rest; return (patterns, .row body) :: (← parseArms fuel)
    | tokens =>
      if keyword? tokens = some "esac" then
        set (tokens.drop 1)
        return [(patterns, .row body)]
      else unexpected (some (inQuotes ";;"))

end

/-- The commands that the rest of a line holds. -/
def parseLine : (fuel : Nat) → Parse (List Command)
  | 0 => unexpected none
  | fuel + 1 => do
    match ← get with
    | .lineEnd _ :: rest => set rest; return []
    | [.ending _ none] => set ([] : List Token); return []
    | [] => return []
    | tokens =>
      let first ← parseChain (8 * tokens.length + 8)
      match ← get with
      | .operator _ ";" :: rest => set rest; return first :: (← parseLine fuel)
      | .operator _ "&" :: rest => set rest; return .detached first :: (← parseLine fuel)
      | .lineEnd _ :: rest => set rest; return [first]
      | [.ending _ none] => set ([] : List Token); return [first]
      | _ => unexpected none

/-- The commands of the lines of a script, up to the first that cannot be read. -/
def parseLines (fuel : Nat) (tokens : List Token) : List Command × Option Fault :=
  match fuel, tokens with
  | 0, _ => ([], none)
  | _, [] => ([], none)
  | fuel + 1, tokens =>
    match (parseLine (tokens.length + 1)).run tokens with
    | .error fault => ([], some fault)
    | .ok (commands, rest) =>
      let (more, fault) := parseLines fuel rest
      (.row commands :: more, fault)

/-- The commands that a script spells, line by line, and why it cannot be read to its end. -/
def ofScript (script : String) : List Command × Option Fault :=
  let tokens := Token.ofScript script
  parseLines (tokens.length + 1) tokens

end Command
end Galley.Shell
