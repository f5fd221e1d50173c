import Galley.Yaml.Token.Scalar
import Galley.Yaml.Token.Tag
/-!
# Texts as tokens

A key shows only by the colon behind it. So wherever a key may begin, the place is remembered as a
candidate, one for each level of brackets, and when the colon comes the key is marked there. A
candidate lapses at the end of its line, and after 1024 bytes; one that stands where the block
around it needs a key must not lapse.
-/
namespace Galley.Yaml

/-- A place where a key may begin. -/
structure Candidate where
  required : Bool
  /-- The number of tokens before it. -/
  number : Nat
  place : Place
deriving DecidableEq, Repr

/-- A text that is read up to some place. -/
structure Reading where
  tokens : Array Token
  cursor : Cursor
  /-- The column of the innermost block; less than zero outside of blocks. -/
  indent : Int
  /-- The columns of the blocks around it, from the inside. -/
  indents : List Int
  /-- The candidate in the innermost brackets. -/
  candidate : Option Candidate
  /-- The candidates in the brackets around them, from the inside. -/
  outer : List (Option Candidate)
  keyAllowed : Bool
deriving Repr

namespace Reading

def start (cs : List Char) : Reading where
  tokens := #[]
  cursor := ⟨.start, cs⟩
  indent := -1
  indents := []
  candidate := none
  outer := []
  keyAllowed := true

def inFlow (r : Reading) : Bool := !r.outer.isEmpty

/-! ### Keys -/

/-- Whether a candidate lapses at a place. -/
def Candidate.lapses (candidate : Candidate) (place : Place) : Bool :=
  candidate.place.line < place.line || candidate.place.index + 1024 < place.index

/-- Lets candidates lapse. -/
def lapse? (r : Reading) : Option Reading := do
  let check (candidate : Option Candidate) : Option (Option Candidate) :=
    match candidate with
    | some c =>
      if Candidate.lapses c r.cursor.place then
        if c.required then none else some none
      else some (some c)
    | none => some none
  return { r with candidate := ← check r.candidate, outer := ← r.outer.mapM check }

/-- Gives up the innermost candidate. -/
def dropCandidate? (r : Reading) : Option Reading :=
  match r.candidate with
  | some c => if c.required then none else some { r with candidate := none }
  | none => some r

/-- Makes this place a candidate, if a key may begin here. -/
def noteCandidate? (r : Reading) : Option Reading :=
  if r.keyAllowed then do
    let r ← r.dropCandidate?
    let required := !r.inFlow && r.indent == (r.cursor.place.column : Int)
    return { r with candidate := some ⟨required, r.tokens.size, r.cursor.place⟩ }
  else some r

/-! ### Blocks -/

private def closeBlocks (column : Int) (place : Place) (tokens : Array Token) (indent : Int) :
    List Int → Array Token × Int × List Int
  | [] => (tokens, indent, [])
  | outer :: rest =>
    if column < indent then
      closeBlocks column place (tokens.push ⟨.blockEnd, place, place⟩) outer rest
    else (tokens, indent, outer :: rest)

/-- Ends the blocks that begin behind a column. -/
def unindent (r : Reading) (column : Int) : Reading :=
  if r.inFlow then r
  else
    let (tokens, indent, indents) := closeBlocks column r.cursor.place r.tokens r.indent r.indents
    { r with tokens, indent, indents }

/-- Puts a token before the token of a number. -/
def insert (r : Reading) (number : Nat) (symbol : Symbol) (place : Place) : Reading :=
  { r with
    tokens := (r.tokens.extract 0 number).push ⟨symbol, place, place⟩ ++
      r.tokens.extract number r.tokens.size }

/-- Begins a block at a place, unless the innermost block begins no further left. -/
def indentAt (r : Reading) (place : Place) (number : Nat) (symbol : Symbol) : Reading :=
  if !r.inFlow && r.indent < (place.column : Int) then
    { r.insert number symbol place with indent := place.column, indents := r.indent :: r.indents }
  else r

/-- The same, for a token that is read next. A block begins only where a key may. -/
def indentHere? (r : Reading) (symbol : Symbol) : Option Reading :=
  if r.inFlow then some r
  else if r.keyAllowed then some (r.indentAt r.cursor.place r.tokens.size symbol)
  else none

/-! ### Tokens -/

/-- Adds a token that ends at a place, and goes on behind it. -/
def push (r : Reading) (symbol : Symbol) (stop : Place) (after : Cursor) : Reading :=
  { r with tokens := r.tokens.push ⟨symbol, r.cursor.place, stop⟩, cursor := after }

/-- Adds a token of so many characters. -/
def pushMark (r : Reading) (symbol : Symbol) (width : Nat) : Reading :=
  let after := r.cursor.skip width
  r.push symbol after.place after

/-- A directive or the mark of a document: all blocks end. -/
def outside? (r : Reading) : Option Reading := do
  let r ← (r.unindent (-1)).dropCandidate?
  return { r with keyAllowed := false }

def takeDirective? (r : Reading) : Option Reading := do
  let r ← r.outside?
  let (symbol, stop, after) ← Yaml.takeDirective? r.cursor
  return r.push symbol stop after

def takeDocumentMark? (r : Reading) (symbol : Symbol) : Option Reading := do
  return (← r.outside?).pushMark symbol 3

def openFlow? (r : Reading) (symbol : Symbol) : Option Reading := do
  let r ← r.noteCandidate?
  let r := { r with candidate := none, outer := r.candidate :: r.outer, keyAllowed := true }
  return r.pushMark symbol 1

def closeFlow? (r : Reading) (symbol : Symbol) : Option Reading := do
  let r ← r.dropCandidate?
  let r :=
    match r.outer with
    | candidate :: outer => { r with candidate, outer }
    | [] => r
  return { r with keyAllowed := false }.pushMark symbol 1

def takeFlowEntry? (r : Reading) : Option Reading := do
  let r ← r.dropCandidate?
  return { r with keyAllowed := true }.pushMark .flowEntry 1

def takeBlockEntry? (r : Reading) : Option Reading := do
  let r ← (← r.indentHere? .blockSequenceStart).dropCandidate?
  return { r with keyAllowed := true }.pushMark .blockEntry 1

def takeKey? (r : Reading) : Option Reading := do
  let r ← (← r.indentHere? .blockMappingStart).dropCandidate?
  return { r with keyAllowed := !r.inFlow }.pushMark .key 1

/-- A colon: the candidate is a key, or else the key before it was marked. -/
def takeValue? (r : Reading) : Option Reading :=
  match r.candidate with
  | some c =>
    let r := (r.insert c.number .key c.place).indentAt c.place c.number .blockMappingStart
    some ({ r with candidate := none, keyAllowed := false }.pushMark .value 1)
  | none => do
    let r ← r.indentHere? .blockMappingStart
    return { r with keyAllowed := !r.inFlow }.pushMark .value 1

/-- A token that a key may begin with; behind it none may begin. -/
def takeNodePart? (r : Reading) (part : Option (Symbol × Cursor)) : Option Reading := do
  let r ← r.noteCandidate?
  let (symbol, after) ← part
  return { r with keyAllowed := false }.push symbol after.place after

def takeBlock? (r : Reading) (literal : Bool) : Option Reading := do
  let r ← r.dropCandidate?
  let (text, after) ← Yaml.takeBlock? literal r.indent r.cursor
  let style := if literal then Style.literal else .folded
  return { r with keyAllowed := true }.push (.scalar style text) after.place after

def takePlain? (r : Reading) : Option Reading := do
  let r ← r.noteCandidate?
  let plain ←
    Yaml.takePlain? r.inFlow (r.indent + 1).toNat { stop := r.cursor.place, cursor := r.cursor }
  return { r with keyAllowed := plain.gap.broken }.push (.scalar .plain (String.ofList plain.text))
    plain.stop plain.cursor

/-- The characters that no plain scalar begins with. -/
def isIndicator (c : Char) : Bool :=
  "-?:,[]\x7b\x7d#&*!|>'\"%@".toList.contains c || c.toNat == 0x60

/-- Whether a plain scalar begins here. -/
def atPlain (inFlow : Bool) (c : Char) (rest : List Char) : Bool :=
  !isGap c && !isIndicator c || c == '-' && !rest.head?.any isBlank ||
    !inFlow && (c == '?' || c == ':') && !atWordEnd rest

/-- The next token, which begins with `c`. -/
def takeToken? (r : Reading) (c : Char) (rest : List Char) : Option Reading :=
  let alone := r.inFlow || atWordEnd rest
  if r.cursor.place.column = 0 ∧ c = '%' then r.takeDirective?
  else if r.cursor.atMark '-' then r.takeDocumentMark? .documentStart
  else if r.cursor.atMark '.' then r.takeDocumentMark? .documentEnd
  else if c = '[' then r.openFlow? .flowSequenceStart
  else if c = '{' then r.openFlow? .flowMappingStart
  else if c = ']' then r.closeFlow? .flowSequenceEnd
  else if c = '}' then r.closeFlow? .flowMappingEnd
  else if c = ',' then r.takeFlowEntry?
  else if c = '-' ∧ atWordEnd rest then r.takeBlockEntry?
  else if c = '?' ∧ alone then r.takeKey?
  else if c = ':' ∧ alone then r.takeValue?
  else if c = '*' then
    r.takeNodePart? ((takeAnchor? r.cursor).map fun found => (.alias found.1, found.2))
  else if c = '&' then
    r.takeNodePart? ((takeAnchor? r.cursor).map fun found => (.anchor found.1, found.2))
  else if c = '!' then r.takeNodePart? (takeTag? r.inFlow r.cursor)
  else if c = '|' ∧ ¬ r.inFlow then r.takeBlock? true
  else if c = '>' ∧ ¬ r.inFlow then r.takeBlock? false
  else if c = '\x27' ∨ c = '"' then
    r.takeNodePart? <|
      (takeQuoted? (c == '\x27') r.cursor).map fun found => (.scalar .quoted found.1, found.2)
  else if atPlain r.inFlow c rest then r.takePlain?
  else none

/-- Passes over blanks, comments and breaks. Outside of brackets a key may begin on a new line, and
where a key may begin, tabs are no blanks. A mark of byte order at the start of a line counts as a
blank. -/
def skipGap (r : Reading) : Reading :=
  let tabs := r.inFlow || !r.keyAllowed
  let cursor :=
    if r.cursor.place.column = 0 ∧ r.cursor.sees byteOrderMark then r.cursor.skip 1 else r.cursor
  let cursor := cursor.skipWhile fun c => c == ' ' || tabs && c == '\t'
  let cursor := if cursor.sees '#' then cursor.skipWhile (!isBreak ·) else cursor
  match cursor.takeBreak? with
  | some (_, after) =>
    if after.rest.length < r.cursor.rest.length then
      skipGap { r with cursor := after, keyAllowed := r.keyAllowed || !r.inFlow }
    else { r with cursor }
  | none => { r with cursor }
termination_by r.cursor.rest.length

/-- The end of the text counts as the start of a line. -/
def finish? (r : Reading) : Option (List Token) := do
  let place := r.cursor.place
  let place := if place.column = 0 then place else place.below []
  let r ← ({ r with cursor := ⟨place, []⟩ }.unindent (-1)).dropCandidate?
  return (r.pushMark .streamEnd 0).tokens.toList

/-- Reads on to the end of the text. -/
def run? (r : Reading) : Option (List Token) := do
  let next ← r.skipGap.lapse?
  let next := next.unindent next.cursor.place.column
  match next.cursor.rest with
  | [] => next.finish?
  | c :: rest =>
    let next ← next.takeToken? c rest
    if next.cursor.rest.length < r.cursor.rest.length then run? next else none
termination_by r.cursor.rest.length

end Reading

/-- The tokens of a text; `none` if it has none. -/
def tokens? (text : String) : Option (List Token) :=
  if text.toList.all isAllowed then (Reading.start text.toList).run? else none

end Galley.Yaml
