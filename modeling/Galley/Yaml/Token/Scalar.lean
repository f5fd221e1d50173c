import Galley.Yaml.Token.Gap
/-!
# Scalars

Reading a scalar gives its text, with breaks folded and escapes replaced, and what follows it.
-/
namespace Galley.Yaml

/-! ### In quotes -/

/-- What a character behind a backslash stands for. -/
inductive Escape where
  | char (c : Char)
  /-- A code point in so many hexadecimal digits. -/
  | code (digits : Nat)
deriving DecidableEq, Repr

def Escape.ofChar? (c : Char) : Option Escape :=
  if c = '0' then some (.char (Char.ofNat 0))
  else if c = 'a' then some (.char (Char.ofNat 7))
  else if c = 'b' then some (.char (Char.ofNat 8))
  else if c = 't' ∨ c = '\t' then some (.char '\t')
  else if c = 'n' then some (.char '\n')
  else if c = 'v' then some (.char (Char.ofNat 11))
  else if c = 'f' then some (.char (Char.ofNat 12))
  else if c = 'r' then some (.char '\r')
  else if c = 'e' then some (.char (Char.ofNat 27))
  else if c = ' ' ∨ c = '"' ∨ c = '/' ∨ c = '\\' then some (.char c)
  else if c = 'N' then some (.char (Char.ofNat 0x85))
  else if c = '_' then some (.char (Char.ofNat 0xA0))
  else if c = 'L' then some (.char (Char.ofNat 0x2028))
  else if c = 'P' then some (.char (Char.ofNat 0x2029))
  else if c = 'x' then some (.code 2)
  else if c = 'u' then some (.code 4)
  else if c = 'U' then some (.code 8)
  else none

/-- How a piece of a quoted scalar ends. -/
inductive PieceEnd where
  | closed
  | gap
  | escapedBreak
deriving DecidableEq, Repr

/-- The rest of a scalar in single quotes up to a gap or the closing quote; `piece` holds what was
read, backwards. -/
def takeSinglePiece? (piece : List Char) (place : Place) :
    List Char → Option (List Char × PieceEnd × Cursor)
  | [] => none
  | '\x27' :: '\x27' :: rest =>
    takeSinglePiece? ('\x27' :: piece) (place.along ['\x27', '\x27']) rest
  | c :: rest =>
    if isGap c then some (piece.reverse, .gap, ⟨place, c :: rest⟩)
    else if c = '\x27' then some (piece.reverse, .closed, ⟨place.along [c], rest⟩)
    else takeSinglePiece? (c :: piece) (place.along [c]) rest

/-- The same in double quotes. -/
def takeDoublePiece? (piece : List Char) (place : Place) (cs : List Char) :
    Option (List Char × PieceEnd × Cursor) :=
  match cs with
  | [] => none
  | '\\' :: [] => none
  | '\\' :: c :: rest =>
    if isBreak c then
      let behind := (Cursor.skipBreak ⟨place.along ['\\'], c :: rest⟩)
      some (piece.reverse, .escapedBreak, behind)
    else
      match Escape.ofChar? c with
      | some (.char spelled) => takeDoublePiece? (spelled :: piece) (place.along ['\\', c]) rest
      | some (.code digits) =>
        match takeHex digits rest with
        | some (n, _) =>
          if n.isValidChar then
            takeDoublePiece? (Char.ofNat n :: piece)
              (place.along ('\\' :: c :: rest.take digits)) (rest.drop digits)
          else none
        | none => none
      | none => none
  | c :: rest =>
    if isGap c then some (piece.reverse, .gap, ⟨place, c :: rest⟩)
    else if c = '"' then some (piece.reverse, .closed, ⟨place.along [c], rest⟩)
    else takeDoublePiece? (c :: piece) (place.along [c]) rest
termination_by cs.length
decreasing_by
  all_goals simp only [List.length_cons, List.length_drop]; omega

/-- The pieces of a quoted scalar and the gaps between them, behind the opening quote. -/
def takePieces? (single : Bool) (text : List Char) (cursor : Cursor) :
    Option (List Char × Cursor) :=
  if cursor.atDocumentMark then none
  else do
    let (piece, ending, after) ←
      if single then takeSinglePiece? [] cursor.place cursor.rest
      else takeDoublePiece? [] cursor.place cursor.rest
    if ending = .closed then return (text ++ piece, after)
    let (gap, behind) ← Gap.take? 0 { broken := ending == .escapedBreak } after.place after.rest
    if behind.rest.length < cursor.rest.length then
      takePieces? single (text ++ piece ++ gap.text) behind
    else none
termination_by cursor.rest.length

/-- A scalar in quotes, the opening quote included. -/
def takeQuoted? (single : Bool) (cursor : Cursor) : Option (String × Cursor) := do
  let (text, after) ← takePieces? single [] (cursor.skip 1)
  return (String.ofList text, after)

/-! ### Plain -/

/-- The characters that structure collections written in brackets. -/
def isFlowMark (c : Char) : Bool := c == ',' || c == '[' || c == ']' || c == '{' || c == '}'

/-- A word of a plain scalar, backwards. A colon before a gap ends it, and in brackets so does a
mark of the collection; a colon right before such a mark is refused there. -/
def takePlainWord? (inFlow : Bool) (word : List Char) : List Char → Option (List Char)
  | [] => some word
  | c :: rest =>
    if isGap c then some word
    else if inFlow && c == ':' && rest.head?.any (fun d => isFlowMark d || d == '?') then none
    else if c == ':' && atWordEnd rest || inFlow && isFlowMark c then some word
    else takePlainWord? inFlow (c :: word) rest

/-- A plain scalar as read so far. -/
structure Plain where
  text : List Char := []
  /-- Where the text ends. -/
  stop : Place
  /-- What was read behind the text. -/
  gap : Gap := {}
  cursor : Cursor
deriving Repr

/-- Reads a plain scalar word by word. Outside of brackets a line must reach the column `indent`. -/
def takePlain? (inFlow : Bool) (indent : Nat) (plain : Plain) : Option Plain :=
  if plain.cursor.atDocumentMark ∨ plain.cursor.sees '#' then some plain
  else do
    let word ← takePlainWord? inFlow [] plain.cursor.rest
    if word.isEmpty then return plain
    let after := plain.cursor.skip word.length
    let read : Plain :=
      { text := plain.text ++ plain.gap.text ++ word.reverse, stop := after.place, cursor := after }
    if ¬ after.rest.head?.any isGap then return read
    let (gap, behind) ← Gap.take? indent {} after.place after.rest
    let read := { read with gap, cursor := behind }
    if ¬ inFlow ∧ behind.place.column < indent then return read
    if behind.rest.length < plain.cursor.rest.length then takePlain? inFlow indent read
    else none
termination_by plain.cursor.rest.length

/-! ### In blocks of lines -/

/-- What becomes of the breaks at the end of a block. -/
inductive Chomping where
  /-- One is kept. -/
  | clip
  | strip
  | keep
deriving DecidableEq, Repr

/-- The header of a block: how it ends and how far it is indented, in either order. -/
def takeBlockHeader? (cursor : Cursor) : Option (Chomping × Nat × Cursor) := do
  let (chomping, cursor) := takeChomping cursor
  let (indent, cursor) ← takeIndent? cursor
  let (chomping, cursor) :=
    if chomping = .clip then takeChomping cursor else (chomping, cursor)
  let cursor ← cursor.skipLineEnd?
  return (chomping, indent, cursor)
where
  takeChomping (cursor : Cursor) : Chomping × Cursor :=
    if cursor.sees '+' then (.keep, cursor.skip 1)
    else if cursor.sees '-' then (.strip, cursor.skip 1)
    else (.clip, cursor)
  /-- One digit, or zero if there is none. -/
  takeIndent? (cursor : Cursor) : Option (Nat × Cursor) :=
    match cursor.rest.head? with
    | some c =>
      if c = '0' then none
      else if c.isDigit then some (c.toNat - 48, cursor.skip 1)
      else some (0, cursor)
    | none => some (0, cursor)

/-- Passes over spaces up to the column `indent`, or over all of them while that is not known. -/
def skipIndent (indent : Nat) (place : Place) : List Char → Cursor
  | ' ' :: rest =>
    if indent = 0 ∨ place.column < indent then skipIndent indent (place.along [' ']) rest
    else ⟨place, ' ' :: rest⟩
  | other => ⟨place, other⟩

/-- Breaks and the indentation behind each of them, with the widest indentation seen. -/
def takeBlockBreaks? (indent widest : Nat) (breaks : List Char) (cursor : Cursor) :
    Option (List Char × Nat × Cursor) :=
  let after := skipIndent indent cursor.place cursor.rest
  let widest := max widest after.place.column
  if (indent = 0 ∨ after.place.column < indent) ∧ after.sees '\t' then none
  else
    match after.takeBreak? with
    | some (c, behind) =>
      if behind.rest.length < cursor.rest.length then
        takeBlockBreaks? indent widest (breaks ++ [c]) behind
      else none
    | none => some (breaks, widest, after)
termination_by cursor.rest.length

/-- A block as read so far: its text, the break that ended its last line, and the breaks behind
that. -/
structure Block where
  text : List Char := []
  last : Option Char := none
  more : List Char
  /-- Whether the last line began with a blank. -/
  indented : Bool := false
  cursor : Cursor
deriving Repr

/-- What stands between the last line of a block and its next one. A folded block joins two lines
that do not begin with a blank. -/
def Block.joint (literal : Bool) (block : Block) : List Char :=
  if !literal && block.last == some '\n' && !block.indented &&
      !block.cursor.rest.head?.any isBlank then
    Gap.fold block.last block.more
  else block.last.toList ++ block.more

/-- The lines of a block that begin at the column `indent`. -/
def takeBlockLines? (literal : Bool) (indent : Nat) (block : Block) : Option Block :=
  if block.cursor.place.column = indent ∧ ¬ block.cursor.rest.isEmpty then do
    let (line, after) := block.cursor.takeWhile (!isBreak ·)
    let (last, behind) :=
      match after.takeBreak? with
      | some (c, behind) => (some c, behind)
      | none => (none, after)
    let (more, _, next) ← takeBlockBreaks? indent 0 [] behind
    if next.rest.length < block.cursor.rest.length then
      takeBlockLines? literal indent
        { text := block.text ++ block.joint literal ++ line, last, more
          indented := block.cursor.rest.head?.any isBlank, cursor := next }
    else none
  else some block
termination_by block.cursor.rest.length

/-- A block of lines, its mark included; `parent` is the column of the block around it. -/
def takeBlock? (literal : Bool) (parent : Int) (cursor : Cursor) : Option (String × Cursor) := do
  let (chomping, given, cursor) ← takeBlockHeader? (cursor.skip 1)
  let given := if given = 0 then 0 else (max parent 0).toNat + given
  let (breaks, widest, cursor) ← takeBlockBreaks? given 0 [] cursor
  let indent := if given = 0 then max (max widest (parent + 1).toNat) 1 else given
  let block ← takeBlockLines? literal indent { more := breaks, cursor }
  let ending :=
    match chomping with
    | .strip => []
    | .clip => block.last.toList
    | .keep => block.last.toList ++ block.more
  return (String.ofList (block.text ++ ending), block.cursor)

end Galley.Yaml
