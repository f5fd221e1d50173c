import Galley.Yaml.Node
/-!
# Tokens as documents

The tokens of a text are read as one tree. A text holds at most one document.
-/
namespace Galley.Yaml

/-- What reading depends on: the tokens ahead, the handles of tags with what they stand for, and
the numbers of anchors by name. -/
structure Ahead where
  tokens : List Token
  handles : List (String × String)
  names : List (String × Nat)
deriving Repr

/-- Reads part of a document; `none` if the tokens make no document. -/
abbrev Reads (α : Type) := StateT Ahead Option α

namespace Reads

/-- The tokens end in one that is never passed over. -/
def peek : Reads Token := do
  match (← get).tokens with
  | token :: _ => return token
  | [] => failure

def skip : Reads Unit := modify fun ahead => { ahead with tokens := ahead.tokens.drop 1 }

/-- Passes over a symbol, or fails. -/
def expect (symbol : Symbol) : Reads Unit := do
  if (← peek).symbol = symbol then skip else failure

/-! ### Headers -/

def takeAnchor : Reads (Option Nat) := do
  match (← peek).symbol with
  | .anchor name =>
    skip
    let number := (← get).names.length
    modify fun ahead =>
      { ahead with names := (name, number) :: ahead.names.filter fun entry => entry.1 ≠ name }
    return some number
  | _ => return none

def takeTag : Reads (Option String) := do
  match (← peek).symbol with
  | .tag handle suffix =>
    skip
    if handle.isEmpty then return some suffix
    match (← get).handles.lookup handle with
    | some stem => return some (stem ++ suffix)
    | none => failure
  | _ => return none

/-- An anchor and a tag, in either order. -/
def takeHeader : Reads Header := do
  let place := (← peek).start
  let anchor ← takeAnchor
  let tag ← takeTag
  let anchor ← if anchor.isNone then takeAnchor else pure anchor
  return ⟨place, anchor, tag⟩

/-- A scalar without any text of its own. -/
def emptyScalar (place : Place) : Node := .scalar ⟨place, none, none⟩ .plain ""

/-- A scalar; the tag that only says "not plain" does not count. -/
def scalarNode (header : Header) (style : Style) (text : String) : Node :=
  .scalar { header with tag := header.tag.filter (· ≠ "!") } style text

/-! ### Nodes -/

/-- Symbols after which a value of a mapping is empty. -/
def endsBlockPart (symbol : Symbol) : Bool :=
  symbol = .key || symbol = .value || symbol = .blockEnd

mutual

/-- A node. In a block, `indentless` admits the entries of a sequence without a start of their
own. `fuel` bounds the number of reading steps ahead. -/
def node (block indentless : Bool) : (fuel : Nat) → Reads Node
  | 0 => failure
  | fuel + 1 => do
    let first ← peek
    match first.symbol with
    | .alias name =>
      skip
      match (← get).names.lookup name with
      | some number => return .alias first.start number
      | none => failure
    | _ =>
      let header ← takeHeader
      let token ← peek
      match token.symbol with
      | .scalar style text =>
        skip
        return scalarNode header style text
      | .flowSequenceStart =>
        skip
        return .sequence header (← flowItems true fuel)
      | .flowMappingStart =>
        skip
        return .mapping header (← flowEntries true fuel)
      | .blockSequenceStart =>
        if block then
          skip
          return .sequence header (← blockItems fuel)
        else bare header
      | .blockMappingStart =>
        if block then
          skip
          return .mapping header (← blockEntries fuel)
        else bare header
      | .blockEntry =>
        if indentless then return .sequence header (← indentlessItems fuel)
        else bare header
      | _ => bare header
where
  /-- A node that consists of its header. -/
  bare (header : Header) : Reads Node :=
    if header.anchor.isSome ∨ header.tag.isSome then
      return .scalar header .plain ""
    else failure

/-- A node of a block, or an empty one where a symbol ends the part. -/
def blockPart (indentless : Bool) (ends : Symbol → Bool) (place : Place) : (fuel : Nat) → Reads Node
  | 0 => failure
  | fuel + 1 => do
    if ends (← peek).symbol then return emptyScalar place
    else node true indentless fuel

/-- The items of a sequence with a start of its own. -/
def blockItems : (fuel : Nat) → Reads (List Node)
  | 0 => failure
  | fuel + 1 => do
    let token ← peek
    match token.symbol with
    | .blockEntry =>
      skip
      let item ← blockPart false (fun s => s = .blockEntry || s = .blockEnd) token.stop fuel
      return item :: (← blockItems fuel)
    | .blockEnd =>
      skip
      return []
    | _ => failure

/-- The items of a sequence at the indentation of the mapping around it. -/
def indentlessItems : (fuel : Nat) → Reads (List Node)
  | 0 => failure
  | fuel + 1 => do
    let token ← peek
    match token.symbol with
    | .blockEntry =>
      skip
      let item ← blockPart false (fun s => s = .blockEntry || endsBlockPart s) token.stop fuel
      return item :: (← indentlessItems fuel)
    | _ => return []

/-- The entries of a mapping in a block. -/
def blockEntries : (fuel : Nat) → Reads (List (Node × Node))
  | 0 => failure
  | fuel + 1 => do
    let token ← peek
    match token.symbol with
    | .key =>
      skip
      let key ← blockPart true endsBlockPart token.stop fuel
      let value ← blockValue fuel
      return (key, value) :: (← blockEntries fuel)
    | .blockEnd =>
      skip
      return []
    | _ => failure

/-- The value of an entry in a block. -/
def blockValue : (fuel : Nat) → Reads Node
  | 0 => failure
  | fuel + 1 => do
    let token ← peek
    match token.symbol with
    | .value =>
      skip
      blockPart true endsBlockPart token.stop fuel
    | _ => return emptyScalar token.start

/-- A node in brackets, or an empty one where a symbol ends the part. -/
def flowPart (ends : Symbol → Bool) : (fuel : Nat) → Reads Node
  | 0 => failure
  | fuel + 1 => do
    let token ← peek
    if ends token.symbol then return emptyScalar token.start
    else node false false fuel

/-- The items of a sequence in brackets. A key among them is a mapping with one entry. -/
def flowItems (first : Bool) : (fuel : Nat) → Reads (List Node)
  | 0 => failure
  | fuel + 1 => do
    if (← peek).symbol = .flowSequenceEnd then
      skip
      return []
    if ¬ first then expect .flowEntry
    let token ← peek
    match token.symbol with
    | .flowSequenceEnd =>
      skip
      return []
    | .key =>
      skip
      let pair ← flowPair fuel
      return .mapping ⟨token.start, none, none⟩ [pair] :: (← flowItems false fuel)
    | _ =>
      let item ← node false false fuel
      return item :: (← flowItems false fuel)

/-- The entry of a mapping that is an item of a sequence. Where the key is empty, the symbol behind
it is passed over too. -/
def flowPair : (fuel : Nat) → Reads (Node × Node)
  | 0 => failure
  | fuel + 1 => do
    let ends (symbol : Symbol) : Bool := symbol = .flowEntry || symbol = .flowSequenceEnd
    let token ← peek
    let key ←
      if token.symbol = .value ∨ ends token.symbol then do
        skip
        pure (emptyScalar token.stop)
      else node false false fuel
    let token ← peek
    if token.symbol = .value then
      skip
      return (key, ← flowPart ends fuel)
    else return (key, emptyScalar token.start)

/-- The entries of a mapping in brackets. -/
def flowEntries (first : Bool) : (fuel : Nat) → Reads (List (Node × Node))
  | 0 => failure
  | fuel + 1 => do
    if (← peek).symbol = .flowMappingEnd then
      skip
      return []
    if ¬ first then expect .flowEntry
    let ends (symbol : Symbol) : Bool := symbol = .flowEntry || symbol = .flowMappingEnd
    let token ← peek
    match token.symbol with
    | .flowMappingEnd =>
      skip
      return []
    | .key =>
      skip
      let key ← flowPart (fun s => s = .value || ends s) fuel
      let next ← peek
      let value ←
        if next.symbol = .value then do
          skip
          flowPart ends fuel
        else pure (emptyScalar next.start)
      return (key, value) :: (← flowEntries false fuel)
    | _ =>
      let key ← node false false fuel
      let value := emptyScalar (← peek).start
      return (key, value) :: (← flowEntries false fuel)

end

/-! ### Documents -/

/-- The handles that stand for something without a directive. -/
def defaultHandles : List (String × String) := [("!", "!"), ("!!", "tag:yaml.org,2002:")]

/-- The directives before a document. Each may be given once; the version must be a known one. -/
def directives (versioned : Bool) : (fuel : Nat) → Reads Unit
  | 0 => failure
  | fuel + 1 => do
    match (← peek).symbol with
    | .version major minor =>
      if versioned ∨ major ≠ 1 ∨ (minor ≠ 1 ∧ minor ≠ 2) then failure
      skip
      directives true fuel
    | .handle handle stem =>
      let ahead ← get
      if (ahead.handles.lookup handle).isSome then failure
      set { ahead with handles := (handle, stem) :: ahead.handles }
      skip
      directives versioned fuel
    | _ => return

/-- The only document, if there is one, and the end of the text. -/
def document (fuel : Nat) : Reads Document := do
  match (← peek).symbol with
  | .streamEnd => return .ofRoot none
  | .documentStart | .version _ _ | .handle _ _ =>
    directives false fuel
    modify fun ahead => { ahead with handles := ahead.handles ++ defaultHandles }
    expect .documentStart
    let token ← peek
    let root ←
      match token.symbol with
      | .version _ _ | .handle _ _ | .documentStart | .documentEnd | .streamEnd =>
        pure (emptyScalar token.start)
      | _ => node true false fuel
    finish root fuel
  | _ =>
    modify fun ahead => { ahead with handles := defaultHandles }
    finish (← node true false fuel) fuel
where
  /-- Marks of the document's end, and then the end of the text. -/
  finish (root : Node) : (fuel : Nat) → Reads Document
    | 0 => failure
    | fuel + 1 => do
      match (← peek).symbol with
      | .documentEnd =>
        skip
        finish root fuel
      | .streamEnd => return .ofRoot (some root)
      | _ => failure

end Reads

/-- The document of a text; `none` if the text is not one document of YAML. -/
def Document.ofText? (text : String) : Option Document := do
  let tokens ← tokens? text
  let (document, _) ← (Reads.document (6 * tokens.length + 6)).run ⟨tokens, [], []⟩
  return document

end Galley.Yaml
