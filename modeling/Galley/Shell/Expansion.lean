import Galley.Shell.Arithmetic
import Galley.Shell.Pattern
import Galley.Shell.State
/-!
# Expanding words

A word becomes any number of fields. Values that are not quoted are cut at blanks, and fields with
unquoted pattern characters become the paths that they match, if there are any.

This is a part of the stand-in for the system's shell, see `Galley.Shell.Programs`.
-/
namespace Galley.Shell

open Galley.Host (FileTree Location)

namespace Expansion

/-- A part of an expanded word. -/
inductive Part where
  | text (text : String) (quoted : Bool)
  /-- A value, which is cut into fields. -/
  | value (text : String)
  /-- Ends a field. -/
  | gap
deriving DecidableEq, Repr

private def valuePart (text : String) (quoted : Bool) : Part :=
  if quoted then .text text true else .value text

/-! ### Parameters -/

/-- All arguments, each a field of its own. -/
def allArguments (quoted : Bool) (arguments : List String) : List Part :=
  (arguments.map fun argument => [valuePart argument quoted]).intersperse [.gap] |>.flatten

/-- What stands between arguments that are put together: the first separator of fields. -/
def joint (state : State) : String :=
  match (state.bindings.lookup "IFS").map String.toList with
  | none => " "
  | some [] => ""
  | some (c :: _) => c.toString

/-- The value of a parameter, if it is set. -/
def valueOf (name : String) : Run (Option String) := do
  let state ← get
  match name with
  | "#" => return some (toString state.arguments.length)
  | "?" => return some (toString state.status)
  | "$" => return some (toString state.process)
  | "!" => return if state.lastProcess = 0 then none else some (toString state.lastProcess)
  | "-" => return some ((if state.strict then "e" else "") ++ (if state.careful then "u" else "") ++
      (if state.traced then "x" else ""))
  | "0" => return some state.name
  | "*" | "@" =>
    return if state.arguments.isEmpty then none
      else some (Text.joinWith (joint state) state.arguments)
  | _ =>
    match name.toNat? with
    | some n => return state.arguments[n - 1]?
    | none => Run.lookup name

private def isAll (name : String) : Bool := name == "@" || name == "*"

/-- The parts that the value of a parameter is made of. -/
def parameterParts (name : String) (quoted : Bool) : Run (List Part) := do
  let state ← get
  if name = "@" ∨ (name = "*" ∧ !quoted) then return allArguments quoted state.arguments
  match ← valueOf name with
  | some text => return [valuePart text quoted]
  | none =>
    if state.careful ∧ !isAll name then
      Run.complainOf (name ++ ": parameter not set")
      Run.exitWith 2
    return if quoted then [.text "" true] else []

/-- The characters of parts, as marks of a pattern. -/
def marks : List Part → List Mark
  | [] => []
  | .text text quoted :: rest => text.toList.map (fun c => (c, quoted)) ++ marks rest
  | .value text :: rest => text.toList.map (fun c => (c, false)) ++ marks rest
  | .gap :: rest => (' ', true) :: marks rest

/-- The text of parts that stay one field. -/
def joined (parts : List Part) : String := String.ofList ((marks parts).map (·.1))

/-! ### Pieces -/

/-- What scripts in a word print. -/
abbrev Printer := String → Run ByteArray

/-- A printed text without the line ends at its end. -/
private def withoutLineEnds (bytes : ByteArray) : String :=
  String.ofList (Text.dropEndWhile (· == '\n') (Text.shownText bytes).toList)

mutual

def expandPiece (printer : Printer) : Piece → Run (List Part)
  | .literal text quoted => return [.text text quoted]
  | .output script quoted => do
    return [valuePart (withoutLineEnds (← printer script)) quoted]
  | .arithmetic expression quoted => do
    let text := joined (← expandPieces printer expression)
    let state ← get
    let value? (name : String) : Int :=
      ((state.bindings.lookup name).bind Arithmetic.integer?).getD 0
    match Arithmetic.evaluate value? text with
    | .ok value => return [valuePart (toString value) quoted]
    | .error fault =>
      Run.complainOf ("arithmetic expression: " ++ fault.text ++ ": \"" ++ text ++ "\"")
      Run.exitWith 2
  | .parameter name quoted operation empties word => do
    let value ← valueOf name
    let given := value.filter fun text => !(empties && text.isEmpty)
    match operation with
    | .value => parameterParts name quoted
    | .length => return [valuePart (toString (value.getD "").utf8ByteSize) quoted]
    | .orElse =>
      if given.isSome then parameterParts name quoted else expandPieces printer word
    | .orAssign =>
      if given.isNone then
        Run.assign name (joined (← expandPieces printer word))
      parameterParts name quoted
    | .orFail =>
      if given.isSome then parameterParts name quoted
      else
        let text := joined (← expandPieces printer word)
        let unset := if empties then "parameter not set or null" else "parameter not set"
        Run.complainOf (name ++ ": " ++ (if text.isEmpty then unset else text))
        Run.exitWith 2
    | .instead => if given.isSome then expandPieces printer word else return []
    | .malformed =>
      Run.complainOf "Bad substitution"
      Run.exitWith 2
    | .cutStart longest => do
      let pattern := Pattern.ofMarks (marks (← expandPieces printer word))
      return [valuePart (String.ofList (pattern.cutStart longest (value.getD "").toList)) quoted]
    | .cutEnd longest => do
      let pattern := Pattern.ofMarks (marks (← expandPieces printer word))
      return [valuePart (String.ofList (pattern.cutEnd longest (value.getD "").toList)) quoted]

def expandPieces (printer : Printer) : List Piece → Run (List Part)
  | [] => return []
  | piece :: rest => do
    let first ← expandPiece printer piece
    return first ++ (← expandPieces printer rest)

end

/-- The text of a word that stays one field. -/
def expandText (printer : Printer) (word : Word) : Run String :=
  return joined (← expandPieces printer word)

/-- The pattern that a word spells. -/
def expandPattern (printer : Printer) (word : Word) : Run Pattern :=
  return Pattern.ofMarks (marks (← expandPieces printer word))

/-! ### Fields -/

/-- Fields that are complete, the last one first, and the one that is being put together. -/
structure Fields where
  done : List (List Mark)
  current : Option (List Mark)

namespace Fields

def close (fields : Fields) : Fields :=
  match fields.current with
  | some field => ⟨field :: fields.done, none⟩
  | none => fields

def append (fields : Fields) (more : List Mark) : Fields :=
  { fields with current := some (fields.current.getD [] ++ more) }

/-- Takes in a character of a value that is cut at separators. -/
def takeChar (separators : List Char) (fields : Fields) (c : Char) : Fields :=
  if separators.contains c then
    if c = ' ' ∨ c = '\t' ∨ c = '\n' then fields.close
    else (⟨fields.done, some (fields.current.getD [])⟩ : Fields).close
  else fields.append [(c, false)]

def takePart (separators : List Char) (fields : Fields) : Part → Fields
  | .text text quoted =>
    if text.isEmpty ∧ !quoted then fields
    else fields.append (text.toList.map fun c => (c, quoted))
  | .value text => text.toList.foldl (takeChar separators) fields
  | .gap => fields.close

def ofParts (separators : List Char) (parts : List Part) : List (List Mark) :=
  (parts.foldl (takePart separators) ⟨[], none⟩).close.done.reverse

end Fields

/-! ### Paths -/

/-- The names of a directory that match, in order; those with a point in front only if the pattern
begins with one. -/
def matchingNames (names : List String) (marks : List Mark) : List String :=
  let pattern := Pattern.ofMarks marks
  let hidden := marks.head?.any (·.1 == '.')
  let found := names.filter fun name =>
    pattern.fits name.toList && (hidden || !(name.toList.head? == some '.'))
  found.mergeSort fun a b => a ≤ b

/-- The paths that the pieces of a pattern between slashes lead to; `path` is what they begin
with. -/
def pathsFrom (tree : FileTree) (current : Location) (path : String) :
    List (List Mark) → List String
  | [] => [path]
  | piece :: rest =>
    let text := String.ofList (piece.map (·.1))
    if Pattern.isWanted piece then
      let directory := if path.isEmpty then "." else path
      match tree.find current directory with
      | .ok (_, .directory entries) =>
        (matchingNames (entries.map (·.1)) piece).flatMap fun name =>
          let next := path ++ name
          if rest.isEmpty then [next] else pathsFrom tree current (next ++ "/") rest
      | _ => []
    else
      let next := path ++ text
      if rest.isEmpty then
        if (tree.find current (if next.isEmpty then "." else next)).isOk then [next] else []
      else pathsFrom tree current (next ++ "/") rest

private def splitMarks (marks : List Mark) : List (List Mark) :=
  marks.foldr (fun mark pieces =>
    if mark.1 = '/' then [] :: pieces
    else
      match pieces with
      | [] => [[mark]]
      | piece :: rest => (mark :: piece) :: rest) [[]]

/-- The paths that a field stands for. -/
def pathsOf (tree : FileTree) (current : Location) (field : List Mark) : List String :=
  let text := String.ofList (field.map (·.1))
  if Pattern.isWanted field then
    match pathsFrom tree current "" (splitMarks field) with
    | [] => [text]
    | paths => paths
  else [text]

/-- The fields of words. -/
def expandWords (printer : Printer) : List Word → Run (List String)
  | [] => return []
  | word :: rest => do
    let parts ← expandPieces printer word
    let state ← get
    let separators := ((state.bindings.lookup "IFS").getD " \t\n").toList
    let fields := (Fields.ofParts separators parts).flatMap (pathsOf state.tree state.current)
    return fields ++ (← expandWords printer rest)

end Expansion
end Galley.Shell
