import Galley.Number.Shortest
import Galley.Text.Quoted
import Galley.Text.Size
/-!
# What is wrong with a JSON text

A fault has a cause and a place. The place is told by the bytes of the text that are left behind
it, so that reading works on the rest of a text alone; line and column come from the whole text
when the fault is shown.
-/
namespace Galley.Json

open Galley.Text (size quoted)

/-- What stands in a text where something else was wanted. -/
inductive Found where
  | null
  | bool (b : Bool)
  | natural (n : Nat)
  | negative (n : Nat)
  | float (x : Galley.Number.Binary64)
  | string (s : String)
  | sequence
  | map
deriving DecidableEq, Repr

/-- Why a text is not the JSON that was wanted. -/
inductive Cause where
  | endInValue
  | endInList
  | endInObject
  | endInString
  | noColon
  | noListEnd
  | noObjectEnd
  | noIdent
  | noValue
  | badEscape
  | badNumber
  | numberOutOfRange
  | controlCharacter
  | keyNotString
  | loneSurrogate
  | unpairedSurrogate
  | trailingComma
  | trailingCharacters
  | tooDeep
  | wrongType (found : Found) (wanted : String)
  | wrongValue (found : Found) (wanted : String)
  | wrongLength (length : Nat) (wanted : String)
  | missingField (name : String)
  | duplicateField (name : String)
  | unknownVariant (name : String) (known : List String)
  | other (text : String)
deriving DecidableEq, Repr

/-- A cause with the number of bytes left behind the place where it arose. -/
structure Fault where
  cause : Cause
  left : Nat
deriving DecidableEq, Repr

/-! ### Wording -/

/-- How messages name what was found. -/
def Found.text : Found → String
  | .null => "null"
  | .bool b => "boolean `" ++ (if b then "true" else "false") ++ "`"
  | .natural n => "integer `" ++ toString n ++ "`"
  | .negative n => "integer `-" ++ toString n ++ "`"
  | .float x => "floating point `" ++ x.compactText ++ "`"
  | .string s => "string " ++ quoted s
  | .sequence => "sequence"
  | .map => "map"

/-- Alternatives as messages list them. -/
def alternatives (known : List String) : String :=
  match known.map fun name => "`" ++ name ++ "`" with
  | [] => "there are no variants"
  | [one] => "expected " ++ one
  | [one, two] => "expected " ++ one ++ " or " ++ two
  | many => "expected one of " ++ String.intercalate ", " many

/-- The wording of a cause, without its place. -/
def Cause.text : Cause → String
  | .endInValue => "EOF while parsing a value"
  | .endInList => "EOF while parsing a list"
  | .endInObject => "EOF while parsing an object"
  | .endInString => "EOF while parsing a string"
  | .noColon => "expected `:`"
  | .noListEnd => "expected `,` or `]`"
  | .noObjectEnd => "expected `,` or `\x7d`"
  | .noIdent => "expected ident"
  | .noValue => "expected value"
  | .badEscape => "invalid escape"
  | .badNumber => "invalid number"
  | .numberOutOfRange => "number out of range"
  | .controlCharacter => "control character (\\u0000-\\u001F) found while parsing a string"
  | .keyNotString => "key must be a string"
  | .loneSurrogate => "lone leading surrogate in hex escape"
  | .unpairedSurrogate => "unexpected end of hex escape"
  | .trailingComma => "trailing comma"
  | .trailingCharacters => "trailing characters"
  | .tooDeep => "recursion limit exceeded"
  | .wrongType found wanted => "invalid type: " ++ found.text ++ ", expected " ++ wanted
  | .wrongValue found wanted => "invalid value: " ++ found.text ++ ", expected " ++ wanted
  | .wrongLength length wanted =>
    "invalid length " ++ toString length ++ ", expected " ++ wanted
  | .missingField name => "missing field `" ++ name ++ "`"
  | .duplicateField name => "duplicate field `" ++ name ++ "`"
  | .unknownVariant name known => "unknown variant `" ++ name ++ "`, " ++ alternatives known
  | .other text => text

/-! ### Place -/

/-- Lines and bytes since the last line feed, over the first `bytes` bytes of a text. -/
def lineAndColumn (line column bytes : Nat) : List Char → Nat × Nat
  | [] => (line, column)
  | c :: rest =>
    if bytes < c.utf8Size then (line, column + bytes)
    else if c = '\n' then lineAndColumn (line + 1) 0 (bytes - 1) rest
    else lineAndColumn line (column + c.utf8Size) (bytes - c.utf8Size) rest

/-- The message for a fault found in `text`. -/
def Fault.message (text : String) (fault : Fault) : String :=
  let cs := text.toList
  let (line, column) := lineAndColumn 1 0 (size cs - fault.left) cs
  fault.cause.text ++ " at line " ++ toString line ++ " column " ++ toString column

/-! ### Raising faults -/

/-- A fault just before `rest`. -/
def faultAt {α : Type} (cause : Cause) (rest : List Char) : Except Fault α :=
  .error ⟨cause, size rest⟩

/-- A fault at the next byte, which counts as seen; at the end, a fault there. -/
def faultPast {α : Type} (cause : Cause) (rest : List Char) : Except Fault α :=
  .error ⟨cause, size rest - 1⟩

end Galley.Json
