import Galley.Json.Value
import Galley.Number.Shortest
/-!
# Writing JSON

Strings are quoted with the fewest escapes: quotes, backslashes and control characters. Values are
written without blanks, or indented by two spaces a level.
-/
namespace Galley.Json

private def lowerHex (n : Nat) : Char :=
  if n < 10 then Char.ofNat (48 + n) else Char.ofNat (87 + n)

/-- The characters that spell a character in a string. -/
def escapeChar (c : Char) : List Char :=
  if c = '"' then ['\\', '"']
  else if c = '\\' then ['\\', '\\']
  else if c = '\n' then ['\\', 'n']
  else if c = '\r' then ['\\', 'r']
  else if c = '\t' then ['\\', 't']
  else if c.toNat = 8 then ['\\', 'b']
  else if c.toNat = 12 then ['\\', 'f']
  else if c.toNat < 0x20 then
    ['\\', 'u', '0', '0', lowerHex (c.toNat / 16), lowerHex (c.toNat % 16)]
  else [c]

/-- A text as a JSON string. -/
def printString (text : String) : String :=
  String.ofList ('"' :: text.toList.flatMap escapeChar ++ ['"'])

def Number.print : Number → String
  | .natural n => toString n.toNat
  | .negative n => "-" ++ toString n.toNat
  | .float x => x.compactText

namespace Value

mutual

/-- A value without blanks. -/
def print : Value → String
  | .null => "null"
  | .bool b => if b then "true" else "false"
  | .number n => n.print
  | .string s => printString s
  | .array items => "[" ++ printItems true items ++ "]"
  | .object members => "\x7b" ++ printMembers true members ++ "\x7d"

def printItems (first : Bool) : List Value → String
  | [] => ""
  | item :: rest => (if first then "" else ",") ++ print item ++ printItems false rest

def printMembers (first : Bool) : List (String × Value) → String
  | [] => ""
  | (name, value) :: rest =>
    (if first then "" else ",") ++ printString name ++ ":" ++ print value ++ printMembers false rest

end

private def margin (level : Nat) : String := String.ofList (List.replicate (2 * level) ' ')

mutual

/-- A value with each item and member on a line of its own. -/
def pretty (level : Nat) : Value → String
  | .array [] => "[]"
  | .array (item :: rest) =>
    "[\n" ++ prettyItems (level + 1) true (item :: rest) ++ "\n" ++ margin level ++ "]"
  | .object [] => "\x7b\x7d"
  | .object (member :: rest) =>
    "\x7b\n" ++ prettyMembers (level + 1) true (member :: rest) ++ "\n" ++ margin level ++ "\x7d"
  | .null => "null"
  | .bool b => if b then "true" else "false"
  | .number n => n.print
  | .string s => printString s

def prettyItems (level : Nat) (first : Bool) : List Value → String
  | [] => ""
  | item :: rest =>
    (if first then "" else ",\n") ++ margin level ++ pretty level item ++
      prettyItems level false rest

def prettyMembers (level : Nat) (first : Bool) : List (String × Value) → String
  | [] => ""
  | (name, value) :: rest =>
    (if first then "" else ",\n") ++ margin level ++ printString name ++ ": " ++
      pretty level value ++
      prettyMembers level false rest

end

/-- A text, or `null` for none. -/
def ofText? : Option String → Value
  | some text => .string text
  | none => .null

end Value
end Galley.Json
