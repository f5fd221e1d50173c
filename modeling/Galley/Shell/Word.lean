/-!
# Words of a script

A word is a row of pieces: texts that stand for themselves, parameters, and the outputs of scripts.
What stands in quotes is neither cut into fields nor read as a pattern.

This is a part of the stand-in for the system's shell, see `Galley.Shell.Programs`.
-/
namespace Galley.Shell

/-- What is done with the value of a parameter; some of it needs a second word. -/
inductive Operation where
  | value
  | length
  /-- The word in place of a value that is not set. -/
  | orElse
  /-- The same, and the parameter is set to it. -/
  | orAssign
  /-- Ends the script if the value is not set. -/
  | orFail
  /-- The word in place of a value that is set. -/
  | instead
  /-- Without its shortest or longest beginning that the word matches. -/
  | cutStart (longest : Bool)
  | cutEnd (longest : Bool)
  /-- What stands in the braces is no parameter. -/
  | malformed
deriving DecidableEq, Repr

inductive Piece where
  | literal (text : String) (quoted : Bool)
  /-- With `empties`, an empty value counts as one that is not set. -/
  | parameter (name : String) (quoted : Bool) (operation : Operation) (empties : Bool)
    (word : List Piece)
  /-- What a script prints. -/
  | output (script : String) (quoted : Bool)
  | arithmetic (expression : List Piece) (quoted : Bool)

abbrev Word := List Piece

namespace Word

/-- The text of a word without quotes and parameters. -/
def bare? : Word → Option String
  | [] => some ""
  | .literal text false :: rest => (bare? rest).map (text ++ ·)
  | _ :: _ => none

def isNameStart (c : Char) : Bool := c.isAlpha || c == '_'

def isNameChar (c : Char) : Bool := c.isAlphanum || c == '_'

/-- Whether a text may name a variable. -/
def isName (text : String) : Bool :=
  match text.toList with
  | [] => false
  | c :: rest => isNameStart c && rest.all isNameChar

/-- The characters that a word begins with, up to its first quote or parameter. -/
def opening : Word → List Char
  | .literal text false :: rest => text.toList ++ opening rest
  | _ => []

/-- Drops so many characters from the texts that a word begins with. -/
def dropOpening : Nat → Word → Word
  | 0, word => word
  | n + 1, .literal text false :: rest =>
    let size := text.toList.length
    if size ≤ n + 1 then dropOpening (n + 1 - size) rest
    else .literal (String.ofList (text.toList.drop (n + 1))) false :: rest
  | _ + 1, word => word
termination_by _ word => word.length

/-- The name and the value of a word that sets a variable. -/
def assignment? (word : Word) : Option (String × Word) :=
  let name := word.opening.takeWhile (· != '=')
  if name.length < word.opening.length ∧ isName (String.ofList name) then
    some (String.ofList name, word.dropOpening (name.length + 1))
  else none

end Word
end Galley.Shell
