import Galley.Text.Quoted
import Galley.Text.Size
/-!
# What is wrong with a citation database

A fault has a reason and a span. The span is told by the bytes of the text that are left behind
either end, so that reading works on the rest of a text alone.
-/
namespace Galley.Bibliography

open Galley.Text (size)

/-- What may be wanted or unwanted at some place of a database. -/
inductive Mark where
  | identifier
  | openingBrace
  | closingBrace
  | comma
  | quote
  | equals
  | decimalPoint
deriving DecidableEq, Repr

/-- Why a value is not what its field needs. -/
inductive Misfit where
  | wrongNumberOfDigits
  | missingNumber
  | invalidNumber
  | dayOutOfRange
deriving DecidableEq, Repr

inductive Reason where
  | endOfText
  | expected (mark : Mark)
  | unexpected (mark : Mark)
  | unknownAbbreviation (name : String)
  | duplicateKey (key : String)
  | misfit (cause : Misfit)
  /-- A misfit in an entry that another entry refers to. -/
  | inherited (cause : Misfit)
deriving DecidableEq, Repr

structure Fault where
  reason : Reason
  start : Nat
  stop : Nat
deriving DecidableEq, Repr

/-! ### Wording -/

def Mark.text : Mark → String
  | .identifier => "identifier"
  | .openingBrace => "opening brace"
  | .closingBrace => "closing brace"
  | .comma => "comma"
  | .quote => "double quote"
  | .equals => "equals"
  | .decimalPoint => "decimal point"

def Misfit.text : Misfit → String
  | .wrongNumberOfDigits => "wrong number of digits"
  | .missingNumber => "missing number"
  | .invalidNumber => "invalid number"
  | .dayOutOfRange => "day out of range (must be between 1 and 31)"

def Reason.text : Reason → String
  | .endOfText => "biblatex parse error: unexpected end of file"
  | .expected mark => "biblatex parse error: expected " ++ mark.text
  | .unexpected mark => "biblatex parse error: unexpected " ++ mark.text
  | .unknownAbbreviation name =>
    "biblatex parse error: unknown abbreviation " ++ Text.quoted name
  | .duplicateKey key => "biblatex parse error: duplicate key " ++ Text.quoted key
  | .misfit cause => "biblatex type error: " ++ cause.text
  | .inherited cause =>
    "biblatex parse error: type error occurred during crossref resolution: " ++ cause.text

/-- The wording of a fault found in `text`, with the bytes before either end of its span. -/
def Fault.message (text : String) (fault : Fault) : String :=
  let total := size text.toList
  fault.reason.text ++ ": " ++ toString (total - fault.start) ++ "-" ++
    toString (total - fault.stop)

/-! ### Raising faults -/

/-- A fault just before `cs`. -/
def faultHere {α : Type} (reason : Reason) (cs : List Char) : Except Fault α :=
  .error ⟨reason, size cs, size cs⟩

/-- A fault at the first character of `cs`. -/
def faultAtFirst {α : Type} (reason : Reason) (cs : List Char) : Except Fault α :=
  .error ⟨reason, size cs, size cs.tail⟩

end Galley.Bibliography
