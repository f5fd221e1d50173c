import Galley.Bibliography.Content
import Galley.Number.Binary64
/-!
# The records of a citation database

A record is an entry whose values were read. Its date is told by one field, which may hold anything,
or by fields of its parts, of which year and day must be numbers. A record may refer to others and
takes its date from them.
-/
namespace Galley.Bibliography

open Galley.Text (size)

/-- A value that was read, and the bytes left behind either end. -/
structure Value where
  glyphs : List Glyph
  start : Nat
  stop : Nat
deriving DecidableEq, Repr

namespace Value

def text (value : Value) : List Char := value.glyphs.map Glyph.char

/-- A text as a value in the place of an abbreviation. -/
def ofText (text : String) (start stop : Nat) : Value :=
  ⟨Glyph.ofChars true text.toList, start, stop⟩

def append (first second : Value) : Value :=
  ⟨first.glyphs ++ second.glyphs, first.start, second.stop⟩

end Value

structure Record where
  kind : String
  key : String
  /-- The names are in lower case. Of two fields of a name the first one counts. -/
  fields : List (String × Value)
deriving DecidableEq, Repr

/-! ### Numbers -/

/-- A misfit with the bytes left behind either end of its span. -/
structure Misplaced where
  misfit : Misfit
  start : Nat
  stop : Nat
deriving DecidableEq, Repr

def Misplaced.fault (misplaced : Misplaced) (reason : Misfit → Reason) : Fault :=
  ⟨reason misplaced.misfit, misplaced.start, misplaced.stop⟩

namespace Value

def refuse {α : Type} (value : Value) (misfit : Misfit) : Except Misplaced α :=
  .error ⟨misfit, value.start, value.stop⟩

private def trimmed (cs : List Char) : List Char := (Text.trim (String.ofList cs)).toList

/-- The number that digits spell. -/
def numeral? (cs : List Char) : Option Nat :=
  if cs.isEmpty ∨ ¬ cs.all Char.isDigit then none
  else some (cs.foldl (fun n c => n * 10 + (c.toNat - 48)) 0)

/-- A year begins with exactly four digits, behind blanks and a minus sign. -/
def checkYear (value : Value) : Except Misplaced Unit :=
  let cs := skipBlanks value.text
  let digits :=
    match cs with
    | '-' :: rest => rest
    | _ => cs
  let count := (digits.takeWhile Char.isDigit).length
  let start := value.start - (size value.text - size digits)
  if count = 4 then .ok () else .error ⟨.wrongNumberOfDigits, start, start - count⟩

/-- A number of one byte, possibly with a plus sign. -/
def byte (value : Value) : Except Misplaced Nat :=
  let cs := trimmed value.text
  if cs.isEmpty then value.refuse .missingNumber
  else
    let digits :=
      match cs with
      | '+' :: rest => rest
      | _ => cs
    match numeral? digits with
    | some n => if n < 256 then .ok n else value.refuse .invalidNumber
    | none => value.refuse .invalidNumber

def checkDay (value : Value) : Except Misplaced Unit := do
  let n ← value.byte
  if n = 0 ∨ 31 < n then value.refuse .dayOutOfRange

/-- A number of volumes is an integer of 64 bits or a Roman numeral. -/
def checkCount (value : Value) : Except Misplaced Unit :=
  let cs := trimmed value.text
  let isRoman := !cs.isEmpty && cs.all "IVXLCDMivxlcdm".toList.contains
  let fits : Bool :=
    match cs with
    | '-' :: digits => (numeral? digits).any (· ≤ Number.twoTo 63)
    | '+' :: digits => (numeral? digits).any (· < Number.twoTo 63)
    | digits => (numeral? digits).any (· < Number.twoTo 63)
  if isRoman ∨ fits then .ok () else value.refuse .invalidNumber

end Value

/-! ### Records -/

namespace Record

def value? (record : Record) (name : String) : Option Value := record.fields.lookup name

/-- The keys that a field lists. -/
def keys (record : Record) (name : String) : List String :=
  match record.value? name with
  | some value => Glyph.splitAtBare ',' value.glyphs
  | none => []

/-- Whether a record has a date. A day counts only with a month, which may be any text. -/
def hasDate (record : Record) : Except Misplaced Bool :=
  match record.value? "date", record.value? "year" with
  | some _, _ => .ok true
  | none, none => .ok false
  | none, some year => do
    year.checkYear
    match record.value? "month", record.value? "day" with
    | some _, some day => day.checkDay
    | _, _ => pure ()
    return true

/-- A record fits if its date and its number of volumes do. -/
def check (record : Record) : Except Misplaced Unit := do
  let _ ← record.hasDate
  match record.value? "volumes" with
  | none => return
  | some volumes => volumes.checkCount

/-- Takes the date of another record, unless that has none. Data for other records take none. -/
def inherit (record parent : Record) : Except Misplaced Record := do
  if record.kind = "xdata" then return record
  if ← parent.hasDate then
    let others := record.fields.filter fun field =>
      ¬ ["date", "year", "month", "day"].contains field.1
    return { record with fields := ("date", ⟨[], 0, 0⟩) :: others }
  else return record

/-- The records that a record refers to, of those that are known under some name. -/
def parents (known : List (String × Record)) (record : Record) : List Record :=
  let named := ((record.value? "crossref").map fun value => String.ofList value.text).toList
  (named ++ record.keys "xdata").filterMap fun key => known.lookup key

/-- A record with the dates of all that it refers to, over chains of a length. -/
def withParents (known : List (String × Record)) :
    (length : Nat) → Record → Except Misplaced Record
  | 0, record => .ok record
  | length + 1, record =>
    (record.parents known).foldlM
      (fun record parent => do record.inherit (← withParents known length parent)) record

end Record
end Galley.Bibliography
