import Galley.Bibliography.Entry
import Galley.Bibliography.Record
/-!
# Reading a citation database

Abbreviations are replaced where they are used, and each entry becomes a record. No key may stand
twice, and every record must fit its fields.
-/
namespace Galley.Bibliography

/-! ### Values -/

/-- Fields whose text is taken as it is. -/
def verbatimFields : List String :=
  ["file", "doi", "uri", "eprint", "verba", "verbb", "verbc", "pdf", "url", "urlraw"]

/-- The names of the months; the first three letters abbreviate them. -/
def monthNames : List String :=
  ["January", "February", "March", "April", "May", "June", "July", "August", "September",
    "October", "November", "December"]

/-- The full name of a month. -/
def monthName? (text : String) : Option String :=
  monthNames.find? fun name =>
    [lowerName name, lowerName (String.ofList (name.toList.take 3))].contains (lowerName text)

/-- The value of parts of a field, in which abbreviations stand for other abbreviations in chains of
a length. The first abbreviation of a name counts, and the names of months are known. -/
def resolve (strings : List RawField) (verbatim : Bool) :
    (length : Nat) → List Part → Except Fault Value
  | length, parts => do
    let values ← parts.mapM fun part =>
      match part with
      | .text cs left => do
        let glyphs ←
          if verbatim then pure (Glyph.ofChars true cs) else Glyph.ofContent 0 left cs
        return (⟨glyphs, left + Text.size cs, left⟩ : Value)
      | .abbreviation name start stop =>
        match length, strings.find? (·.name == name) with
        | length + 1, some field => resolve strings verbatim length field.parts
        | _, _ =>
          match monthName? name with
          | some month => pure (Value.ofText month start stop)
          | none => .error ⟨.unknownAbbreviation name, start, stop⟩
    match values with
    | [] => return ⟨[], 0, 0⟩
    | first :: rest => return rest.foldl Value.append first
termination_by length => length

/-- The record of an entry. The last field of a name counts. -/
def recordOf (strings : List RawField) (entry : RawEntry) : Except Fault Record := do
  let fields ← entry.fields.mapM fun field => do
    let name := lowerName field.name
    let value ← resolve strings (verbatimFields.contains name) strings.length field.parts
    return (name, value)
  return ⟨entry.kind, entry.key, fields.reverse⟩

/-! ### Records -/

/-- Records in order, and all names under which they are known, the last ones first. -/
structure Records where
  inOrder : List Record := []
  known : List (String × Record) := []
deriving DecidableEq, Repr

namespace Records

/-- Adds a record under its key and the other names that it lists. -/
def add (records : Records) (record : Record) : Records where
  inOrder := records.inOrder ++ [record]
  known :=
    (record.keys "ids").map (·, record) ++ (record.key, record) :: records.known

/-- The records of entries; no key may be known before. -/
def ofEntries (strings : List RawField) (records : Records) :
    List RawEntry → Except Fault Records
  | [] => .ok records
  | entry :: rest => do
    if (records.known.lookup entry.key).isSome then
      .error ⟨.duplicateKey entry.key, entry.start, entry.stop⟩
    ofEntries strings (records.add (← recordOf strings entry)) rest

end Records

/-- The records that a text spells, with the dates of those that they refer to. -/
def parse (text : String) : Except Fault (List Record) := do
  let raw ← takeEntries {} text.toList
  let records ← Records.ofEntries raw.strings {} raw.entries
  (records.inOrder.mapM (Record.withParents records.known records.known.length)).mapError
    (·.fault .inherited)

/-! ### Checking -/

/-- What is wrong with each record that does not fit. -/
def misfits (records : List Record) : List Fault :=
  records.filterMap fun record =>
    match record.check with
    | .ok () => none
    | .error misplaced => some (misplaced.fault .misfit)

/-- Reads the database of references back and counts its entries. Otherwise there is one fault that
stopped the reading, or one for each entry that does not fit. -/
def validate (references : List Article.Reference) : Except (List Fault) Nat := do
  let records ← (parse (print (entries references))).mapError ([·])
  if (misfits records).isEmpty then return records.length else .error (misfits records)

/-- The wording of a failed check. -/
def unparseable (references : List Article.Reference) (faults : List Fault) : String :=
  "Generated bibliography does not parse: " ++
    String.intercalate "; " (faults.map (Fault.message (print (entries references))))

end Galley.Bibliography
