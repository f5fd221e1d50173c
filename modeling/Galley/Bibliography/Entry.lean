import Galley.Article.Reference
/-!
# The citation database

Each reference becomes one entry with a key, and up to three fields whose values stand in braces.
-/
namespace Galley.Bibliography

open Galley.Article (Reference)

/-- An entry of the database. -/
structure Entry where
  key : String
  note : Option String
  doi : Option String
  url : Option String
deriving DecidableEq, Repr

namespace Entry

/-- The key of a reference without an identifier, by its position counted from one. -/
def fallbackKey (position : Nat) : String := "ref" ++ toString position

/-- The trimmed identifier, or the position's key if that is missing or blank. -/
def keyOf (position : Nat) (reference : Reference) : String :=
  match (Text.nonBlank? reference.id).map Text.trim with
  | some id => id
  | none => fallbackKey position

/-- The entry of the reference at a position, counted from one. The note is its text in the first
language. -/
def ofReference (position : Nat) (reference : Reference) : Entry :=
  { key := keyOf position reference
    note := Text.nonBlank? reference.text.first?
    doi := reference.doi?
    url := reference.url? }

/-- The fields that are present, in the order they are written. -/
def fields (entry : Entry) : List (String × String) :=
  [("note", entry.note), ("doi", entry.doi), ("url", entry.url)].filterMap fun field =>
    field.2.map fun value => (field.1, value)

private def fieldLine (field : String × String) : String :=
  "  " ++ field.1 ++ " = \x7b" ++ field.2 ++ "\x7d,\n"

def print (entry : Entry) : String :=
  "@article\x7b" ++ entry.key ++ ",\n" ++ String.join (entry.fields.map fieldLine) ++ "\x7d\n\n"

end Entry

/-- The entries of references in order, the first of them at `position`. -/
def entriesFrom (position : Nat) : List Reference → List Entry
  | [] => []
  | reference :: rest => Entry.ofReference position reference :: entriesFrom (position + 1) rest

def entries (references : List Reference) : List Entry := entriesFrom 1 references

/-- Entries as the text of a database. -/
def print (entries : List Entry) : String := String.join (entries.map Entry.print)

end Galley.Bibliography
