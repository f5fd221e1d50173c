import Galley.Bibliography.Fault
import Galley.Text.Blank
/-!
# A citation database as it is written

A database is a sequence of entries with anything between them. An entry has a kind, a key and
fields; the value of a field stands in braces or quotes, or is a number or an abbreviation, and may
be put together from several of these. A comment runs from a percent sign to the end of its line;
one may stand between entries, and before and behind each field. Reading stops at the first fault.
-/
namespace Galley.Bibliography

open Galley.Text (size)

/-! ### Words and marks -/

def isControl (c : Char) : Bool := c.toNat < 0x20 || 0x7F ≤ c.toNat && c.toNat ≤ 0x9F

/-- The characters of a key. -/
def isKeyChar (c : Char) : Bool := c != ',' && c != '}' && !isControl c && !Text.isBlank c

/-- The characters of the names of kinds and fields. -/
def isNameChar (c : Char) : Bool :=
  !"@\x7b\x7d\"#'(),=%\\~".toList.contains c && !isControl c && !Text.isBlank c

/-- The characters that a name may begin with. -/
def isNameStart (c : Char) : Bool := isNameChar c && !":<->".toList.contains c

def lowerName (name : String) : String := String.ofList (name.toList.map Char.toLower)

def skipBlanks (cs : List Char) : List Char := cs.dropWhile Text.isBlank

/-- The text behind a comment that begins it. -/
def skipComment : List Char → List Char
  | '%' :: rest => rest.dropWhile (· != '\n')
  | cs => cs

/-- Passes over blanks and at most one comment. -/
def skipGap (cs : List Char) : List Char := skipBlanks (skipComment (skipBlanks cs))

def takeMark (mark : Char) (wanted : Mark) (cs : List Char) : Except Fault (List Char) :=
  match cs with
  | [] => faultHere (.expected wanted) cs
  | c :: rest => if c = mark then .ok rest else faultHere (.expected wanted) cs

/-- A brace around an entry, in place of which a quote may stand, behind blanks. -/
def takeEntryBrace (brace : Char) (wanted : Mark) (cs : List Char) : Except Fault (List Char) :=
  match skipBlanks cs with
  | [] => faultHere (.expected wanted) []
  | c :: rest => if c = brace ∨ c = '"' then .ok rest else faultHere (.expected wanted) (c :: rest)

def takeName (cs : List Char) : Except Fault (String × List Char) :=
  match cs with
  | [] => faultHere (.expected .identifier) cs
  | c :: rest =>
    if isNameStart c then
      .ok (String.ofList (c :: rest.takeWhile isNameChar), rest.dropWhile isNameChar)
    else faultHere (.expected .identifier) cs

/-! ### Values -/

/-- The text up to the brace that closes it, and what follows that brace. A backslash keeps the
character behind it from counting. `text` holds what was read, backwards. -/
def takeBraced (depth : Nat) (text : List Char) :
    List Char → Except Fault (List Char × List Char)
  | [] => faultHere .endOfText []
  | '\\' :: c :: rest => takeBraced depth (c :: '\\' :: text) rest
  | '{' :: rest => takeBraced (depth + 1) ('{' :: text) rest
  | '}' :: rest =>
    match depth with
    | 0 => .ok (text.reverse, rest)
    | depth + 1 => takeBraced depth ('}' :: text) rest
  | c :: rest => takeBraced depth (c :: text) rest

/-- The text up to the quote that closes it, and what follows that quote. A brace may be closed only
after it was opened, but need not be closed. -/
def takeQuoted (depth : Nat) (text : List Char) :
    List Char → Except Fault (List Char × List Char)
  | [] => faultHere .endOfText []
  | '\\' :: c :: rest => takeQuoted depth (c :: '\\' :: text) rest
  | '{' :: rest => takeQuoted (depth + 1) ('{' :: text) rest
  | '}' :: rest =>
    match depth with
    | 0 => faultAtFirst (.unexpected .closingBrace) ('}' :: rest)
    | depth + 1 => takeQuoted depth ('}' :: text) rest
  | '"' :: rest => .ok (text.reverse, rest)
  | c :: rest => takeQuoted depth (c :: text) rest

/-- Digits with at most one point. -/
def takeNumber (pointed : Bool) (text : List Char) :
    List Char → Except Fault (List Char × List Char)
  | [] => .ok (text.reverse, [])
  | c :: rest =>
    if c.isDigit then takeNumber pointed (c :: text) rest
    else if c = '.' then
      if pointed then faultAtFirst (.unexpected .decimalPoint) (c :: rest)
      else takeNumber true (c :: text) rest
    else .ok (text.reverse, c :: rest)

/-- A part of a value. -/
inductive Part where
  /-- A text, and the bytes left behind it. -/
  | text (cs : List Char) (left : Nat)
  | abbreviation (name : String) (start stop : Nat)
deriving DecidableEq, Repr

/-- A text in quotes. -/
def takeQuotedPart (cs : List Char) : Except Fault (Part × List Char) := do
  let (text, after) ← takeQuoted 0 [] (← takeMark '"' .quote cs)
  return (.text text (size after + 1), after)

def takePart (cs : List Char) : Except Fault (Part × List Char) :=
  match cs with
  | [] => faultHere .endOfText cs
  | c :: rest =>
    if c = '{' then do
      let (text, after) ← takeBraced 0 [] rest
      return (.text text (size after + 1), after)
    else if c = '"' then takeQuotedPart (c :: rest)
    else if c.isDigit then do
      let (text, after) ← takeNumber false [] (c :: rest)
      return (.text text (size after), after)
    else if isNameStart c then do
      let (name, after) ← takeName (c :: rest)
      return (.abbreviation name (size cs) (size after), after)
    else faultHere .endOfText cs

/-- The parts of a value. -/
def takeValue (cs : List Char) : Except Fault (List Part × List Char) := do
  let (part, after) ← takePart cs
  match skipBlanks after with
  | '#' :: rest =>
    let next := skipBlanks rest
    if next.length < cs.length then do
      let (parts, behind) ← takeValue next
      return (part :: parts, behind)
    else return ([part], '#' :: rest)
  | other => return ([part], other)
termination_by cs.length

/-! ### Entries -/

/-- A field of an entry as it is written. -/
structure RawField where
  name : String
  parts : List Part
deriving DecidableEq, Repr

/-- An entry as it is written, and the bytes left behind either end. -/
structure RawEntry where
  kind : String
  key : String
  fields : List RawField
  start : Nat
  stop : Nat
deriving DecidableEq, Repr

/-- A database as it is written. -/
structure Raw where
  entries : List RawEntry := []
  /-- Abbreviations with their values. -/
  strings : List RawField := []
deriving DecidableEq, Repr

def takeField (cs : List Char) : Except Fault (RawField × List Char) := do
  let (name, after) ← takeName cs
  let after ← takeMark '=' .equals (skipBlanks after)
  let (parts, after) ← takeValue (skipBlanks after)
  return (⟨name, parts⟩, skipGap after)

/-- Whether fields end here. -/
def atEntryEnd (cs : List Char) : Bool := cs.head?.all fun c => c == '}' || c == '"'

/-- Fields with commas between them, up to the mark that closes the entry. -/
def takeFields (cs : List Char) : Except Fault (List RawField × List Char) := do
  let cs' := skipGap cs
  if atEntryEnd cs' then return ([], cs')
  let (field, after) ← takeField cs'
  match after with
  | ',' :: more =>
    if more.length < cs.length then do
      let (fields, behind) ← takeFields more
      return (field :: fields, behind)
    else return ([field], after)
  | other =>
    if !other.isEmpty && atEntryEnd other then return ([field], other)
    else faultHere (.expected .comma) other
termination_by cs.length

/-- The key and the fields of an entry that begins with `start` bytes left. -/
def takeBody (kind : String) (start : Nat) (cs : List Char) :
    Except Fault (RawEntry × List Char) := do
  let cs := skipBlanks cs
  let after ← takeMark ',' .comma (skipBlanks (cs.dropWhile isKeyChar))
  let (fields, behind) ← takeFields after
  return (⟨kind, String.ofList (cs.takeWhile isKeyChar), fields, start, size behind⟩, behind)

/-- An entry behind the sign that begins it. -/
def takeEntry (raw : Raw) (start : Nat) (cs : List Char) : Except Fault (Raw × List Char) := do
  let (kind, after) ← takeName cs
  let after ← takeEntryBrace '{' .openingBrace after
  let kind := lowerName kind
  let (raw, after) ←
    if kind = "string" then do
      let (fields, after) ← takeFields after
      pure ({ raw with strings := raw.strings ++ fields }, after)
    else if kind = "preamble" then do
      let (_, after) ← takeQuotedPart (skipBlanks after)
      pure (raw, after)
    else if kind = "comment" then pure (raw, after.dropWhile (· != '}'))
    else do
      let (entry, after) ← takeBody kind start after
      pure ({ raw with entries := raw.entries ++ [entry] }, after)
  return (raw, ← takeEntryBrace '}' .closingBrace after)

/-- All entries of a database; `raw` holds those before. -/
def takeEntries (raw : Raw) (cs : List Char) : Except Fault Raw :=
  match cs with
  | [] => .ok raw
  | '@' :: rest => do
    let (next, after) ← takeEntry raw (size ('@' :: rest)) rest
    if after.length < ('@' :: rest).length then takeEntries next after else return next
  | '%' :: rest => takeEntries raw (rest.dropWhile (· != '\n'))
  | _ :: rest => takeEntries raw rest
termination_by cs.length
decreasing_by
  · assumption
  · exact Nat.lt_succ_of_le (List.dropWhile_sublist _).length_le
  · exact Nat.lt_succ_self _

end Galley.Bibliography
