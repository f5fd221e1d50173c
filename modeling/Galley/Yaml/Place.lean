import Galley.Text.Size
import Galley.Yaml.Character
/-!
# Places in a text

A cursor is the rest of a text together with the place where it begins. Columns count characters,
and every kind of break starts a line.
-/
namespace Galley.Yaml

/-- A place in a text, all counted from zero. -/
structure Place where
  /-- The number of bytes before it. -/
  index : Nat
  line : Nat
  column : Nat
deriving DecidableEq, Repr

namespace Place

def start : Place := ⟨0, 0, 0⟩

/-- The place behind characters of the same line. -/
def along (place : Place) (cs : List Char) : Place :=
  ⟨place.index + Text.size cs, place.line, place.column + cs.length⟩

/-- The start of the next line behind a break. -/
def below (place : Place) (cs : List Char) : Place :=
  ⟨place.index + Text.size cs, place.line + 1, 0⟩

end Place

structure Cursor where
  place : Place
  rest : List Char
deriving DecidableEq, Repr

namespace Cursor

/-- Passes over characters of one line. -/
def skip (cursor : Cursor) (count : Nat) : Cursor :=
  ⟨cursor.place.along (cursor.rest.take count), cursor.rest.drop count⟩

/-- The longest run of characters of one line that satisfy `p`, and what follows it. -/
def takeWhile (p : Char → Bool) (cursor : Cursor) : List Char × Cursor :=
  let run := cursor.rest.takeWhile p
  (run, cursor.skip run.length)

def skipWhile (p : Char → Bool) (cursor : Cursor) : Cursor := (cursor.takeWhile p).2

/-- Whether the rest begins with a character. -/
def sees (cursor : Cursor) (c : Char) : Bool := cursor.rest.head? == some c

/-- A break as it counts in a text: most are a line feed. -/
def breakText (c : Char) : Char :=
  if c.toNat = 0x2028 ∨ c.toNat = 0x2029 then c else '\n'

/-- A break, and what follows it. -/
def takeBreak? (cursor : Cursor) : Option (Char × Cursor) :=
  match cursor.rest with
  | '\r' :: '\n' :: rest => some ('\n', ⟨cursor.place.below ['\r', '\n'], rest⟩)
  | c :: rest => if isBreak c then some (breakText c, ⟨cursor.place.below [c], rest⟩) else none
  | [] => none

/-- Passes over a break, if there is one. -/
def skipBreak (cursor : Cursor) : Cursor :=
  match cursor.takeBreak? with
  | some (_, after) => after
  | none => cursor

/-- Passes over the rest of a line before its break if that is blank but for a comment. -/
def skipLineEnd? (cursor : Cursor) : Option Cursor :=
  let cursor := cursor.skipWhile isBlank
  let cursor := if cursor.sees '#' then cursor.skipWhile (!isBreak ·) else cursor
  if atLineEnd cursor.rest then some cursor.skipBreak else none

/-- Whether a mark of three equal characters stands here as a word of its own at the start of a
line. -/
def atMark (cursor : Cursor) (c : Char) : Bool :=
  cursor.place.column == 0 && cursor.rest.take 3 == [c, c, c] && atWordEnd (cursor.rest.drop 3)

/-- Whether the mark of a document's start or end stands here. -/
def atDocumentMark (cursor : Cursor) : Bool := cursor.atMark '-' || cursor.atMark '.'

end Cursor
end Galley.Yaml
