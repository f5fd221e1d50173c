/-!
# Patterns

A pattern is matched against a whole text: `*` stands for any text, `?` for any character, and a
set in brackets for one of its members. Characters in quotes stand for themselves.

This is a part of the stand-in for the system's shell, see `Galley.Shell.Programs`.
-/
namespace Galley.Shell

/-- A character with whether it was quoted. -/
abbrev Mark := Char × Bool

/-- One place of a pattern. -/
inductive Slot where
  | only (c : Char)
  | any
  /-- Any text. -/
  | many
  | among (negated : Bool) (ranges : List (Char × Char))
deriving DecidableEq, Repr

abbrev Pattern := List Slot

namespace Pattern

/-- The characters of a set up to its closing bracket. A bracket that stands first is a member. -/
def takeMembers (first : Bool) : List Mark → Option (List Mark × List Mark)
  | [] => none
  | (c, quoted) :: rest =>
    if c = ']' ∧ !quoted ∧ !first then some ([], rest)
    else (takeMembers false rest).map fun found => ((c, quoted) :: found.1, found.2)

/-- The ranges of a set; most hold one character. -/
def ranges : List Mark → List (Char × Char)
  | [] => []
  | (c, _) :: ('-', false) :: (last, _) :: rest => (c, last) :: ranges rest
  | (c, _) :: rest => (c, c) :: ranges rest

/-- A set and what follows it. -/
def takeSet (marks : List Mark) : Option (Slot × List Mark) :=
  let negated :=
    match marks with
    | (c, false) :: _ => c == '!' || c == '^'
    | _ => false
  (takeMembers true (if negated then marks.drop 1 else marks)).map fun found =>
    (.among negated (ranges found.1), found.2)

/-- Reads a pattern; `fuel` is at least the number of characters. -/
def read (fuel : Nat) (marks : List Mark) : Pattern :=
  match fuel, marks with
  | 0, _ => []
  | _, [] => []
  | fuel + 1, (c, quoted) :: rest =>
    if quoted then .only c :: read fuel rest
    else if c = '*' then .many :: read fuel rest
    else if c = '?' then .any :: read fuel rest
    else if c = '[' then
      match takeSet rest with
      | some (set, after) => set :: read fuel after
      | none => .only c :: read fuel rest
    else if c = '\\' then
      match rest with
      | (next, _) :: after => .only next :: read fuel after
      | [] => [.only c]
    else .only c :: read fuel rest

def ofMarks (marks : List Mark) : Pattern := read marks.length marks

/-- Whether a character can stand in a place that stands for one. -/
def admits : Slot → Char → Bool
  | .only c, d => c == d
  | .any, _ => true
  | .many, _ => false
  | .among negated ranges, d => (ranges.any fun range => range.1 ≤ d && d ≤ range.2) != negated

/-- Whether a pattern matches a whole text. -/
def fits : Pattern → List Char → Bool
  | [], [] => true
  | [], _ :: _ => false
  | .many :: rest, [] => fits rest []
  | .many :: rest, c :: cs => fits rest (c :: cs) || fits (.many :: rest) cs
  | _ :: _, [] => false
  | slot :: rest, c :: cs => admits slot c && fits rest cs
termination_by slots cs => slots.length + cs.length

/-- Whether unquoted characters make a text a pattern. -/
def isWanted (marks : List Mark) : Bool :=
  marks.any fun mark => !mark.2 && (mark.1 == '*' || mark.1 == '?' || mark.1 == '[')

/-- A text without a beginning that fits, the shortest or the longest one. -/
def cutStart (pattern : Pattern) (longest : Bool) (cs : List Char) : List Char :=
  let sizes := List.range (cs.length + 1)
  match (if longest then sizes.reverse else sizes).find? fun n => pattern.fits (cs.take n) with
  | some n => cs.drop n
  | none => cs

/-- A text without an end that fits, the shortest or the longest one. -/
def cutEnd (pattern : Pattern) (longest : Bool) (cs : List Char) : List Char :=
  let sizes := List.range (cs.length + 1)
  match (if longest then sizes else sizes.reverse).find? fun n => pattern.fits (cs.drop n) with
  | some n => cs.take n
  | none => cs

end Pattern
end Galley.Shell
