/-!
# Marks on text

A text run carries marks in any order and number. Renderers only see the marks in nesting order,
each at most once.
-/
namespace Galley.Document

/-- A mark on a text run. -/
inductive Mark where
  | bold
  | italic
  | code
deriving DecidableEq, Repr

namespace Mark

/-- The mark that a name stands for. -/
def ofName? (name : String) : Option Mark :=
  if name = "bold" ∨ name = "strong" then some .bold
  else if name = "italic" ∨ name = "em" then some .italic
  else if name = "code" then some .code
  else none

/-- The name that is written. -/
def name : Mark → String
  | .bold => "bold"
  | .italic => "italic"
  | .code => "code"

/-- How far inside a mark is nested. -/
def depth : Mark → Nat
  | .bold => 0
  | .italic => 1
  | .code => 2

/-- Puts a mark in front of the first one that is not outside it. -/
def place (mark : Mark) : List Mark → List Mark
  | [] => [mark]
  | other :: rest =>
    if mark.depth ≤ other.depth then mark :: other :: rest else other :: place mark rest

/-- The marks of a list, the outermost first. -/
def sort : List Mark → List Mark
  | [] => []
  | mark :: rest => place mark (sort rest)

/-- A list without the marks that repeat the one before them. -/
def dropRepeats : List Mark → List Mark
  | [] => []
  | [mark] => [mark]
  | mark :: next :: rest =>
    if mark = next then dropRepeats (next :: rest) else mark :: dropRepeats (next :: rest)

/-- The marks of a list in nesting order, each once. -/
def normalize (marks : List Mark) : List Mark := dropRepeats (sort marks)

end Mark
end Galley.Document
