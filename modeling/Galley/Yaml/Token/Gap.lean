import Galley.Yaml.Place
/-!
# Gaps inside scalars

Between two words of a scalar stand blanks and breaks. Blanks alone are kept. Of breaks the first
one is folded: it becomes a blank, or nothing if more breaks follow; blanks around breaks are
dropped.
-/
namespace Galley.Yaml

/-- A gap as read so far. -/
structure Gap where
  /-- Whether the line ended. -/
  broken : Bool := false
  /-- The blanks, as long as the line did not end. -/
  blanks : List Char := []
  /-- The first break, unless it was escaped. -/
  first : Option Char := none
  /-- The breaks behind the first. -/
  more : List Char := []
deriving DecidableEq, Repr

namespace Gap

def addBlank (gap : Gap) (c : Char) : Gap :=
  if gap.broken then gap else { gap with blanks := gap.blanks ++ [c] }

def addBreak (gap : Gap) (c : Char) : Gap :=
  if gap.broken then { gap with more := gap.more ++ [c] }
  else { broken := true, first := some c }

/-- What a first break and the breaks behind it stand for. -/
def fold (first : Option Char) (more : List Char) : List Char :=
  match first with
  | some '\n' => if more.isEmpty then [' '] else more
  | other => other.toList ++ more

/-- What the gap stands for. -/
def text (gap : Gap) : List Char :=
  if gap.broken then fold gap.first gap.more else gap.blanks

/-- Reads on to the end of a gap. Behind a break, a tab before the column `limit` is refused. -/
def take? (limit : Nat) (gap : Gap) (place : Place) : List Char → Option (Gap × Cursor)
  | [] => some (gap, ⟨place, []⟩)
  | '\r' :: '\n' :: rest => take? limit (gap.addBreak '\n') (place.below ['\r', '\n']) rest
  | c :: rest =>
    if isBlank c then
      if gap.broken ∧ place.column < limit ∧ c = '\t' then none
      else take? limit (gap.addBlank c) (place.along [c]) rest
    else if isBreak c then
      take? limit (gap.addBreak (Cursor.breakText c)) (place.below [c]) rest
    else some (gap, ⟨place, c :: rest⟩)

end Gap
end Galley.Yaml
