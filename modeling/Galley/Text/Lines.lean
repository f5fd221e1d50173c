/-!
# Splitting text

Cutting at a character keeps empty pieces, so joining with it gives the text back. The lines of a
text end at a line feed, with a carriage return before it belonging to the break; the end of the
text ends a last line only if something stands after the last break.
-/
namespace Galley.Text

/-- Cuts a list at every `separator`; `n` separators give `n + 1` pieces. -/
def splitAt (separator : Char) : List Char → List (List Char)
  | [] => [[]]
  | c :: rest =>
    if c = separator then [] :: splitAt separator rest
    else
      match splitAt separator rest with
      | [] => [[c]]
      | piece :: pieces => (c :: piece) :: pieces

/-- Cuts a text at every `separator`. -/
def splitOnChar (separator : Char) (text : String) : List String :=
  (splitAt separator text.toList).map String.ofList

/-- Drops one carriage return at the end of a line that a line feed ended. -/
def dropReturn (line : List Char) : List Char :=
  match line.reverse with
  | '\r' :: rest => rest.reverse
  | _ => line

/-- The pieces between line feeds as lines: only the last one was not ended by a line feed. -/
def endLines : List (List Char) → List String
  | [] => []
  | [last] => if last.isEmpty then [] else [String.ofList last]
  | line :: rest => String.ofList (dropReturn line) :: endLines rest

/-- The lines of a text, without their breaks. -/
def lines (text : String) : List String :=
  endLines (splitAt '\n' text.toList)

/-- Texts joined with a separator between them. -/
def joinWith (separator : String) (texts : List String) : String :=
  String.intercalate separator texts

end Galley.Text
