/-!
# Blank characters and trimming

A character is blank when it has the Unicode property `White_Space`. Texts are trimmed, tested for
blankness and cut into words by this one class.
-/
namespace Galley.Text

/-- The characters with the Unicode property `White_Space`. -/
def isBlank (c : Char) : Bool :=
  let n := c.toNat
  (9 ≤ n && n ≤ 13) || n == 0x20 || n == 0x85 || n == 0xA0 || n == 0x1680 ||
    (0x2000 ≤ n && n ≤ 0x200A) || n == 0x2028 || n == 0x2029 || n == 0x202F || n == 0x205F ||
    n == 0x3000

/-- A list without its longest tail of members that satisfy `p`. -/
def dropEndWhile {α : Type} (p : α → Bool) (items : List α) : List α :=
  (items.reverse.dropWhile p).reverse

/-- A text without blanks at either end. -/
def trim (text : String) : String :=
  String.ofList (dropEndWhile isBlank (text.toList.dropWhile isBlank))

/-- A text is blank when all its characters are; the empty text is. -/
def isAllBlank (text : String) : Bool :=
  text.toList.all isBlank

/-- A value that is present only if it is not blank; it is not trimmed. -/
def nonBlank? (text : Option String) : Option String :=
  text.filter fun t => !isAllBlank t

/-- Cuts at every blank run; `word` holds the current word backwards. -/
private def wordsFrom (word : List Char) : List Char → List String
  | [] => if word.isEmpty then [] else [String.ofList word.reverse]
  | c :: rest =>
    if isBlank c then
      if word.isEmpty then wordsFrom [] rest
      else String.ofList word.reverse :: wordsFrom [] rest
    else wordsFrom (c :: word) rest

/-- The maximal runs of characters that are not blank, in order. -/
def words (text : String) : List String :=
  wordsFrom [] text.toList

end Galley.Text
