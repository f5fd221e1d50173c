import Galley.Text.Blank
import Galley.Text.Lines
/-!
# Paths

Paths are texts with slashes between their components. Joining and cutting work on the text alone;
nothing is looked up.
-/
namespace Galley.Path

def isAbsolute (path : String) : Bool := path.toList.head? == some '/'

def endsWithSlash (path : String) : Bool := path.toList.getLast? == some '/'

/-- A path without the slashes at its end. -/
def withoutSlash (path : String) : String :=
  String.ofList (Text.dropEndWhile (· == '/') path.toList)

/-- A path as it is seen from a directory. -/
def join (directory path : String) : String :=
  if isAbsolute path ∨ directory.isEmpty then path
  else if endsWithSlash directory then directory ++ path
  else directory ++ "/" ++ path

/-- Pieces between slashes that lead nowhere. -/
def isIdle (piece : String) : Bool := piece.isEmpty || piece == "."

/-- The directory of a file's path. -/
def parent (path : String) : String :=
  match (Text.splitOnChar '/' path).dropLast with
  | [] => ""
  | first :: rest =>
    let kept := first :: Text.dropEndWhile isIdle rest
    if kept = [""] then "/" else Text.joinWith "/" kept

/-- The pieces of a path that lead somewhere. -/
def components (path : String) : List String :=
  (Text.splitOnChar '/' path).filter (!isIdle ·)

/-- A path as it is seen from the root, without idle pieces; a slash at its end is kept. -/
def absolute (current path : String) : String :=
  let root :=
    if isAbsolute path then
      if path.toList.take 2 = ['/', '/'] ∧ (path.toList.drop 2).head? ≠ some '/' then "//" else "/"
    else current
  let joined := (components path).foldl join root
  if endsWithSlash path then join joined "" else joined

end Galley.Path
