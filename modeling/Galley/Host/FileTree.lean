import Galley.Host.Failure
import Galley.Path
/-!
# File trees

A file tree is what a disk holds: files with their bytes, and directories with named entries. A
location is the list of names that leads to an entry from the root.
-/
namespace Galley.Host

inductive FileTree where
  | file (bytes : ByteArray)
  | directory (entries : List (String × FileTree))

/-- The names that lead to an entry from the root. -/
abbrev Location := List String

namespace FileTree

instance : Inhabited FileTree := ⟨.directory []⟩

def isDirectory : FileTree → Bool
  | .directory _ => true
  | .file _ => false

def isFile : FileTree → Bool
  | .file _ => true
  | .directory _ => false

/-- The entries of a directory; a file has none. -/
def entries : FileTree → List (String × FileTree)
  | .directory entries => entries
  | .file _ => []

/-! ### Entries -/

def lookup (name : String) : List (String × FileTree) → Option FileTree
  | [] => none
  | (key, entry) :: rest => if key = name then some entry else lookup name rest

/-- Puts an entry in the place of the one with its name, or at the end; `none` drops that one. -/
def putEntry (name : String) (entry : Option FileTree) :
    List (String × FileTree) → List (String × FileTree)
  | [] => (entry.map fun entry => (name, entry)).toList
  | (key, old) :: rest =>
    if key = name then
      match entry with
      | some entry => (key, entry) :: rest
      | none => rest
    else (key, old) :: putEntry name entry rest

/-! ### Locations -/

/-- The entry at a location. -/
def get? : FileTree → Location → Option FileTree
  | tree, [] => some tree
  | tree, name :: rest =>
    match lookup name tree.entries with
    | some entry => entry.get? rest
    | none => none

/-- Puts an entry at a location, or drops the one that is there. Nothing changes where no directory
holds the location. -/
def set (tree : FileTree) (location : Location) (entry : Option FileTree) : FileTree :=
  match tree, location with
  | tree, [] => entry.getD tree
  | .file bytes, _ :: _ => .file bytes
  | .directory entries, [name] => .directory (putEntry name entry entries)
  | .directory entries, name :: next :: rest =>
    match lookup name entries with
    | some child => .directory (putEntry name (some (child.set (next :: rest) entry)) entries)
    | none => .directory entries

/-- Follows the pieces of a path from a location. All but the last must lead to directories; the
last one may lead nowhere. -/
def follow (tree : FileTree) (location : Location) : List String → Except Failure Location
  | [] => .ok location
  | piece :: rest =>
    match tree.get? location with
    | some (.directory _) =>
      if Path.isIdle piece then follow tree location rest
      else if piece = ".." then follow tree location.dropLast rest
      else if 255 < piece.utf8ByteSize then .error .nameTooLong
      else if rest.isEmpty then .ok (location ++ [piece])
      else follow tree (location ++ [piece]) rest
    | some (.file _) => .error .notDirectory
    | none => .error .notFound

/-- The location that a path leads to from a current one. -/
def locate (tree : FileTree) (current : Location) (path : String) : Except Failure Location :=
  if path.isEmpty then .error .notFound
  else if path.toList.contains (Char.ofNat 0) then .error .zeroInPath
  else
    tree.follow (if Path.isAbsolute path then [] else current) (Text.splitOnChar '/' path)

/-- The entry that a path leads to. -/
def find (tree : FileTree) (current : Location) (path : String) :
    Except Failure (Location × FileTree) := do
  let location ← tree.locate current path
  match tree.get? location with
  | some entry => return (location, entry)
  | none => throw .notFound

/-! ### Operations -/

def read (tree : FileTree) (current : Location) (path : String) : Except Failure ByteArray := do
  match (← tree.find current path).2 with
  | .file bytes => return bytes
  | .directory _ => throw .isDirectory

/-- The location that something new is put at; slashes at the end of a path do not matter, unless
they are all there is. -/
def locateNew (tree : FileTree) (current : Location) (path : String) : Except Failure Location :=
  let kept := Path.withoutSlash path
  tree.locate current (if kept.isEmpty then path else kept)

/-- Writes a file, in place of any there is. A slash at the end of a path asks for a directory. -/
def write (tree : FileTree) (current : Location) (path : String) (bytes : ByteArray) :
    Except Failure FileTree := do
  let location ← tree.locateNew current path
  if Path.endsWithSlash path then throw .isDirectory
  match tree.get? location with
  | some (.directory _) => throw .isDirectory
  | _ => return tree.set location (some (.file bytes))

/-- Makes one directory. -/
def makeDirectory (tree : FileTree) (current : Location) (path : String) :
    Except Failure FileTree := do
  let location ← tree.locateNew current path
  match tree.get? location with
  | some _ => throw .alreadyExists
  | none => return tree.set location (some (.directory []))

/-- Makes the directories that the pieces of a path lead through, each in the one before. -/
def makeAlong (tree : FileTree) (location : Location) : List String → Except Failure FileTree
  | [] => .ok tree
  | piece :: rest =>
    if Path.isIdle piece then makeAlong tree location rest
    else if piece = ".." then makeAlong tree location.dropLast rest
    else if 255 < piece.utf8ByteSize then .error .nameTooLong
    else
      let next := location ++ [piece]
      match tree.get? next with
      | some (.directory _) => makeAlong tree next rest
      | some (.file _) => .error (if rest.all Path.isIdle then .alreadyExists else .notDirectory)
      | none =>
        match tree.get? location with
        | some (.directory _) => makeAlong (tree.set next (some (.directory []))) next rest
        | _ => .error .notFound

/-- Makes a directory and those around it; an empty path asks for none. -/
def makeDirectories (tree : FileTree) (current : Location) (path : String) :
    Except Failure FileTree :=
  if path.toList.contains (Char.ofNat 0) then .error .zeroInPath
  else
    tree.makeAlong (if Path.isAbsolute path then [] else current) (Text.splitOnChar '/' path)

/-- Removes what a path leads to, with all that is in it. -/
def removeAll (tree : FileTree) (current : Location) (path : String) : Except Failure FileTree := do
  let (location, _) ← tree.find current path
  return tree.set location none

mutual

/-- The locations of all entries of a directory, with the entries. -/
def walk (location : Location) : FileTree → List (Location × FileTree)
  | .file _ => []
  | .directory entries => walkEntries location entries

def walkEntries (location : Location) :
    List (String × FileTree) → List (Location × FileTree)
  | [] => []
  | (name, entry) :: rest =>
    (location ++ [name], entry) :: walk (location ++ [name]) entry ++ walkEntries location rest

end

end FileTree
end Galley.Host
