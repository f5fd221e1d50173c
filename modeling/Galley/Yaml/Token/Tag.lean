import Galley.Number.Binary64
import Galley.Yaml.Token
/-!
# Anchors, tags and directives
-/
namespace Galley.Yaml

/-! ### Names -/

/-- A name that is not empty. -/
def takeName? (cursor : Cursor) : Option (String × Cursor) :=
  let (name, after) := cursor.takeWhile isNameChar
  if name.isEmpty then none else some (String.ofList name, after)

/-- The characters that may follow the name of an anchor at once. -/
def isNameEnd (c : Char) : Bool :=
  isGap c || c == '?' || c == ':' || c == ',' || c == ']' || c == '}' || c == '%' || c == '@' ||
    c.toNat == 0x60

/-- The name of an anchor or of an alias, behind its mark. -/
def takeAnchor? (cursor : Cursor) : Option (String × Cursor) := do
  let (name, after) ← takeName? (cursor.skip 1)
  if after.rest.head?.all isNameEnd then some (name, after) else none

/-! ### Tags -/

/-- The characters of a tag; between angle brackets there are a few more. -/
def isTagChar (verbatim : Bool) (c : Char) : Bool :=
  isNameChar c || ";/?:@&=+$.!~*'()".toList.contains c ||
    verbatim && (c == ',' || c == '[' || c == ']')

/-- The number of bytes of a character whose first byte is given. -/
def byteCount? (first : Nat) : Option Nat :=
  if first < 0x80 then some 1
  else if first / 0x20 = 6 then some 2
  else if first / 0x10 = 14 then some 3
  else if first / 0x08 = 30 then some 4
  else none

/-- The value of a byte spelled by a percent sign and two digits. -/
def takeOctet? : List Char → Option Nat
  | '%' :: high :: low :: _ => do return (← hexDigit? high) * 16 + (← hexDigit? low)
  | _ => none

/-- A character spelled byte by byte, and the number of bytes. -/
def takeOctets? (cs : List Char) : Option (Char × Nat) := do
  let first ← takeOctet? cs
  let count ← byteCount? first
  let payload := if count = 1 then first else first % Number.twoTo (7 - count)
  let later ← (List.range (count - 1)).mapM fun i => takeOctet? (cs.drop (3 * (i + 1)))
  if later.all fun byte => byte / 0x40 = 2 then
    return (Char.ofNat (later.foldl (fun n byte => n * 0x40 + byte % 0x40) payload), count)
  else none

/-- The longest run of characters of a tag. -/
def takeTagText? (verbatim : Bool) (text : List Char) (cursor : Cursor) :
    Option (List Char × Cursor) :=
  match cursor.rest with
  | [] => some (text.reverse, cursor)
  | c :: _ => do
    let (spelled, width) ←
      if c = '%' then (takeOctets? cursor.rest).map fun found => (found.1, 3 * found.2)
      else some (c, 1)
    if ¬ isTagChar verbatim c ∧ c ≠ '%' then return (text.reverse, cursor)
    let after := cursor.skip width
    if after.rest.length < cursor.rest.length then takeTagText? verbatim (spelled :: text) after
    else none
termination_by cursor.rest.length

/-- A tag's text that is not empty. -/
def takeTagName? (verbatim : Bool) (cursor : Cursor) : Option (String × Cursor) := do
  let (text, after) ← takeTagText? verbatim [] cursor
  if text.isEmpty then none else some (String.ofList text, after)

/-- A handle: an exclamation mark, and possibly a name with another one behind it. Without that
the name is not part of a handle, and the flag is false. -/
def takeHandle? (cursor : Cursor) : Option (String × Bool × Cursor) :=
  if cursor.sees '!' then
    let (name, after) := (cursor.skip 1).takeWhile isNameChar
    if after.sees '!' then some (String.ofList ('!' :: name ++ ['!']), true, after.skip 1)
    else some (String.ofList ('!' :: name), false, after)
  else none

/-- A tag between angle brackets. -/
def takeVerbatimTag? (cursor : Cursor) : Option (Symbol × Cursor) := do
  let (name, after) ← takeTagName? true (cursor.skip 2)
  if after.sees '>' then some (.tag "" name, after.skip 1) else none

/-- A tag with a handle, or with the mark alone in its place. -/
def takeShortTag? (cursor : Cursor) : Option (Symbol × Cursor) := do
  let (handle, isHandle, after) ← takeHandle? cursor
  if isHandle then
    let (name, after) ← takeTagName? false after
    return (.tag handle name, after)
  else
    let (more, after) ← takeTagText? false [] after
    let name := handle.toList.drop 1 ++ more
    if name.isEmpty then return (.tag "" "!", after)
    else return (.tag "!" (String.ofList name), after)

/-- A tag, its mark included. In brackets a comma may follow it at once. -/
def takeTag? (inFlow : Bool) (cursor : Cursor) : Option (Symbol × Cursor) := do
  let (symbol, after) ←
    if (cursor.skip 1).sees '<' then takeVerbatimTag? cursor else takeShortTag? cursor
  if atWordEnd after.rest ∨ inFlow ∧ after.sees ',' then some (symbol, after) else none

/-! ### Directives -/

/-- A number of at most nine digits. -/
def takeVersionNumber? (cursor : Cursor) : Option (Nat × Cursor) :=
  let (digits, after) := cursor.takeWhile Char.isDigit
  if digits.isEmpty ∨ 9 < digits.length then none
  else some (digits.foldl (fun n c => n * 10 + (c.toNat - 48)) 0, after)

def takeVersion? (cursor : Cursor) : Option (Symbol × Cursor) := do
  let (major, after) ← takeVersionNumber? (cursor.skipWhile isBlank)
  if after.sees '.' then
    let (minor, after) ← takeVersionNumber? (after.skip 1)
    return (.version major minor, after)
  else none

def takeHandleDirective? (cursor : Cursor) : Option (Symbol × Cursor) := do
  let (handle, isHandle, after) ← takeHandle? (cursor.skipWhile isBlank)
  if (isHandle ∨ handle = "!") ∧ after.rest.head?.any isBlank then
    let (stem, after) ← takeTagName? true (after.skipWhile isBlank)
    if atWordEnd after.rest then some (.handle handle stem, after) else none
  else none

/-- A directive, its mark and the rest of its line included, and the place where it ends. -/
def takeDirective? (cursor : Cursor) : Option (Symbol × Place × Cursor) := do
  let (name, after) ← takeName? (cursor.skip 1)
  if ¬ atWordEnd after.rest then none
  let (symbol, after) ←
    if name = "YAML" then takeVersion? after
    else if name = "TAG" then takeHandleDirective? after
    else none
  return (symbol, after.place, ← after.skipLineEnd?)

end Galley.Yaml
