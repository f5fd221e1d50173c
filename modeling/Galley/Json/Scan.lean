import Galley.Json.Fault
import Galley.Json.Value
/-!
# Scanning blanks, strings and numbers of JSON

A scan takes the front off a text and returns it with the rest. The rest comes with a proof that it
is smaller, and for strings the bytes taken bound the bytes of the text they spell.
-/
namespace Galley.Json

open Galley.Text (size size_dropWhile_le)
open Galley.Number (Binary64)

/-- A result together with a rest that is smaller than the text it was taken from. -/
abbrev Taken (α : Type) (cs : List Char) := { r : α × List Char // size r.2 < size cs }

/-- A result together with a rest that is no larger than the text before it. -/
abbrev Kept (α : Type) (cs : List Char) := { r : α × List Char // size r.2 ≤ size cs }

/-- What is no larger than the rest of a text is no larger than the text. -/
theorem size_rest_le_cons {α : Type} (c : Char) {rest : List Char} (found : α × List Char)
    (h : size found.2 ≤ size rest) : size found.2 ≤ size (c :: rest) := Text.le_size_cons c h

/-! ### Blanks -/

/-- The characters that may stand between tokens. -/
def isSpace (c : Char) : Bool := c == ' ' || c == '\n' || c == '\t' || c == '\r'

def skipSpaces (cs : List Char) : List Char := cs.dropWhile isSpace

theorem size_skipSpaces_le (cs : List Char) : size (skipSpaces cs) ≤ size cs :=
  size_dropWhile_le isSpace cs

/-! ### Digits -/

def isDigit (c : Char) : Bool := '0' ≤ c && c ≤ '9'

def digitValue (c : Char) : Nat := c.toNat - 48

def hexValue? (c : Char) : Option Nat :=
  if '0' ≤ c ∧ c ≤ '9' then some (c.toNat - 48)
  else if 'a' ≤ c ∧ c ≤ 'f' then some (c.toNat - 87)
  else if 'A' ≤ c ∧ c ≤ 'F' then some (c.toNat - 55)
  else none

/-! ### Strings -/

/-- The characters that a backslash and a letter stand for. -/
def simpleEscape? (c : Char) : Option Char :=
  if c = '"' then some '"'
  else if c = '\\' then some '\\'
  else if c = '/' then some '/'
  else if c = 'b' then some (Char.ofNat 8)
  else if c = 'f' then some (Char.ofNat 12)
  else if c = 'n' then some '\n'
  else if c = 'r' then some '\r'
  else if c = 't' then some '\t'
  else none

/-- Four hexadecimal digits. -/
def takeHex4 (cs : List Char) : Except Fault { r : Nat × List Char // size r.2 + 4 ≤ size cs } :=
  match cs with
  | a :: b :: c :: d :: rest =>
    match hexValue? a, hexValue? b, hexValue? c, hexValue? d with
    | some w, some x, some y, some z =>
      .ok ⟨(((w * 16 + x) * 16 + y) * 16 + z, rest), by
        have := a.utf8Size_pos; have := b.utf8Size_pos
        have := c.utf8Size_pos; have := d.utf8Size_pos
        simp only [Text.size_cons]; omega⟩
    | _, _, _, _ => .error ⟨.badEscape, size cs - 4⟩
  | _ => if 4 ≤ size cs then .error ⟨.badEscape, size cs - 4⟩ else .error ⟨.endInString, 0⟩

private theorem utf8Size_simpleEscape {c d : Char} (h : simpleEscape? c = some d) :
    d.utf8Size = 1 := by
  unfold simpleEscape? at h
  repeat' split at h
  all_goals first
    | (cases h; decide)
    | cases h

/-- What follows a backslash in a string: one character, spelled by no fewer bytes than it has. -/
def takeEscape (cs : List Char) :
    Except Fault { r : Char × List Char // r.1.utf8Size + size r.2 ≤ size cs } :=
  match cs with
  | [] => .error ⟨.endInString, 0⟩
  | 'u' :: digits => do
    let ⟨(unit, rest), h⟩ ← takeHex4 digits
    if 0xDC00 ≤ unit ∧ unit ≤ 0xDFFF then faultAt .loneSurrogate rest
    else if 0xD800 ≤ unit ∧ unit ≤ 0xDBFF then
      match rest, h with
      | [], _ => .error ⟨.endInString, 0⟩
      | '\\' :: [], _ => .error ⟨.endInString, 0⟩
      | '\\' :: 'u' :: digits, h =>
        let ⟨(low, rest), h'⟩ ← takeHex4 digits
        if 0xDC00 ≤ low ∧ low ≤ 0xDFFF then
          .ok ⟨(Char.ofNat ((unit - 0xD800) * 0x400 + (low - 0xDC00) + 0x10000), rest), by
            have := Char.utf8Size_le_four
              (Char.ofNat ((unit - 0xD800) * 0x400 + (low - 0xDC00) + 0x10000))
            simp only [Text.size_cons] at *
            omega⟩
        else faultAt .loneSurrogate rest
      | '\\' :: other, _ => faultPast .unpairedSurrogate other
      | other, _ => faultPast .unpairedSurrogate other
    else
      .ok ⟨(Char.ofNat unit, rest), by
        have := Char.utf8Size_le_four (Char.ofNat unit)
        simp only [Text.size_cons] at *
        omega⟩
  | c :: rest =>
    match h : simpleEscape? c with
    | some spelled =>
      .ok ⟨(spelled, rest), by
        have := c.utf8Size_pos
        have := utf8Size_simpleEscape h
        simp only [Text.size_cons]
        omega⟩
    | none => faultPast .badEscape (c :: rest)

/-- The rest of a string after its opening quote. `spelled` holds the characters so far,
backwards; the bytes of what is spelled never pass the bytes that spell it. -/
def takeString (spelled : List Char) (cs : List Char) :
    Except Fault
      { r : List Char × List Char // size r.1 + size r.2 + 1 ≤ size spelled + size cs } :=
  match cs with
  | [] => .error ⟨.endInString, 0⟩
  | '"' :: rest =>
    .ok ⟨(spelled.reverse, rest), by
      have : ('"' : Char).utf8Size = 1 := by decide
      simp only [Text.size_cons, Text.size_reverse]
      omega⟩
  | '\\' :: rest => do
    let ⟨(c, after), _⟩ ← takeEscape rest
    let ⟨found, _⟩ ← takeString (c :: spelled) after
    .ok ⟨found, by simp only [Text.size_cons] at *; omega⟩
  | c :: rest =>
    if c.toNat < 0x20 then faultAt .controlCharacter rest
    else do
      let ⟨found, _⟩ ← takeString (c :: spelled) rest
      .ok ⟨found, by simp only [Text.size_cons] at *; omega⟩
termination_by size cs
decreasing_by
  · next bound =>
    have := c.utf8Size_pos
    have : ('\\' : Char).utf8Size = 1 := by decide
    simp only [Text.size_cons] at *
    omega
  · have := c.utf8Size_pos
    simp only [Text.size_cons]
    omega

/-- A string after its opening quote. -/
def takeText (cs : List Char) :
    Except Fault { r : String × List Char // size r.1.toList + size r.2 < size cs } := do
  let ⟨(spelled, rest), _⟩ ← takeString [] cs
  .ok
    ⟨(String.ofList spelled, rest), by simp only [String.toList_ofList, Text.size_nil] at *; omega⟩

/-! ### Fixed words -/

/-- The remaining letters of a fixed word. -/
def takeWord (word : List Char) (cs : List Char) : Except Fault (Kept Unit cs) :=
  match word, cs with
  | [], cs => .ok ⟨((), cs), Nat.le_refl _⟩
  | _ :: _, [] => .error ⟨.endInValue, 0⟩
  | w :: word, c :: rest =>
    if c = w then do
      let ⟨found, short⟩ ← takeWord word rest
      .ok ⟨found, size_rest_le_cons c found short⟩
    else .error ⟨.noIdent, size rest + (c.utf8Size - 1)⟩

end Galley.Json
