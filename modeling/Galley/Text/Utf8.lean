import Galley.Number.Binary64
/-!
# Bytes as text

Bytes are read as UTF-8. Where they are no such text, each longest run of bytes that begins a
character without completing it is shown by one replacement character, and so is every other byte.
-/
namespace Galley.Text

/-- Stands for bytes that are no text. -/
def replacement : Char := Char.ofNat 0xFFFD

private def isContinuation (b : UInt8) : Bool := b.toNat / 0x40 = 2

/-- Whether a byte may follow the first byte of a character of three or four bytes. -/
private def mayFollow (first second : UInt8) : Bool :=
  let (a, b) := (first.toNat, second.toNat)
  isContinuation second &&
    (if a = 0xE0 then 0xA0 ≤ b
    else if a = 0xED then b ≤ 0x9F
    else if a = 0xF0 then 0x90 ≤ b
    else if a = 0xF4 then b ≤ 0x8F
    else true)

/-- The number of bytes of the character that a byte begins; zero if it begins none. -/
private def width (b : UInt8) : Nat :=
  let n := b.toNat
  if n < 0x80 then 1
  else if 0xC2 ≤ n ∧ n ≤ 0xDF then 2
  else if 0xE0 ≤ n ∧ n ≤ 0xEF then 3
  else if 0xF0 ≤ n ∧ n ≤ 0xF4 then 4
  else 0

/-- The bytes, after the first, that go on with the character it begins; at most `wanted`. -/
private def continued (first : UInt8) (wanted : Nat) (rest : List UInt8) : List UInt8 :=
  match rest with
  | second :: more =>
    if wanted ≠ 0 ∧ (if wanted = 1 then isContinuation second else mayFollow first second) then
      second :: (more.take (wanted - 1)).takeWhile isContinuation
    else []
  | [] => []

/-- The character of a first byte and the bytes that go on with it. -/
private def assemble (first : UInt8) (rest : List UInt8) : Char :=
  let payload := if rest.isEmpty then first.toNat else first.toNat % Number.twoTo (6 - rest.length)
  Char.ofNat (rest.foldl (fun n b => n * 0x40 + b.toNat % 0x40) payload)

/-- Bytes as characters; the bytes of what is no text are replaced. -/
def decodeBytes (bytes : List UInt8) : List Char :=
  match bytes with
  | [] => []
  | first :: rest =>
    let wanted := width first - 1
    let taken := continued first wanted rest
    let c := if width first ≠ 0 ∧ taken.length = wanted then assemble first taken else replacement
    c :: decodeBytes (rest.drop taken.length)
termination_by bytes.length
decreasing_by simp only [List.length_cons, List.length_drop]; omega

/-- Bytes as a text to be shown. -/
def shownText (bytes : ByteArray) : String :=
  match String.fromUTF8? bytes with
  | some text => text
  | none => String.ofList (decodeBytes bytes.toList)

end Galley.Text
