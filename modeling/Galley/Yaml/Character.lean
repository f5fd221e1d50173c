/-!
# The characters of YAML
-/
namespace Galley.Yaml

/-- The characters that end a line. -/
def isBreak (c : Char) : Bool :=
  c == '\n' || c == '\r' || c.toNat == 0x85 || c.toNat == 0x2028 || c.toNat == 0x2029

/-- The characters that separate words on a line. -/
def isBlank (c : Char) : Bool := c == ' ' || c == '\t'

def isGap (c : Char) : Bool := isBlank c || isBreak c

/-- The characters of the names of anchors, tag handles and directives. -/
def isNameChar (c : Char) : Bool := c.isAlphanum || c == '-' || c == '_'

/-- The characters that a text may hold. -/
def isAllowed (c : Char) : Bool :=
  let n := c.toNat
  n == 0x09 || n == 0x0A || n == 0x0D || (0x20 ≤ n && n ≤ 0x7E) || n == 0x85 ||
    (0xA0 ≤ n && n ≤ 0xD7FF) || (0xE000 ≤ n && n ≤ 0xFFFD) || 0x10000 ≤ n

/-- The mark of byte order, which may start a line. -/
def byteOrderMark : Char := Char.ofNat 0xFEFF

/-- A line ends at a break and at the end of the text. -/
def atLineEnd (cs : List Char) : Bool := cs.head?.all isBreak

/-- A word ends at a gap and at the end of the text. -/
def atWordEnd (cs : List Char) : Bool := cs.head?.all isGap

def hexDigit? (c : Char) : Option Nat :=
  if '0' ≤ c ∧ c ≤ '9' then some (c.toNat - 48)
  else if 'a' ≤ c ∧ c ≤ 'f' then some (c.toNat - 87)
  else if 'A' ≤ c ∧ c ≤ 'F' then some (c.toNat - 55)
  else none

/-- The number that exactly `count` hexadecimal digits spell, and what follows them. -/
def takeHex (count : Nat) (cs : List Char) : Option (Nat × List Char) :=
  if cs.length < count then none
  else do
    let digits ← (cs.take count).mapM hexDigit?
    return (digits.foldl (fun n digit => n * 16 + digit) 0, cs.drop count)

end Galley.Yaml
