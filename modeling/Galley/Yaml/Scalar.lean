import Galley.Number.Binary64
import Galley.Number.Shortest
import Galley.Yaml.Node
/-!
# What scalars mean

A plain scalar means nothing, a truth value or a number if it is spelled like one, and any other
scalar means its text. A tag of the core set decides on the meaning, and the scalar must then be
spelled accordingly; a tag of one's own leaves it as it is.
-/
namespace Galley.Yaml

open Galley.Number (Binary64)

/-- A number with a fraction. -/
inductive Real where
  | finite (x : Binary64)
  | infinite (negative : Bool)
  | undefined
deriving DecidableEq, Repr

namespace Real

/-- Zeros are equal whatever their sign. -/
def same (x y : Real) : Bool :=
  match x, y with
  | .finite a, .finite b => a == b || a.isZero && b.isZero
  | _, _ => x == y

def text : Real → String
  | .finite x => x.plainText
  | .infinite negative => if negative then "-inf" else "inf"
  | .undefined => "NaN"

end Real

inductive Meaning where
  | null
  | bool (b : Bool)
  /-- An integer of 64 bits, with or without a sign. -/
  | integer (n : Int)
  /-- An integer of up to 128 bits, with or without a sign. -/
  | wide (n : Int)
  | real (x : Real)
  | text
deriving DecidableEq, Repr

namespace Meaning

/-! ### Spellings -/

def isNull (text : String) : Bool := ["null", "Null", "NULL", "~"].contains text

def bool? (text : String) : Option Bool :=
  if ["true", "True", "TRUE"].contains text then some true
  else if ["false", "False", "FALSE"].contains text then some false
  else none

/-- The number that digits of a base spell. -/
def digits? (base : Nat) (cs : List Char) : Option Nat :=
  if cs.isEmpty then none
  else
    cs.foldlM
      (fun n c => do
        let digit ← hexDigit? c
        if digit < base then some (n * base + digit) else none)
      0

/-- The digits of a number in base 16, 8 or 2, which their mark tells. -/
def based? : List Char → Option Nat
  | '0' :: 'x' :: digits => digits? 16 digits
  | '0' :: 'o' :: digits => digits? 8 digits
  | '0' :: 'b' :: digits => digits? 2 digits
  | _ => none

private def withoutSign : List Char → List Char
  | '-' :: rest => rest
  | '+' :: rest => rest
  | cs => cs

/-- Digits behind a leading zero are no number. -/
def isPadded (cs : List Char) : Bool :=
  match withoutSign cs with
  | '0' :: digit :: rest => (digit :: rest).all Char.isDigit
  | _ => false

/-- A number that is not negative, possibly with a plus sign. -/
def unsigned? (cs : List Char) : Option Nat :=
  let magnitude :=
    match cs with
    | '+' :: rest => rest
    | _ => cs
  match based? magnitude with
  | some n => some n
  | none => if isPadded cs then none else digits? 10 magnitude

/-- The magnitude of a number with a minus sign. -/
def negated? (cs : List Char) : Option Nat :=
  match cs with
  | '-' :: rest =>
    match based? rest with
    | some n => some n
    | none => if isPadded cs then none else digits? 10 rest
  | _ => none

/-- The integer that a text spells, if it fits 128 bits. -/
def integer? (cs : List Char) : Option Meaning :=
  match unsigned? cs, negated? cs with
  | some n, _ =>
    if n < Number.twoTo 64 then some (.integer n)
    else if n < Number.twoTo 128 then some (.wide n)
    else none
  | none, some n =>
    if n ≤ Number.twoTo 63 then some (.integer (-n))
    else if n ≤ Number.twoTo 127 then some (.wide (-n))
    else none
  | none, none => none

/-- The digits of a decimal fraction, and its exponent. -/
def fraction? (cs : List Char) : Option (Nat × Int) := do
  let whole := cs.takeWhile Char.isDigit
  let rest := cs.drop whole.length
  let (places, rest) :=
    match rest with
    | '.' :: more => (more.takeWhile Char.isDigit, more.dropWhile Char.isDigit)
    | _ => ([], rest)
  let n ← digits? 10 (whole ++ places)
  let exponent : Int ←
    match rest with
    | [] => some 0
    | c :: more =>
      if c = 'e' ∨ c = 'E' then
        let magnitude ← digits? 10 (withoutSign more)
        some (if more.head? = some '-' then -(magnitude : Int) else magnitude)
      else none
  return (n, exponent - places.length)

/-- The number nearest to a decimal, unless it is beyond the largest. -/
def finite? (negative : Bool) (n : Nat) (exponent : Int) : Option Binary64 :=
  let size : Int := (Nat.toDigits 10 n).length + exponent
  if n = 0 ∨ size < -400 then some (.zero negative)
  else if 400 < size then none
  else Binary64.ofDecimal negative n exponent

private def isInfinity (cs : List Char) : Bool :=
  [".inf", ".Inf", ".INF"].contains (String.ofList cs)

def real? (cs : List Char) : Option Real :=
  let unsigned :=
    match cs with
    | '+' :: rest => rest
    | _ => cs
  let negative := unsigned.head? == some '-'
  let magnitude := withoutSign unsigned
  if cs.head? == some '+' && magnitude != unsigned then none
  else if isInfinity magnitude then some (.infinite negative)
  else if [".nan", ".NaN", ".NAN"].contains (String.ofList cs) then some .undefined
  else do
    let (n, exponent) ← fraction? magnitude
    return .finite (← finite? negative n exponent)

/-! ### Meaning -/

/-- What a plain scalar without a tag of the core set means. -/
def ofPlain (text : String) : Meaning :=
  if text.isEmpty || isNull text then .null
  else
    match bool? text with
    | some b => .bool b
    | none =>
      match integer? text.toList with
      | some meaning => meaning
      | none =>
        if isPadded text.toList then .text
        else
          match real? text.toList with
          | some x => .real x
          | none => .text

/-- A tag of the core set. -/
def coreTag (name : String) : String := "tag:yaml.org,2002:" ++ name

/-- What a scalar means; `none` if its tag does not admit its text. -/
def ofScalar? (tag : Option String) (style : Style) (text : String) : Option Meaning :=
  let untagged := if style = .plain then ofPlain text else Meaning.text
  match tag with
  | none => some untagged
  | some tag =>
    if tag = coreTag "bool" then (bool? text).map .bool
    else if tag = coreTag "int" then integer? text.toList
    else if tag = coreTag "float" then (real? text.toList).map .real
    else if tag = coreTag "null" then if isNull text then some .null else none
    else if tag.toList.head? = some '!' then some untagged
    else some .text

end Meaning
end Galley.Yaml
