import Galley.Number.Binary64
/-!
# The shortest decimal that reads back

A number of the binary format stands for all reals that round to it. Of the decimals in that
interval the shortest is taken, and of several shortest ones the nearest to the number.
-/
namespace Galley.Number

/-- The decimal `digits · 10 ^ exponent`. -/
structure Decimal where
  digits : Nat
  exponent : Int
deriving DecidableEq, Repr

namespace Binary64

/-- The least `p` with `x < 10 ^ p`, for a number that is not zero. -/
private def decimalPlaces (x : Binary64) : Int :=
  let (a, b) := x.ratio
  if b ≤ a then ((Nat.toDigits 10 (a / b)).length : Int)
  else
    match (List.range 400).find? fun j => b ≤ a * tenTo (j + 1) with
    | some j => -(j : Int)
    | none => 0

/-- The decimal on the grid of `10 ^ exponent` that rounds to `x` and is nearest to it.

Lengths are counted in quarters of the last place of the significand, so that the ends of the
interval are whole numbers. The lower end is closer where the spacing of the format changes. -/
private def onGrid? (x : Binary64) (exponent : Int) : Option Nat :=
  let place := x.exponent - 2
  let a := tenTo exponent.toNat * twoTo (-place).toNat
  let b := tenTo (-exponent).toNat * twoTo place.toNat
  let middle := 4 * x.significand
  let low :=
    if x.significand = twoTo 52 ∧ leastExponent < x.exponent then middle - 1 else middle - 2
  let high := middle + 2
  let inside (d : Nat) : Bool :=
    if x.significand % 2 = 0 then low * b ≤ a * d && a * d ≤ high * b
    else low * b < a * d && a * d < high * b
  let below := middle * b / a
  let above := below + 1
  if inside below then
    if inside above then
      let down := middle * b - a * below
      let up := a * above - middle * b
      if down < up then some below
      else if up < down then some above
      else if below % 2 = 0 then some below else some above
    else some below
  else if inside above then some above
  else none

/-- Moves the trailing zeros of the digits into the exponent. -/
private def withoutZeros : Nat → Nat → Int → Decimal
  | 0, digits, exponent => ⟨digits, exponent⟩
  | fuel + 1, digits, exponent =>
    if digits % 10 = 0 ∧ digits ≠ 0 then withoutZeros fuel (digits / 10) (exponent + 1)
    else ⟨digits, exponent⟩

/-- The magnitude as the shortest decimal that reads back. -/
def shortest (x : Binary64) : Decimal :=
  if x.isZero then ⟨0, 0⟩
  else
    let places := x.decimalPlaces
    let found := (List.range 17).findSome? fun n =>
      let exponent := places - (n + 1 : Nat)
      (x.onGrid? exponent).map fun d => withoutZeros 20 d exponent
    found.getD ⟨x.truncate, 0⟩

end Binary64

/-- `n` zeros. -/
private def zeros (n : Nat) : String := String.ofList (List.replicate n '0')

/-- The digits with a point after the first `point` of them, filled up with zeros. -/
private def positional (digits : String) (point : Int) : String :=
  let cs := digits.toList
  if point ≤ 0 then "0." ++ zeros (-point).toNat ++ digits
  else if (cs.length : Int) ≤ point then digits ++ zeros (point.toNat - cs.length) ++ ".0"
  else String.ofList (cs.take point.toNat) ++ "." ++ String.ofList (cs.drop point.toNat)

/-- A number in positional notation, with at least one digit after the point. -/
def Binary64.plainText (x : Binary64) : String :=
  let sign := if x.negative then "-" else ""
  if x.isZero then sign ++ "0.0"
  else
    let d := x.shortest
    let digits := toString d.digits
    sign ++ positional digits (digits.length + d.exponent)

/-- A number in positional notation from `1e-5` to below `1e16`, otherwise with an exponent that
has a sign. -/
def Binary64.compactText (x : Binary64) : String :=
  let sign := if x.negative then "-" else ""
  if x.isZero then sign ++ "0.0"
  else
    let d := x.shortest
    let digits := toString d.digits
    let point := digits.length + d.exponent
    if -5 < point ∧ point ≤ 16 then sign ++ positional digits point
    else
      let tail := String.ofList (digits.toList.drop 1)
      let mantissa :=
        String.ofList (digits.toList.take 1) ++ (if tail.isEmpty then "" else "." ++ tail)
      sign ++ mantissa ++ (if 0 < point then "e+" else "e") ++ toString (point - 1)

end Galley.Number
