import Galley.Json.Scan
import Galley.Number.Binary64
/-!
# Scanning numbers of JSON

A numeral without fraction and exponent that fits 64 bits is read exactly. Any other is read as a
binary floating point number in two roundings: the digits that fit 64 bits give a whole number,
which is then scaled by a power of ten.
-/
namespace Galley.Json

open Galley.Text (size size_dropWhile_le)
open Galley.Number (Binary64 tenTo twoTo)

/-- Appends decimal digits to a number as long as it stays below `2 ^ 64`; also the digits that no
longer fit. -/
def absorbDigits (significand : Nat) : List Char → Nat × List Char
  | [] => (significand, [])
  | c :: rest =>
    let grown := significand * 10 + digitValue c
    if grown < twoTo 64 then absorbDigits grown rest else (significand, c :: rest)

/-- The power of ten that is scaled by at once, at most. -/
def widestStep : Nat := 308

/-- A power of ten, rounded. -/
def powerOfTen? (exponent : Nat) : Option Binary64 :=
  Binary64.ofRatio false (tenTo exponent) 1

/-- Scales by a power of ten, in steps when it is a small one. A result beyond the largest number
is none. -/
def scaleByTen (x : Binary64) (exponent : Int) : Option Binary64 :=
  if exponent.natAbs ≤ widestStep then do
    let power ← powerOfTen? exponent.natAbs
    if 0 ≤ exponent then x.mul power else x.div power
  else if x.isZero then some x
  else if 0 ≤ exponent then none
  else do
    let power ← powerOfTen? widestStep
    let smaller ← x.div power
    scaleByTen smaller (exponent + widestStep)
termination_by exponent.natAbs
decreasing_by
  simp only [widestStep] at *
  omega

/-- The number `± significand · 10 ^ exponent`, before `rest`. -/
def floatNumber (negative : Bool) (significand : Nat) (exponent : Int) (rest : List Char) :
    Except Fault Number :=
  match Binary64.ofRatio negative significand 1 with
  | none => faultAt .numberOutOfRange rest
  | some x =>
    match scaleByTen x exponent with
    | some scaled => .ok (.float scaled)
    | none => faultAt .numberOutOfRange rest

/-- Reads the digits of an exponent. Past `2 ^ 31 - 1` a number that is not zero is out of range
if it is scaled up, and otherwise is zero. The result is none for such a zero. -/
def absorbExponent (mayOverflow : Bool) (exponent : Nat) (cs : List Char) :
    Except Fault { r : Option Nat × List Char // size r.2 ≤ size cs } :=
  match cs with
  | [] => .ok ⟨(some exponent, []), by simp⟩
  | c :: rest =>
    if isDigit c then
      let grown := exponent * 10 + digitValue c
      if grown < twoTo 31 then do
        let ⟨found, _⟩ ← absorbExponent mayOverflow grown rest
        .ok ⟨found, by simp only [Text.size_cons]; omega⟩
      else if mayOverflow then faultAt .numberOutOfRange rest
      else
        .ok ⟨(none, rest.dropWhile isDigit), by
          have := size_dropWhile_le isDigit rest
          simp only [Text.size_cons]
          omega⟩
    else .ok ⟨(some exponent, c :: rest), Nat.le_refl _⟩

/-- What follows the letter of an exponent. -/
def takeExponent (negative : Bool) (significand : Nat) (exponent : Int) (cs : List Char) :
    Except Fault (Kept Number cs) := do
  let (down, signed) : Bool × { r : List Char // size r ≤ size cs } :=
    match cs with
    | '+' :: rest => (false, ⟨rest, by simp only [Text.size_cons]; omega⟩)
    | '-' :: rest => (true, ⟨rest, by simp only [Text.size_cons]; omega⟩)
    | other => (false, ⟨other, Nat.le_refl _⟩)
  match h : signed.1 with
  | [] => .error ⟨.endInValue, 0⟩
  | c :: rest =>
    if isDigit c then do
      let ⟨(places, rest'), _⟩ ← absorbExponent (significand ≠ 0 && !down) (digitValue c) rest
      let bound : size rest' ≤ size cs := by
        have := signed.2
        simp only [h, Text.size_cons] at this
        simp only at *
        omega
      match places with
      | some n =>
        let shifted := if down then exponent - n else exponent + n
        let number ← floatNumber negative significand shifted rest'
        .ok ⟨(number, rest'), bound⟩
      | none => .ok ⟨(.float (.zero negative), rest'), bound⟩
    else faultPast .badNumber (c :: rest)

/-- What follows the point of a fraction. -/
def takeFraction (negative : Bool) (significand : Nat) (exponent : Int) (cs : List Char) :
    Except Fault (Kept Number cs) :=
  let digits := cs.takeWhile isDigit
  have bound := size_dropWhile_le isDigit cs
  if digits.isEmpty then
    if cs.isEmpty then .error ⟨.endInValue, 0⟩ else faultPast .badNumber cs
  else
    let (grown, unused) := absorbDigits significand digits
    let exponent := exponent - (digits.length - unused.length : Nat)
    match h : cs.dropWhile isDigit with
    | c :: rest =>
      if c = 'e' ∨ c = 'E' then do
        let ⟨found, _⟩ ← takeExponent negative grown exponent rest
        .ok ⟨found, by simp only [h, Text.size_cons] at bound; omega⟩
      else do
        let number ← floatNumber negative grown exponent (c :: rest)
        .ok ⟨(number, c :: rest), by simp only [h] at bound; exact bound⟩
    | [] => do
      let number ← floatNumber negative grown exponent []
      .ok ⟨(number, []), by simp⟩

/-- A whole number that fits 64 bits. The negative zero and numbers below `-2 ^ 63` are floats. -/
def wholeNumber (negative : Bool) (n : Nat) : Number :=
  if !negative then .natural (UInt64.ofNat n)
  else if n ≠ 0 ∧ n ≤ twoTo 63 then .negative (UInt64.ofNat n)
  else .float ((Binary64.ofRatio true n 1).getD (.zero true))

/-- A number after its sign. -/
def takeNumber (negative : Bool) (cs : List Char) : Except Fault (Taken Number cs) :=
  match cs with
  | [] => .error ⟨.endInValue, 0⟩
  | c :: rest =>
    if ¬ isDigit c then faultPast .badNumber (c :: rest)
    else if c = '0' ∧ (rest.head?.any isDigit) then faultPast .badNumber rest
    else
      let digits := c :: rest.takeWhile isDigit
      have bound := size_dropWhile_le isDigit rest
      have positive := c.utf8Size_pos
      let (significand, unused) := absorbDigits 0 digits
      match h : rest.dropWhile isDigit with
      | '.' :: after => do
        let ⟨found, _⟩ ← takeFraction negative significand unused.length after
        .ok ⟨found, by simp only [h, Text.size_cons] at *; omega⟩
      | d :: after =>
        if d = 'e' ∨ d = 'E' then do
          let ⟨found, _⟩ ← takeExponent negative significand unused.length after
          .ok ⟨found, by simp only [h, Text.size_cons] at *; omega⟩
        else if unused.isEmpty then
          .ok ⟨(wholeNumber negative significand, d :: after), by
            simp only [h, Text.size_cons] at *; omega⟩
        else do
          let number ← floatNumber negative significand unused.length (d :: after)
          .ok ⟨(number, d :: after), by simp only [h, Text.size_cons] at *; omega⟩
      | [] =>
        if unused.isEmpty then
          .ok
            ⟨(wholeNumber negative significand, []),
              by simp only [Text.size_nil, Text.size_cons]; omega⟩
        else do
          let number ← floatNumber negative significand unused.length []
          .ok ⟨(number, []), by simp only [Text.size_nil, Text.size_cons]; omega⟩

end Galley.Json
