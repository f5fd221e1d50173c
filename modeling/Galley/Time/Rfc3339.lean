import Galley.Number.Binary64
import Galley.Text.Blank
import Galley.Text.Size
import Galley.Time.Timestamp
/-!
# Points in time as text

Times are written in universal time, with as many digits of the second as it has, in groups of
three. Reading also admits another offset, blanks between the parts, a blank in place of the `T`
and years of any number of digits after a sign.
-/
namespace Galley.Time

/-! ### Writing -/

/-- A number with zeros in front, up to a width. -/
def padded (width n : Nat) : String :=
  let digits := toString n
  String.ofList (List.replicate (width - digits.length) '0') ++ digits

/-- Four digits; a year outside them gets a sign. -/
private def yearText (year : Int) : String :=
  if 0 ≤ year ∧ year ≤ 9999 then padded 4 year.toNat
  else (if year < 0 then "-" else "+") ++ padded 4 year.natAbs

private def fractionText (nanos : Nat) : String :=
  if nanos = 0 then ""
  else if nanos % 1000000 = 0 then "." ++ padded 3 (nanos / 1000000)
  else if nanos % 1000 = 0 then "." ++ padded 6 (nanos / 1000)
  else "." ++ padded 9 nanos

/-- A point in time as text. -/
def Timestamp.text (t : Timestamp) : String :=
  let date := Date.ofDays (t.seconds / 86400)
  let second := (t.seconds % 86400).toNat
  let leap := t.nanos / Timestamp.billion
  yearText date.year ++ "-" ++ padded 2 date.month ++ "-" ++ padded 2 date.day ++ "T" ++
    padded 2 (second / 3600) ++ ":" ++ padded 2 (second / 60 % 60) ++ ":" ++
    padded 2 (second % 60 + leap) ++ fractionText (t.nanos % Timestamp.billion) ++ "Z"

/-! ### Reading -/

/-- Why a text is not a point in time. -/
inductive Unreadable where
  | outOfRange
  /-- A date of the calendar in its own offset that is none in universal time. -/
  | impossible
  | invalid
  | tooShort
  | tooLong
deriving DecidableEq, Repr

def Unreadable.message : Unreadable → String
  | .outOfRange => "input is out of range"
  | .impossible => "no possible date and time matching input"
  | .invalid => "input contains invalid characters"
  | .tooShort => "premature end of input"
  | .tooLong => "trailing input"

private def isDecimal (c : Char) : Bool := '0' ≤ c && c ≤ '9'

private def decimalValue (digits : List Char) : Nat :=
  digits.foldl (fun n c => n * 10 + (c.toNat - 48)) 0

private def skipBlanks (cs : List Char) : List Char := cs.dropWhile Text.isBlank

/-- At least one and at most `width` digits. -/
private def takeDigits (width : Nat) (cs : List Char) : Except Unreadable (Nat × List Char) :=
  match cs with
  | [] => .error .tooShort
  | c :: _ =>
    if isDecimal c then
      let digits := (cs.take width).takeWhile isDecimal
      .ok (decimalValue digits, cs.drop digits.length)
    else .error .invalid

/-- A number of any length that must fit 64 bits with a sign. -/
private def takeLong (cs : List Char) : Except Unreadable (Nat × List Char) := do
  let (n, rest) ← takeDigits cs.length cs
  if n < Number.twoTo 63 then .ok (n, rest) else .error .outOfRange

/-- A number in a range, blanks before it passed over. -/
private def takeField (low high : Nat) (cs : List Char) : Except Unreadable (Nat × List Char) := do
  let (n, rest) ← takeDigits 2 (skipBlanks cs)
  if low ≤ n ∧ n ≤ high then .ok (n, rest) else .error .outOfRange

private def takeYear (cs : List Char) : Except Unreadable (Int × List Char) := do
  let (year, rest) ←
    (match skipBlanks cs with
      | '-' :: rest => (takeLong rest).map fun r => (-(r.1 : Int), r.2)
      | '+' :: rest => (takeLong rest).map fun r => ((r.1 : Int), r.2)
      | other => (takeDigits 4 other).map fun r => ((r.1 : Int), r.2) :
      Except Unreadable (Int × List Char))
  if -(Number.twoTo 31 : Int) ≤ year ∧ year < Number.twoTo 31 then .ok (year, rest)
  else .error .outOfRange

/-- A separator, blanks before it passed over. -/
private def takeMark (mark : Char) (cs : List Char) : Except Unreadable (Unit × List Char) :=
  match skipBlanks cs with
  | [] => .error .tooShort
  | c :: rest => if c = mark then .ok ((), rest) else .error .invalid

/-- The digits behind a point, of which nine count. -/
private def takeNanos (cs : List Char) : Except Unreadable (Nat × List Char) :=
  match cs with
  | '.' :: rest => do
    let (n, after) ← takeDigits 9 rest
    let places := rest.length - after.length
    .ok (n * Number.tenTo (9 - places), after.dropWhile isDecimal)
  | other => .ok (0, other)

/-- What is wrong with at most one character where two digits were wanted, which are two bytes. -/
private def unlessShort {α : Type} (cs : List Char) : Except Unreadable α :=
  if Text.size cs < 2 then .error .tooShort else .error .invalid

/-- The hours and minutes of an offset after its sign. -/
private def takeHoursMinutes (cs : List Char) : Except Unreadable (Int × List Char) :=
  match cs with
  | a :: b :: rest =>
    if isDecimal a ∧ isDecimal b then
      match rest.dropWhile fun c => c = ':' || Text.isBlank c with
      | c :: d :: rest =>
        if isDecimal c ∧ isDecimal d then
          if c ≤ '5' then
            .ok (decimalValue [a, b] * 3600 + decimalValue [c, d] * 60, rest)
          else .error .outOfRange
        else .error .invalid
      | other => unlessShort other
    else .error .invalid
  | other => unlessShort other

/-- An offset in seconds: a letter for none, the name of universal time, or hours and minutes with a
sign. -/
private def takeOffset (cs : List Char) : Except Unreadable (Int × List Char) :=
  let upper := (cs.take 3).map Char.toUpper
  if upper = ['U', 'T', 'C'] then .ok (0, cs.drop 3)
  else
    match cs with
    | [] => .error .tooShort
    | c :: rest =>
      if c = 'Z' ∨ c = 'z' then .ok (0, rest)
      else if c = '+' then takeHoursMinutes rest
      else if c = '-' ∨ c = Char.ofNat 0x2212 then
        (takeHoursMinutes rest).map fun r => (-r.1, r.2)
      else .error .invalid

/-- The point in time that a text tells. -/
def Timestamp.ofText (text : String) : Except Unreadable Timestamp := do
  let (year, cs) ← takeYear text.toList
  let (_, cs) ← takeMark '-' cs
  let (month, cs) ← takeField 1 12 cs
  let (_, cs) ← takeMark '-' cs
  let (day, cs) ← takeField 1 31 cs
  let cs ← match cs with
    | [] => .error .tooShort
    | c :: rest => if c = 'T' ∨ c = 't' ∨ c = ' ' then pure rest else .error .invalid
  let (hour, cs) ← takeField 0 23 cs
  let (_, cs) ← takeMark ':' cs
  let (minute, cs) ← takeField 0 59 cs
  let (_, cs) ← takeMark ':' cs
  let (second, cs) ← takeField 0 60 cs
  let (nanos, cs) ← takeNanos cs
  let (offset, cs) ← takeOffset (skipBlanks cs)
  if ¬ (skipBlanks cs).isEmpty then .error .tooLong
  let date : Date := ⟨year, month, day⟩
  if ¬ date.isValid ∨ year < -262143 ∨ 262142 < year ∨ 86400 ≤ offset.natAbs then
    .error .outOfRange
  let clock : Int := hour * 3600 + minute * 60 + min second 59 - offset
  let leap := if second = 60 then Timestamp.billion else 0
  match Timestamp.of? (date.toDays * 86400 + clock) (nanos + leap) with
  | some time => .ok time
  | none => .error .impossible

end Galley.Time
