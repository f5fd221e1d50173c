/-!
# Lengths of time as text

A length of time is shown in the largest unit that it fills, with the digits of a fraction behind a
point and no zeros at the end.
-/
namespace Galley.Time

structure Duration where
  seconds : Nat
  nanos : Nat
  nanos_lt : nanos < 1000000000
deriving DecidableEq, Repr

namespace Duration

def ofSeconds (seconds : Nat) : Duration := ⟨seconds, 0, by decide⟩

def ofMillis (ms : Nat) : Duration := ⟨ms / 1000, ms % 1000 * 1000000, by omega⟩

def isZero (d : Duration) : Bool := d.seconds == 0 && d.nanos == 0

/-- The digits of `part / 10 ^ places` behind the point, with the point. -/
private def fractionDigits (places part : Nat) : String :=
  let digits := (toString part).toList
  let padded := List.replicate (places - digits.length) '0' ++ digits
  let kept := (padded.reverse.dropWhile (· == '0')).reverse
  if kept.isEmpty then "" else "." ++ String.ofList kept

def text (d : Duration) : String :=
  if 0 < d.seconds then toString d.seconds ++ fractionDigits 9 d.nanos ++ "s"
  else if 1000000 ≤ d.nanos then
    toString (d.nanos / 1000000) ++ fractionDigits 6 (d.nanos % 1000000) ++ "ms"
  else if 1000 ≤ d.nanos then toString (d.nanos / 1000) ++ fractionDigits 3 (d.nanos % 1000) ++ "µs"
  else toString d.nanos ++ "ns"

end Duration
end Galley.Time
