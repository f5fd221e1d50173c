import Galley.Time.Calendar
/-!
# Points in time

A point in time is a number of seconds since the first of January 1970 and a number of nanoseconds.
A leap second has no number of its own: it shows as more than a thousand million nanoseconds in the
second before it. The calendar ends, so not every sum of a point and a length of time is a point.
-/
namespace Galley.Time

/-- A length of time in nanoseconds, of either sign. -/
abbrev Span := Int

def Span.ofMillis (ms : Int) : Span := ms * 1000000

namespace Timestamp

def billion : Nat := 1000000000

/-- The first second of the year -262143, the first year of the calendar. -/
def firstSecond : Int := -8334601228800

/-- The last second of the year 262142, the last year of the calendar. -/
def lastSecond : Int := 8210266876799

example :
    firstSecond = Date.toDays ⟨-262143, 1, 1⟩ * 86400 ∧
      lastSecond = Date.toDays ⟨262143, 1, 1⟩ * 86400 - 1 := by
  decide

/-- A second of the calendar. -/
def InCalendar (second : Int) : Prop := firstSecond ≤ second ∧ second ≤ lastSecond

instance (second : Int) : Decidable (InCalendar second) := inferInstanceAs (Decidable (_ ∧ _))

end Timestamp

structure Timestamp where
  seconds : Int
  nanos : Nat
  inCalendar : Timestamp.InCalendar seconds
  nanos_lt : nanos < 2 * Timestamp.billion
deriving DecidableEq, Repr

namespace Timestamp

def le (first second : Timestamp) : Prop :=
  first.seconds < second.seconds ∨ first.seconds = second.seconds ∧ first.nanos ≤ second.nanos

instance : LE Timestamp := ⟨le⟩

instance (first second : Timestamp) : Decidable (first ≤ second) :=
  inferInstanceAs (Decidable (_ ∨ _))

theorem le_def (first second : Timestamp) :
    first ≤ second ↔
      first.seconds < second.seconds ∨
        first.seconds = second.seconds ∧ first.nanos ≤ second.nanos := Iff.rfl

theorem le_refl (t : Timestamp) : t ≤ t := Or.inr ⟨rfl, Nat.le_refl _⟩

theorem le_trans {a b c : Timestamp} (first : a ≤ b) (second : b ≤ c) : a ≤ c := by
  simp only [le_def] at *
  omega

/-- The point of these seconds and nanoseconds, if there is one. -/
def of? (seconds : Int) (nanos : Nat) : Option Timestamp :=
  if fits : InCalendar seconds ∧ nanos < 2 * billion then some ⟨seconds, nanos, fits.1, fits.2⟩
  else none

/-- The point that lies a number of milliseconds after the first of January 1970. -/
def ofMillis (ms : Int) (inCalendar : InCalendar (ms / 1000) := by decide) : Timestamp :=
  ⟨ms / 1000, (ms % 1000).toNat * 1000000, inCalendar, by unfold billion; omega⟩

/-! ### Sums -/

/-- The seconds and nanoseconds of a sum. A point in a leap second counts as the second before it
when the sum lies later, and as the second after it when the sum lies earlier; within the leap
second it stays there. -/
def shift (t : Timestamp) (span : Span) : Int × Nat :=
  let seconds := Int.tdiv span billion
  let nanos := Int.tmod span billion
  let carry (s n : Int) : Int × Nat := (s + n / billion, (n % billion).toNat)
  if t.nanos < billion then carry (t.seconds + seconds) (t.nanos + nanos)
  else if 0 < seconds ∨ (0 < nanos ∧ 2 * billion ≤ t.nanos + nanos) then
    carry (t.seconds + seconds) (t.nanos - billion + nanos)
  else if seconds < 0 then carry (t.seconds + 1 + seconds) (t.nanos - billion + nanos)
  else (t.seconds, (t.nanos + nanos).toNat)

theorem shift_snd_lt (t : Timestamp) (span : Span) : (t.shift span).2 < 2 * billion := by
  have bound := t.nanos_lt
  have small : Int.tmod span billion < billion := Int.tmod_lt_of_pos span (by decide)
  unfold shift
  unfold billion at *
  dsimp only
  split
  next => omega
  next =>
    split
    next => omega
    next => split <;> omega

/-- The sum, unless it lies outside the calendar. -/
def add? (t : Timestamp) (span : Span) : Option Timestamp :=
  if inCalendar : InCalendar (t.shift span).1 then
    some ⟨(t.shift span).1, (t.shift span).2, inCalendar, t.shift_snd_lt span⟩
  else none

/-- Time that passes leads past the point it starts from, leap seconds or not. -/
theorem not_add_le {t sum : Timestamp} {span : Span} (positive : 0 < span)
    (added : t.add? span = some sum) : ¬ sum ≤ t := by
  change (0 : Int) < span at positive
  have parts := Int.tdiv_mul_add_tmod span billion
  have whole : 0 ≤ Int.tdiv span billion := Int.tdiv_nonneg (Int.le_of_lt positive) (by decide)
  have part : 0 ≤ Int.tmod span billion := Int.tmod_nonneg _ (Int.le_of_lt positive)
  unfold add? at added
  split at added
  case isFalse => cases added
  case isTrue =>
    cases added
    rw [le_def]
    unfold shift
    unfold billion at *
    dsimp only at *
    split
    next => omega
    next =>
      -- within a leap second the sum may stay there, but only further on
      split
      next => omega
      next => rw [if_neg (Int.not_lt.mpr whole)]; dsimp only; omega

end Timestamp
end Galley.Time
