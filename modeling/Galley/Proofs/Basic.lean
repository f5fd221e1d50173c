/-!
# Successes and numerals

What a sequence of computations that may fail gives when it succeeds, and how numbers are read from
texts: what is written for a natural number has digits only, and reads back as the number.
-/
namespace Galley

/-! ### Computations that succeed -/

section

variable {ε α β : Type} {first : Except ε α}

theorem bind_eq_ok_iff {next : α → Except ε β} {result : β} :
    (first >>= next) = .ok result ↔ ∃ value, first = .ok value ∧ next value = .ok result := by
  cases first with
  | error reason => simp [bind, Except.bind]
  | ok value => simp [bind, Except.bind]

theorem map_eq_ok_iff {f : α → β} {result : β} :
    first.map f = .ok result ↔ ∃ value, first = .ok value ∧ f value = result := by
  cases first with
  | error reason => simp [Except.map]
  | ok value => simp [Except.map]

end

/-! ### Decimal numbers -/

namespace Text

/-- The number that a text of digits stands for. -/
def number? (digits : List Char) : Option Nat :=
  if digits ≠ [] ∧ digits.all Char.isDigit then some (Nat.ofDigitChars 10 digits 0) else none

theorem isDigit_of_mem_repr {n : Nat} {c : Char} (member : c ∈ n.repr.toList) :
    c.isDigit = true := by
  rw [Nat.toList_repr] at member
  exact Nat.isDigit_of_mem_toDigits (by decide) (by decide) member

theorem number?_repr (n : Nat) : number? n.repr.toList = some n := by
  have digits : n.repr.toList ≠ [] ∧ n.repr.toList.all Char.isDigit :=
    ⟨by simp, List.all_eq_true.mpr fun _ => isDigit_of_mem_repr⟩
  rw [number?, if_pos digits, Nat.toList_repr, Nat.ofDigitChars_ten_toDigits]

end Text
end Galley
