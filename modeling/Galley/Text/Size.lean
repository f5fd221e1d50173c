/-!
# The size of a text

Texts are measured by the bytes they take in UTF-8. Positions in messages and the weight of values
are counted in these bytes.
-/
namespace Galley.Text

/-- The number of bytes of a list of characters in UTF-8. -/
def size : List Char → Nat
  | [] => 0
  | c :: rest => c.utf8Size + size rest

@[simp] theorem size_nil : size [] = 0 := rfl

@[simp] theorem size_cons (c : Char) (rest : List Char) :
    size (c :: rest) = c.utf8Size + size rest := rfl

theorem size_lt_cons (c : Char) (rest : List Char) : size rest < size (c :: rest) :=
  Nat.lt_add_of_pos_left c.utf8Size_pos

theorem lt_size_cons {n : Nat} {rest : List Char} (c : Char) (h : n < size rest) :
    n < size (c :: rest) := Nat.lt_trans h (size_lt_cons c rest)

theorem le_size_cons {n : Nat} {rest : List Char} (c : Char) (h : n ≤ size rest) :
    n ≤ size (c :: rest) := Nat.le_trans h (Nat.le_of_lt (size_lt_cons c rest))

@[simp] theorem size_append (first second : List Char) :
    size (first ++ second) = size first + size second := by
  induction first with
  | nil => simp
  | cons c rest ih => simp [ih, Nat.add_assoc]

@[simp] theorem size_reverse (cs : List Char) : size cs.reverse = size cs := by
  induction cs with
  | nil => rfl
  | cons c rest ih => simp [ih, Nat.add_comm]

theorem size_toList (text : String) : size text.toList = text.utf8ByteSize := by
  have bytes (cs : List Char) : size cs = (String.ofList cs).utf8ByteSize := by
    induction cs with
    | nil => rfl
    | cons c rest ih => simp [ih]
  rw [bytes, String.ofList_toList]

/-- Dropping from the front never adds bytes. -/
theorem size_dropWhile_le (p : Char → Bool) (cs : List Char) :
    size (cs.dropWhile p) ≤ size cs := by
  induction cs with
  | nil => simp
  | cons c rest ih =>
    simp only [List.dropWhile_cons]
    split
    · simp only [size_cons]; omega
    · exact Nat.le_refl _

end Galley.Text
