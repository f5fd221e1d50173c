import Galley.Json.Printer
import Galley.Proofs.Json.Members
import Mathlib.Tactic.SplitIfs
/-!
# Reading what was written

A value that is written without blanks is read back from the front of any text. For strings this is
so because however a character is written, it is read as that character. For objects it follows
member by member: reading goes from one state to the next as each value is read back.

## Main results

`reads_string`, `reads_members` and `Record.reads_object`.
-/
namespace Galley.Json

variable {σ α β : Type}

/-! ### Strings -/

/-- A character is written as it is, behind a backslash, or by its number. -/
theorem escapeChar_cases (c : Char) :
    (escapeChar c = [c] ∧ c ≠ '"' ∧ c ≠ '\\' ∧ 0x20 ≤ c.toNat) ∨
    (∃ letter, escapeChar c = ['\\', letter] ∧ simpleEscape? letter = some c) ∨
    ∃ high low, escapeChar c = ['\\', 'u', '0', '0', high, low] ∧ c.toNat < 0x20 ∧
      hexValue? high = some (c.toNat / 16) ∧ hexValue? low = some (c.toNat % 16) := by
  have numbered (n : Nat) (small : n = c.toNat) (d : Char) (found : Char.ofNat n = d) : c = d := by
    rw [← found, small, Char.ofNat_toNat]
  unfold escapeChar
  split_ifs with quote backslash feed ret tab backspace form control
  · exact .inr (.inl ⟨'"', rfl, by rw [quote]; decide⟩)
  · exact .inr (.inl ⟨'\\', rfl, by rw [backslash]; decide⟩)
  · exact .inr (.inl ⟨'n', rfl, by rw [feed]; decide⟩)
  · exact .inr (.inl ⟨'r', rfl, by rw [ret]; decide⟩)
  · exact .inr (.inl ⟨'t', rfl, by rw [tab]; decide⟩)
  · have same := Char.ofNat_toNat c
    rw [backspace] at same
    exact .inr (.inl ⟨'b', rfl, by rw [← same]; decide⟩)
  · have same := Char.ofNat_toNat c
    rw [form] at same
    exact .inr (.inl ⟨'f', rfl, by rw [← same]; decide⟩)
  · refine .inr (.inr ⟨_, _, rfl, control, ?_, ?_⟩)
    · have small : c.toNat / 16 < 16 := by omega
      revert small
      generalize c.toNat / 16 = n
      revert n
      decide
    · have small : c.toNat % 16 < 16 := by omega
      revert small
      generalize c.toNat % 16 = n
      revert n
      decide
  · exact .inl ⟨rfl, quote, backslash, by omega⟩

theorem bare_takeHex4 {a b c d : Char} {w x y z : Nat} (first : hexValue? a = some w)
    (second : hexValue? b = some x) (third : hexValue? c = some y) (last : hexValue? d = some z)
    (rest : List Char) :
    bare (takeHex4 (a :: b :: c :: d :: rest)) = .ok (((w * 16 + x) * 16 + y) * 16 + z, rest) := by
  unfold takeHex4
  simp only
  split
  next found found' found'' found''' =>
    rw [first] at found
    rw [second] at found'
    rw [third] at found''
    rw [last] at found'''
    cases found; cases found'; cases found''; cases found'''
    rfl
  next missing => exact absurd last (missing _ _ _ _ first second third)

theorem bare_takeEscape_simple {letter c : Char} (spells : simpleEscape? letter = some c)
    (rest : List Char) : bare (takeEscape (letter :: rest)) = .ok (c, rest) := by
  unfold simpleEscape? at spells
  split_ifs at spells
  all_goals
    subst letter
    cases spells
    rfl

theorem bare_takeEscape_number {high low c : Char} (control : c.toNat < 0x20)
    (first : hexValue? high = some (c.toNat / 16)) (second : hexValue? low = some (c.toNat % 16))
    (rest : List Char) :
    bare (takeEscape ('u' :: '0' :: '0' :: high :: low :: rest)) = .ok (c, rest) := by
  have zero : hexValue? '0' = some 0 := by decide
  have unit := bare_takeHex4 zero zero first second rest
  have number : ((0 * 16 + 0) * 16 + c.toNat / 16) * 16 + c.toNat % 16 = c.toNat := by omega
  rw [number] at unit
  obtain ⟨bound, unit⟩ := eq_ok_of_bare unit
  rw [takeEscape, unit]
  dsimp only [bind, Except.bind]
  rw [if_neg (by omega), if_neg (by omega), bare]
  exact congrArg (fun found => Except.ok (found, rest)) (Char.ofNat_toNat c)

/-- What a string spells is read back character by character. -/
theorem bare_takeString_escapeChar (spelled : List Char) (c : Char) (rest : List Char) :
    bare (takeString spelled (escapeChar c ++ rest)) = bare (takeString (c :: spelled) rest) := by
  rcases escapeChar_cases c with
    ⟨same, quote, backslash, visible⟩ | ⟨letter, same, spells⟩ | ⟨high, low, same, control, digits⟩
  · rw [same, List.singleton_append, takeString]
    · rw [if_neg (by omega)]
      exact bare_bind_ok _ _
    · exact quote
    · exact backslash
  · obtain ⟨bound, taken⟩ := eq_ok_of_bare (bare_takeEscape_simple spells rest)
    rw [same, List.cons_append, List.singleton_append, takeString, taken]
    exact bare_bind_ok _ _
  · obtain ⟨bound, taken⟩ := eq_ok_of_bare (bare_takeEscape_number control digits.1 digits.2 rest)
    rw [same]
    simp only [List.cons_append, List.nil_append]
    rw [takeString, taken]
    exact bare_bind_ok _ _

theorem bare_takeString_end (spelled rest : List Char) :
    bare (takeString spelled ('"' :: rest)) = .ok (spelled.reverse, rest) := by
  rw [takeString]
  rfl

theorem bare_takeString_written (spelled text rest : List Char) :
    bare (takeString spelled (text.flatMap escapeChar ++ '"' :: rest)) =
      .ok (spelled.reverse ++ text, rest) := by
  induction text generalizing spelled with
  | nil => rw [List.flatMap_nil, List.nil_append, bare_takeString_end, List.append_nil]
  | cons c text ih =>
    rw [List.flatMap_cons, List.append_assoc, bare_takeString_escapeChar, ih]
    simp

/-- The text of a string behind its opening quote. -/
theorem bare_takeText_written (text : String) (rest : List Char) :
    bare (takeText (text.toList.flatMap escapeChar ++ '"' :: rest)) = .ok (text, rest) := by
  obtain ⟨bound, taken⟩ := eq_ok_of_bare (bare_takeString_written [] text.toList rest)
  rw [takeText, taken]
  simp [bare, bind, Except.bind, Except.map]

theorem toList_printString (text : String) :
    (printString text).toList = '"' :: (text.toList.flatMap escapeChar ++ ['"']) := by
  simp [printString]

/-! ### Values -/

/-- A value is taken off the front of a text that begins with what was written for it. -/
def Reads (read : Reader α) (depth : Nat) (written : String) (a : α) : Prop :=
  ∀ rest, bare (read depth (written.toList ++ rest)) = .ok (a, rest)

theorem Reads.map {read : Reader α} {depth : Nat} {written : String} {a : α}
    (reads : Reads read depth written a) (f : α → β) :
    Reads (Reader.map f read) depth written (f a) := by
  intro rest
  rw [bare_map, reads rest]
  rfl

theorem decode_of_reads {read : Reader α} {written : String} {a : α}
    (reads : Reads read depthLimit written a) : decode read written = .ok a := by
  have whole := reads []
  rw [List.append_nil] at whole
  rw [decode_eq, whole]
  rfl

theorem reads_string (depth : Nat) (text : String) :
    Reads string depth (printString text) text := by
  intro rest
  obtain ⟨bound, taken⟩ := eq_ok_of_bare (bare_takeText_written text rest)
  have opens : skipSpaces ((printString text).toList ++ rest) =
      '"' :: (text.toList.flatMap escapeChar ++ '"' :: rest) := by
    rw [toList_printString, List.cons_append, List.append_assoc, List.singleton_append]
    rfl
  unfold string stringAs
  split
  next missing => rw [opens] at missing; cases missing
  next c after same =>
    rw [opens] at same
    cases same
    rw [if_pos rfl, taken]
    rfl

/-- What is read is present, unless it begins like `null`. -/
theorem Reads.optional_some {read : Reader α} {depth : Nat} {written : String} {a : α}
    (reads : Reads read depth written a)
    (present : ∃ c after, written.toList = c :: after ∧ isSpace c = false ∧ c ≠ 'n') :
    Reads (optional read) depth written (some a) := by
  obtain ⟨c, after, written_eq, visible, other⟩ := present
  intro rest
  obtain ⟨bound, taken⟩ := eq_ok_of_bare (reads rest)
  have starts : skipSpaces (written.toList ++ rest) = c :: (after ++ rest) := by
    rw [written_eq, List.cons_append, skipSpaces, List.dropWhile_cons_of_neg (by simp [visible])]
  unfold optional
  split
  next missing => rw [starts] at missing; cases missing
  next d more same =>
    rw [starts] at same
    cases same
    rw [if_neg other, taken]
    rfl

theorem reads_null (read : Reader α) (depth : Nat) : Reads (optional read) depth "null" none := by
  intro rest
  rfl

theorem reads_ofText? (depth : Nat) (text : Option String) :
    Reads (optional string) depth (Value.ofText? text).print text := by
  cases text with
  | none => exact reads_null string depth
  | some text =>
    exact (reads_string depth text).optional_some
      ⟨'"', _, toList_printString text, by decide, by decide⟩

/-! ### Objects -/

/-- Reading members goes from one state to another as each value is read back. -/
inductive ReadsMembers (accept : σ → String → Except Cause (Reader σ)) (depth : Nat) :
    σ → List (String × Value) → σ → Prop
  | nil (state : σ) : ReadsMembers accept depth state [] state
  | cons {state next last : σ} {name : String} {value : Value} {rest : List (String × Value)}
      {read : Reader σ} (accepted : accept state name = .ok read)
      (reads : Reads read depth value.print next)
      (more : ReadsMembers accept depth next rest last) :
    ReadsMembers accept depth state ((name, value) :: rest) last

variable {accept : σ → String → Except Cause (Reader σ)} {depth : Nat} {state last : σ}
  {members : List (String × Value)}

/-- The text of a member behind the quote that opens its name. -/
private def openedMember (name : String) (value : Value) (rest : List Char) : List Char :=
  name.toList.flatMap escapeChar ++ '"' :: ':' :: (value.print.toList ++ rest)

private theorem nextName?_printMembers (first : Bool) (name : String) (value : Value)
    (members : List (String × Value)) (rest : List Char) :
    nextName? first ((Value.printMembers first ((name, value) :: members)).toList ++ rest) =
      some (openedMember name value ((Value.printMembers false members).toList ++ rest)) := by
  have written : (Value.printMembers first ((name, value) :: members)).toList ++ rest =
      (if first then [] else [',']) ++
        '"' :: openedMember name value ((Value.printMembers false members).toList ++ rest) := by
    cases first <;> simp [Value.printMembers, toList_printString, openedMember]
  rw [written]
  cases first <;> rfl

theorem foldMembers_of_readsMembers (reads : ReadsMembers accept depth state members last)
    (first : Bool) (rest : List Char) :
    bare (foldMembers accept depth state first
      ((Value.printMembers first members).toList ++ '\x7d' :: rest)) = .ok (last, rest) := by
  induction reads generalizing first with
  | nil state =>
    rw [foldMembers]
    rfl
  | @cons state next last name value members read accepted reads _ ih =>
    have member : bare (foldMembers.member accept depth state
        (openedMember name value
          ((Value.printMembers false members).toList ++ '\x7d' :: rest))) =
        .ok (next, (Value.printMembers false members).toList ++ '\x7d' :: rest) := by
      rw [openedMember, bare_member (bare_takeText_written name _) accepted rfl]
      exact reads _
    rw [foldMembers_of_member (nextName?_printMembers first name value members _) member, ih]

theorem skipSpaces_print_object (members : List (String × Value)) (rest : List Char) :
    skipSpaces ((Value.object members).print.toList ++ rest) =
      '\x7b' :: ((Value.printMembers true members).toList ++ '\x7d' :: rest) := by
  have written : (Value.object members).print.toList ++ rest =
      '\x7b' :: ((Value.printMembers true members).toList ++ '\x7d' :: rest) := by
    simp [Value.print]
  rw [written]
  rfl

/-- An object is read as the state that its members leave. -/
theorem reads_members {empty : σ} (reads : ReadsMembers accept depth empty members last)
    (wanted : String) :
    Reads (Json.members accept empty wanted) (depth + 1) (Value.object members).print last := by
  intro rest
  have opens := skipSpaces_print_object members rest
  obtain ⟨bound, taken⟩ := eq_ok_of_bare (foldMembers_of_readsMembers reads true rest)
  rw [Json.members]
  split
  next missing => rw [opens] at missing; cases missing
  next c after same =>
    rw [opens] at same
    cases same
    rw [if_pos rfl]
    simp only [taken]
    rfl

/-- A record is read as what its members leave, if nothing is missing. -/
theorem Record.reads_object (record : Record σ α) {value : α}
    (reads : ReadsMembers record.accept depth record.empty members last)
    (complete : record.missing? last = none) (finished : record.finish last = some value) :
    Reads record.reader (depth + 1) (Value.object members).print value := by
  intro rest
  rw [record.bare_reader (skipSpaces_print_object members rest),
    foldMembers_of_readsMembers reads]
  simp only [Except.bind, Record.conclude, complete, finished]

end Galley.Json
