import Galley.Bibliography.Written
import Galley.Proofs.Bibliography.ReadBack
/-!
# Braces of a value

A value of a database ends at the brace that closes its first one. A backslash keeps the character
behind it from counting. What a text does to the braces around it is told character by character.

## Main result

`eq_of_takeBraced_unclosed`: a value that leaves braces open, or that ends in a backslash, takes in
all that follows up to the brace that closes its entry, or does not end at all. For this no text
behind it may close a brace that it did not open.
-/
namespace Galley.Bibliography

/-- The braces that are open at some place in a value, and whether a backslash stands before it. -/
structure Braces where
  opened : Nat
  escaped : Bool
deriving DecidableEq, Repr

namespace Braces

/-- Passes over a character, unless it closes a brace that is not open. -/
def step? (braces : Braces) (c : Char) : Option Braces :=
  if braces.escaped then some ⟨braces.opened, false⟩
  else if c = '\\' then some ⟨braces.opened, true⟩
  else if c = '{' then some ⟨braces.opened + 1, false⟩
  else if c = '}' then
    match braces.opened with
    | 0 => none
    | opened + 1 => some ⟨opened, false⟩
  else some ⟨braces.opened, false⟩

/-- Passes over a text. -/
def scan? (braces : Braces) (text : List Char) : Option Braces := text.foldlM step? braces

/-- Where the text of a value begins: no brace is open but its own. -/
def start : Braces := ⟨0, false⟩

variable {braces next : Braces} {c : Char}

@[simp] theorem scan?_nil : scan? braces [] = some braces := rfl

theorem scan?_cons (text : List Char) :
    scan? braces (c :: text) = (step? braces c).bind (scan? · text) := rfl

theorem scan?_append (first second : List Char) :
    scan? braces (first ++ second) = (scan? braces first).bind (scan? · second) :=
  List.foldlM_append

/-- The characters that count in a value. -/
def counting : List Char := ['\\', '\x7b', '\x7d']

theorem step?_of_not_counting (other : c ∉ counting) (opened : Nat) :
    step? ⟨opened, false⟩ c = some ⟨opened, false⟩ := by
  simp only [counting, List.mem_cons, List.not_mem_nil, or_false, not_or] at other
  simp [step?, other]

/-- More braces around a text change nothing but the count. -/
theorem step?_add (passes : step? braces c = some next) (around : Nat) :
    step? ⟨braces.opened + around, braces.escaped⟩ c =
      some ⟨next.opened + around, next.escaped⟩ := by
  obtain ⟨opened, escaped⟩ := braces
  unfold step? at passes ⊢
  split_ifs at passes ⊢ with behind slash opens closes
  all_goals try (cases passes; rfl)
  · cases passes
    simp only [Nat.add_right_comm]
  · cases opened with
    | zero => cases passes
    | succ opened =>
      cases passes
      simp only [Nat.add_right_comm opened 1 around]

theorem scan?_add {text : List Char} (passes : scan? braces text = some next) (around : Nat) :
    scan? ⟨braces.opened + around, braces.escaped⟩ text =
      some ⟨next.opened + around, next.escaped⟩ := by
  induction text generalizing braces with
  | nil => cases passes; rfl
  | cons c text ih =>
    rw [scan?_cons, Option.bind_eq_some_iff] at passes
    obtain ⟨between, first, later⟩ := passes
    rw [scan?_cons, step?_add first, Option.bind_some]
    exact ih later

end Braces

open Braces (step? scan?)

/-- A text that closes no brace but its own, which it need not close. -/
def ClosesOwn (text : List Char) : Prop := (scan? .start text).isSome

instance (text : List Char) : Decidable (ClosesOwn text) :=
  inferInstanceAs (Decidable (_ = true))

/-! ### Texts that leave open what was open -/

/-- A text that leaves open, in whatever value it stands, what was open before it. -/
def KeepsOpen (text : List Char) : Prop :=
  ∀ opened, ∃ more, scan? ⟨opened, false⟩ text = some ⟨opened + more, false⟩

theorem keepsOpen_nil : KeepsOpen [] := fun _ => ⟨0, rfl⟩

theorem KeepsOpen.append {first second : List Char} (here : KeepsOpen first)
    (later : KeepsOpen second) : KeepsOpen (first ++ second) := by
  intro opened
  obtain ⟨more, first_eq⟩ := here opened
  obtain ⟨others, second_eq⟩ := later (opened + more)
  refine ⟨more + others, ?_⟩
  rw [Braces.scan?_append, first_eq, Option.bind_some, second_eq, Nat.add_assoc]

theorem keepsOpen_of_not_counting {text : List Char} (plain : ∀ c ∈ text, c ∉ Braces.counting) :
    KeepsOpen text := by
  induction text with
  | nil => exact keepsOpen_nil
  | cons c text ih =>
    rw [List.forall_mem_cons] at plain
    have one : KeepsOpen [c] := by
      intro opened
      refine ⟨0, ?_⟩
      rw [Braces.scan?_cons, Braces.step?_of_not_counting plain.1]
      rfl
    exact one.append (ih plain.2)

theorem KeepsOpen.flatMap {α : Type} {items : List α} {text : α → List Char}
    (each : ∀ item ∈ items, KeepsOpen (text item)) : KeepsOpen (items.flatMap text) := by
  induction items with
  | nil => exact keepsOpen_nil
  | cons item items ih =>
    rw [List.forall_mem_cons] at each
    exact each.1.append (ih each.2)

/-- The text of a value or of a key leaves open its own braces too. -/
theorem ClosesOwn.exists_scan? {text : List Char} (own : ClosesOwn text) (opened : Nat) :
    ∃ more escaped, scan? ⟨opened, false⟩ text = some ⟨opened + more, escaped⟩ := by
  obtain ⟨⟨more, escaped⟩, passes⟩ := Option.isSome_iff_exists.mp own
  refine ⟨more, escaped, ?_⟩
  have around := Braces.scan?_add passes opened
  simpa [Braces.start, Nat.add_comm] using around

/-- Braces around a text keep open what was open, for the text closes none of the others. A
backslash at its end even keeps the last one open. -/
theorem ClosesOwn.keepsOpen_braced {text : List Char} (own : ClosesOwn text) :
    KeepsOpen ('{' :: (text ++ ['}'])) := by
  intro opened
  obtain ⟨more, escaped, inside⟩ := own.exists_scan? (opened + 1)
  have opens : step? ⟨opened, false⟩ '{' = some ⟨opened + 1, false⟩ := by simp [step?]
  rw [Braces.scan?_cons, opens, Option.bind_some, Braces.scan?_append, inside, Option.bind_some]
  cases escaped with
  | true => exact ⟨1 + more, by simp [Braces.scan?_cons, step?, Nat.add_assoc]⟩
  | false =>
    have count : opened + 1 + more = (opened + more) + 1 := by omega
    exact ⟨more, by simp [Braces.scan?_cons, step?, count]⟩

/-- The brace of an entry is open behind the key. -/
theorem ClosesOwn.opens_key {key : List Char} (own : ClosesOwn key) (opened : Nat) :
    ∃ more, scan? ⟨opened, false⟩ ('{' :: (key ++ [',', '\n'])) =
      some ⟨opened + 1 + more, false⟩ := by
  obtain ⟨more, escaped, inside⟩ := own.exists_scan? (opened + 1)
  have opens : step? ⟨opened, false⟩ '{' = some ⟨opened + 1, false⟩ := by simp [step?]
  rw [Braces.scan?_cons, opens, Option.bind_some, Braces.scan?_append, inside, Option.bind_some]
  -- a backslash at the end of the key only takes the comma in
  cases escaped <;> exact ⟨more, by simp [Braces.scan?_cons, step?]⟩

/-! ### Entries inside a value -/

/-- The names of the fields that are written. -/
def fieldNames : List String := ["note", "doi", "url"]

theorem name_mem_fieldNames {entry : Entry} {field : String × String}
    (member : field ∈ entry.fields) : field.1 ∈ fieldNames := by
  obtain ⟨source, listed, found⟩ := List.mem_filterMap.mp member
  obtain ⟨value, -, rfl⟩ := Option.map_eq_some_iff.mp found
  exact List.mem_map_of_mem (f := Prod.fst) listed

/-- An entry whose key ends at its comma, and whose texts close no brace but their own. -/
structure Contained (entry : Entry) : Prop where
  comma : ',' ∉ entry.key.toList
  key : ClosesOwn entry.key.toList
  values : ∀ field ∈ entry.fields, ClosesOwn field.2.toList

theorem keepsOpen_fields {fields : List (String × String)}
    (named : ∀ field ∈ fields, field.1 ∈ fieldNames)
    (own : ∀ field ∈ fields, ClosesOwn field.2.toList) :
    KeepsOpen (fields.flatMap fieldText) := by
  have plain : ∀ name ∈ fieldNames, ∀ c ∈ name.toList, c ∉ Braces.counting := by
    simp [fieldNames, Braces.counting]
  refine .flatMap fun field member => ?_
  have shape : fieldText field = [' ', ' '] ++ field.1.toList ++ [' ', '=', ' '] ++
      '{' :: (field.2.toList ++ ['}']) ++ [',', '\n'] := by
    simp [fieldText]
  rw [shape]
  have before := keepsOpen_of_not_counting (plain field.1 (named field member))
  have blanks : KeepsOpen [' ', ' '] := keepsOpen_of_not_counting (by simp [Braces.counting])
  have equals : KeepsOpen [' ', '=', ' '] := keepsOpen_of_not_counting (by simp [Braces.counting])
  have ends : KeepsOpen [',', '\n'] := keepsOpen_of_not_counting (by simp [Braces.counting])
  exact (((blanks.append before).append equals).append
    (own field member).keepsOpen_braced).append ends

/-- The brace that closes an entry is its own. -/
theorem Contained.keepsOpen_print {entry : Entry} (contained : Contained entry) :
    KeepsOpen entry.print.toList := by
  have shape : entry.print.toList = "@article".toList ++
      ('{' :: (entry.key.toList ++ [',', '\n']) ++
        (entry.fields.flatMap fieldText ++ ['}', '\n', '\n'])) := by
    simp [toList_print]
  have kind : KeepsOpen "@article".toList := keepsOpen_of_not_counting (by simp [Braces.counting])
  rw [shape]
  refine kind.append fun opened => ?_
  obtain ⟨more, key⟩ := contained.key.opens_key opened
  obtain ⟨others, fields⟩ :=
    keepsOpen_fields (fun _ => name_mem_fieldNames) contained.values (opened + 1 + more)
  have count : opened + 1 + more + others = opened + (more + others) + 1 := by omega
  refine ⟨more + others, ?_⟩
  rw [Braces.scan?_append, key, Option.bind_some, Braces.scan?_append, fields, Option.bind_some,
    count]
  simp [Braces.scan?_cons, step?]

/-! ### Values that take in what follows -/

/-- The rest of a value from some place in it. -/
def takeBracedAt (braces : Braces) (text : List Char) :
    List Char → Except Fault (List Char × List Char)
  | [] => faultHere .endOfText []
  | c :: rest =>
    if braces.escaped then takeBraced braces.opened (c :: text) rest
    else takeBraced braces.opened text (c :: rest)

theorem takeBraced_eq_takeBracedAt (text cs : List Char) :
    takeBraced 0 text cs = takeBracedAt .start text cs := by
  cases cs <;> rfl

theorem takeBracedAt_step {braces next : Braces} {c : Char}
    (passes : step? braces c = some next) (text rest : List Char) :
    takeBracedAt braces text (c :: rest) = takeBracedAt next (c :: text) rest := by
  obtain ⟨opened, escaped⟩ := braces
  unfold step? at passes
  simp only at passes
  split_ifs at passes with behind slash opens closes
  · cases passes
    cases rest <;> simp [takeBracedAt, behind, takeBraced, faultHere]
  · cases passes
    subst slash
    cases rest <;> simp [takeBracedAt, behind, takeBraced, faultHere]
  · cases passes
    subst opens
    cases rest <;> simp [takeBracedAt, behind, takeBraced, faultHere]
  · subst closes
    cases opened with
    | zero => cases passes
    | succ opened =>
      cases passes
      cases rest <;> simp [takeBracedAt, behind, takeBraced, faultHere]
  · cases passes
    have plain : takeBraced opened text (c :: rest) = takeBraced opened (c :: text) rest := by
      rw [takeBraced]
      · exact fun _ _ same _ => slash same
      · exact opens
      · exact closes
    cases rest <;> simp [takeBracedAt, behind, plain, takeBraced, faultHere]

theorem takeBracedAt_scan {braces next : Braces} {front : List Char}
    (passes : scan? braces front = some next) (text rest : List Char) :
    takeBracedAt braces text (front ++ rest) = takeBracedAt next (front.reverse ++ text) rest := by
  induction front generalizing braces text with
  | nil => cases passes; rfl
  | cons c front ih =>
    rw [Braces.scan?_cons, Option.bind_eq_some_iff] at passes
    obtain ⟨between, first, later⟩ := passes
    rw [List.cons_append, takeBracedAt_step first, ih later]
    simp

/-- A value whose braces match is read up to its end. -/
theorem takeBraced_of_scan {value : List Char} (matching : scan? .start value = some .start)
    (rest : List Char) : takeBraced 0 [] (value ++ '}' :: rest) = .ok (value, rest) := by
  rw [takeBraced_eq_takeBracedAt, takeBracedAt_scan matching]
  simp [takeBracedAt, Braces.start, takeBraced]

/-- Behind any other value the reader is at the end of its entry, or it reads to the end of the
text. -/
theorem eq_of_takeBraced_unclosed {value fields rest text behind : List Char}
    (own : ClosesOwn value) (unclosed : scan? .start value ≠ some .start)
    (inside : KeepsOpen fields) (later : KeepsOpen rest)
    (taken : takeBraced 0 [] (value ++ '}' :: ',' :: '\n' :: (fields ++ '}' :: rest)) =
      .ok (text, behind)) :
    behind = rest := by
  obtain ⟨braces, passes⟩ := Option.isSome_iff_exists.mp own
  have inner : braces ≠ .start := fun same => unclosed (same ▸ passes)
  -- the brace of the field closes one that the value left open, or is escaped
  obtain ⟨opened, closed⟩ : ∃ opened, step? braces '}' = some ⟨opened, false⟩ := by
    obtain ⟨opened, escaped⟩ := braces
    cases escaped with
    | true => exact ⟨opened, by simp [step?]⟩
    | false =>
      cases opened with
      | zero => exact absurd rfl inner
      | succ opened => exact ⟨opened, by simp [step?]⟩
  have separator : KeepsOpen [',', '\n'] := keepsOpen_of_not_counting (by simp [Braces.counting])
  obtain ⟨more, fieldsPass⟩ := separator.append inside opened
  have reached : scan? .start (value ++ '}' :: ',' :: '\n' :: fields) =
      some ⟨opened + more, false⟩ := by
    rw [Braces.scan?_append, passes, Option.bind_some, Braces.scan?_cons, closed]
    exact fieldsPass
  have parts : value ++ '}' :: ',' :: '\n' :: (fields ++ '}' :: rest) =
      (value ++ '}' :: ',' :: '\n' :: fields) ++ '}' :: rest := by
    simp
  rw [takeBraced_eq_takeBracedAt, parts, takeBracedAt_scan reached] at taken
  cases count : opened + more with
  | zero =>
    rw [count] at taken
    simp only [takeBracedAt, takeBraced] at taken
    cases taken
    rfl
  | succ left =>
    -- from here on every brace that is closed was opened later
    obtain ⟨others, restPasses⟩ := later left
    have closes : step? ⟨left + 1, false⟩ '}' = some ⟨left, false⟩ := by simp [step?]
    have ends := takeBracedAt_scan restPasses
    rw [count, takeBracedAt_step closes, ← List.append_nil rest, ends] at taken
    cases taken

end Galley.Bibliography
