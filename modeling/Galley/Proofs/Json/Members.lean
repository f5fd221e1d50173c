import Galley.Json.Reader
import Galley.Proofs.Basic
import Mathlib.Tactic.SplitIfs
/-!
# Reading a record member by member

Reading the members of an object goes from one to the next, and what was read so far together with
the rest of the text decides how it goes on. So two texts in which the reading passes the same
place spell the same, faults included. A record that is spelled as a list is read item by item in
the same way.

## Main results

`Record.decode_eq_of_passes` and `Record.decode_eq_of_takeFields`.
-/
namespace Galley.Json

variable {σ α β : Type}

/-- A result without the proof that comes with it. -/
def bare {p : β → Prop} (result : Except Fault { r : β // p r }) : Except Fault β :=
  result.map Subtype.val

theorem eq_ok_of_bare {p : β → Prop} {result : Except Fault { r : β // p r }} {r : β}
    (found : bare result = .ok r) : ∃ proof : p r, result = .ok ⟨r, proof⟩ := by
  cases result with
  | error => cases found
  | ok taken =>
    cases found
    exact ⟨taken.2, rfl⟩

/-- Another proof that comes with a result does not change it. -/
theorem bare_bind_ok {p q : β → Prop} (result : Except Fault { r : β // p r })
    (weaker : ∀ found : { r : β // p r }, q found.1) :
    bare (result.bind fun found => (.ok ⟨found.1, weaker found⟩ : Except Fault { r : β // q r })) =
      bare result := by
  cases result <;> rfl

/-- A step of reading and what follows it, whatever the proofs between them. -/
theorem bare_bind {γ : Type} {p : β → Prop} {q : γ → Prop} {f : β → Except Fault γ}
    {next : { r : β // p r } → Except Fault { r : γ // q r }}
    (result : Except Fault { r : β // p r }) (same : ∀ found, bare (next found) = f found.1) :
    bare (result >>= next) = (bare result).bind f := by
  cases result with
  | error => rfl
  | ok found => exact same found

theorem bare_bind_map {γ : Type} {p : β → Prop} {q : γ → Prop} (f : β → γ)
    (result : Except Fault { r : β // p r }) (weaker : ∀ found : { r : β // p r }, q (f found.1)) :
    bare (result >>= fun found => (.ok ⟨f found.1, weaker found⟩ : Except Fault { r : γ // q r })) =
      (bare result).map f := by
  cases result <;> rfl

theorem bare_ite {p : β → Prop} {q : Prop} [Decidable q] {one other : Except Fault { r : β // p r }}
    {one' other' : Except Fault β} (same : bare one = one') (same' : bare other = other') :
    bare (if q then one else other) = if q then one' else other' := by
  rw [apply_ite bare, same, same']

theorem decode_eq (read : Reader α) (text : String) :
    decode read text = (bare (read depthLimit text.toList)).bind fun taken =>
      (expectEnd taken.2).map fun _ => taken.1 := by
  unfold decode
  cases read depthLimit text.toList with
  | error => rfl
  | ok taken =>
    obtain ⟨⟨value, rest⟩, shorter⟩ := taken
    change (expectEnd rest >>= fun _ => Except.ok value) = (expectEnd rest).map fun _ => value
    cases expectEnd rest <;> rfl

theorem decode_ok_iff {read : Reader α} {text : String} {a : α} :
    decode read text = .ok a ↔
      ∃ rest, bare (read depthLimit text.toList) = .ok (a, rest) ∧ expectEnd rest = .ok () := by
  rw [decode_eq]
  constructor
  · intro read
    obtain ⟨⟨value, rest⟩, reads, ended⟩ := bind_eq_ok_iff.mp read
    obtain ⟨⟨⟩, done, rfl⟩ := map_eq_ok_iff.mp ended
    exact ⟨rest, reads, done⟩
  · rintro ⟨rest, reads, ended⟩
    exact bind_eq_ok_iff.mpr ⟨_, reads, by rw [ended]; rfl⟩

theorem bare_map (f : α → β) (read : Reader α) (depth : Nat) (cs : List Char) :
    bare (Reader.map f read depth cs) =
      (bare (read depth cs)).map fun taken => (f taken.1, taken.2) := by
  unfold Reader.map
  cases read depth cs <;> rfl

theorem bare_value (depth : Nat) (cs : List Char) :
    bare (value depth cs) = bare (takeValue depth cs) := by
  unfold value
  cases takeValue depth cs <;> rfl

/-- Only the null value begins with its letter. -/
theorem eq_null_of_takeValue {depth : Nat} {cs rest after : List Char} {v : Value}
    (found : bare (takeValue depth cs) = .ok (v, after)) (letter : skipSpaces cs = 'n' :: rest) :
    v = .null := by
  -- behind the letter the reading expects the rest of the word
  rw [takeValue] at found
  split at found
  next missing => rw [letter] at missing; cases missing
  next c rest' same =>
    rw [letter] at same
    cases same
    rw [if_pos rfl] at found
    unfold takeWordValue at found
    cases word : takeWord ['u', 'l', 'l'] rest with
    | error => rw [word] at found; cases found
    | ok taken => rw [word] at found; cases found; rfl

theorem bare_optional {read : Reader α} {depth : Nat} {cs : List Char} :
    bare (optional read depth cs) =
      match skipSpaces cs with
      | [] => .error ⟨.endInValue, 0⟩
      | c :: inner =>
        if c = 'n' then (bare (takeWord ['u', 'l', 'l'] inner)).map fun taken => (none, taken.2)
        else (bare (read depth cs)).map fun taken => (some taken.1, taken.2) := by
  rw [optional]
  split
  next starts =>
    simp only [starts]
    rfl
  next c inner starts =>
    simp only [starts]
    split_ifs
    · cases takeWord ['u', 'l', 'l'] inner <;> rfl
    · cases read depth cs <;> rfl

theorem bare_optional_of_value {f : Value → β} {depth : Nat} {cs rest : List Char} {v : Value}
    (found : bare (value depth cs) = .ok (v, rest)) (present : v ≠ .null) :
    bare (optional (Reader.map f value) depth cs) = .ok (some (f v), rest) := by
  rw [bare_optional]
  split
  next missing =>
    rw [bare_value, takeValue] at found
    split at found
    · cases found
    next c inner same => rw [missing] at same; cases same
  next c inner starts =>
    -- an `n` would have spelled null
    have other : c ≠ 'n' := by
      rintro rfl
      rw [bare_value] at found
      exact present (eq_null_of_takeValue found starts)
    rw [if_neg other, bare_map, found]
    rfl

/-! ### Members -/

/-- The text behind the quote that opens the name of the next member. -/
def nextName? (first : Bool) (cs : List Char) : Option (List Char) :=
  match first, skipSpaces cs with
  | true, '"' :: inner => some inner
  | false, ',' :: rest =>
    match skipSpaces rest with
    | '"' :: inner => some inner
    | _ => none
  | _, _ => none

theorem nextName?_eq_some {first : Bool} {cs inner : List Char}
    (next : nextName? first cs = some inner) :
    first = true ∧ skipSpaces cs = '"' :: inner ∨
      first = false ∧ ∃ rest, skipSpaces cs = ',' :: rest ∧ skipSpaces rest = '"' :: inner := by
  unfold nextName? at next
  split at next
  next found =>
    cases next
    exact Or.inl ⟨rfl, found⟩
  next rest found =>
    split at next
    next found' =>
      cases next
      exact Or.inr ⟨rfl, rest, found, found'⟩
    · cases next
  · cases next

/-- What comes next between brackets: their end with the text behind it, or the text of the next
item or member. -/
inductive Ahead where
  | closing (after : List Char)
  | next (inner : List Char)

/-- What comes next in an object; the text of a member begins behind the quote of its name. -/
def ahead (first : Bool) (cs : List Char) : Except Fault Ahead :=
  match skipSpaces cs with
  | [] => .error ⟨.endInObject, 0⟩
  | c :: rest =>
    if c = '\x7d' then .ok (.closing rest)
    else if first then
      if c = '"' then .ok (.next rest) else faultPast .keyNotString (c :: rest)
    else if c = ',' then
      match skipSpaces rest with
      | [] => .error ⟨.endInValue, 0⟩
      | d :: more =>
        if d = '"' then .ok (.next more)
        else if d = '\x7d' then faultPast .trailingComma (d :: more)
        else faultPast .keyNotString (d :: more)
    else faultPast .noObjectEnd (c :: rest)

theorem ahead_of_next {first : Bool} {cs inner : List Char}
    (next : nextName? first cs = some inner) : ahead first cs = .ok (.next inner) := by
  unfold ahead
  -- the first member comes at once, any other one behind a comma
  rcases nextName?_eq_some next with ⟨rfl, found⟩ | ⟨rfl, rest, found, found'⟩
  · rw [found]
    rfl
  · simp only [found, found']
    rfl

/-- The text of a value behind the colon that follows its name. -/
def behindColon (cs : List Char) : Except Fault (List Char) :=
  match skipSpaces cs with
  | [] => .error ⟨.endInObject, 0⟩
  | c :: rest => if c = ':' then .ok rest else faultPast .noColon (c :: rest)

variable {accept : σ → String → Except Cause (Reader σ)} {depth : Nat}

theorem bare_foldMembers (state : σ) (first : Bool) (cs : List Char) :
    bare (foldMembers accept depth state first cs) = (ahead first cs).bind fun
      | .closing after => .ok (state, after)
      | .next inner => (bare (foldMembers.member accept depth state inner)).bind fun taken =>
        bare (foldMembers accept depth taken.1 false taken.2) := by
  rw [foldMembers]
  -- both sides branch on the next character, and on the one behind a comma
  split
  next starts =>
    simp only [ahead, starts]
    rfl
  next c after starts =>
    simp only [ahead, starts]
    split_ifs
    · rfl
    · exact bare_bind _ fun found => bare_bind_ok _ _
    · rfl
    · split
      next starts' =>
        simp only [starts']
        rfl
      next d more starts' =>
        simp only [starts']
        split_ifs
        · exact bare_bind _ fun found => bare_bind_ok _ _
        · rfl
        · rfl
    · rfl

theorem bare_faultInObject {p : β → Prop} (cause : Cause) (rest : List Char) :
    bare (faultInObject cause rest : Except Fault { r : β // p r }) = faultInObject cause rest := by
  unfold faultInObject
  split <;> rfl

theorem bare_foldMembers_member (state : σ) (cs : List Char) :
    bare (foldMembers.member accept depth state cs) = (bare (takeText cs)).bind fun named =>
      match accept state named.1 with
      | .error cause => faultInObject cause named.2
      | .ok read => (behindColon named.2).bind fun inner => bare (read depth inner) := by
  rw [foldMembers.member]
  refine bare_bind _ fun named => ?_
  dsimp only
  cases accept state named.1.1 with
  | error cause => exact bare_faultInObject cause _
  | ok read =>
    dsimp only
    split
    next starts =>
      simp only [behindColon, starts]
      rfl
    next c rest starts =>
      simp only [behindColon, starts]
      split_ifs
      · exact bare_bind_ok _ _
      · rfl

/-- Reading goes on behind a member with what was read of it. -/
theorem foldMembers_of_member {state read : σ} {first : Bool} {cs inner after : List Char}
    (next : nextName? first cs = some inner)
    (reads : bare (foldMembers.member accept depth state inner) = .ok (read, after)) :
    bare (foldMembers accept depth state first cs) =
      bare (foldMembers accept depth read false after) := by
  rw [bare_foldMembers, ahead_of_next next]
  simp only [Except.bind, reads]

theorem bare_member {state : σ} {cs after rest : List Char} {name : String} {read : Reader σ}
    (spelled : bare (takeText cs) = .ok (name, after)) (accepted : accept state name = .ok read)
    (colon : skipSpaces after = ':' :: rest) :
    bare (foldMembers.member accept depth state cs) = bare (read depth rest) := by
  have inner : behindColon after = .ok rest := by simp [behindColon, colon]
  rw [bare_foldMembers_member, spelled]
  simp only [Except.bind, accepted, inner]

/-- Reading the members of an object passes from one place to a later one. A place is what was read
so far, whether nothing was, and the rest of the text. -/
inductive Passes (accept : σ → String → Except Cause (Reader σ)) (depth : Nat) :
    σ → Bool → List Char → σ → Bool → List Char → Prop
  | here (state : σ) (first : Bool) (cs : List Char) :
    Passes accept depth state first cs state first cs
  | member {state read last : σ} {first later : Bool} {cs inner after rest : List Char}
      (next : nextName? first cs = some inner)
      (reads : bare (foldMembers.member accept depth state inner) = .ok (read, after))
      (more : Passes accept depth read false after last later rest) :
    Passes accept depth state first cs last later rest

theorem Passes.snoc {state last read : σ} {first later : Bool} {cs rest inner after : List Char}
    (passes : Passes accept depth state first cs last later rest)
    (next : nextName? later rest = some inner)
    (reads : bare (foldMembers.member accept depth last inner) = .ok (read, after)) :
    Passes accept depth state first cs read false after := by
  induction passes with
  | here => exact .member next reads (.here read false after)
  | member before readsBefore _ ih => exact .member before readsBefore (ih next reads)

/-- Reading from a place is reading from any place that it passes. -/
theorem foldMembers_of_passes {state last : σ} {first later : Bool} {cs rest : List Char}
    (passes : Passes accept depth state first cs last later rest) :
    bare (foldMembers accept depth state first cs) =
      bare (foldMembers accept depth last later rest) := by
  induction passes with
  | here => rfl
  | member next reads _ ih => rw [foldMembers_of_member next reads, ih]

/-! ### Items -/

/-- A text that begins with an item and not with the end of the list. -/
def item? (cs : List Char) : Option (List Char) :=
  match skipSpaces cs with
  | [] | ']' :: _ => none
  | _ => some cs

/-- The text of the next item of a list, with `index` items before it. -/
def nextItem? (index : Nat) (cs : List Char) : Option (List Char) :=
  match index, skipSpaces cs with
  | 0, _ => item? cs
  | _ + 1, ',' :: rest => item? rest
  | _, _ => none

theorem item?_eq_some {cs inner : List Char} (found : item? cs = some inner) :
    inner = cs ∧ ∃ c rest, skipSpaces cs = c :: rest ∧ c ≠ ']' := by
  unfold item? at found
  split at found
  · cases found
  · cases found
  next nonempty open' =>
    cases found
    cases same : skipSpaces cs with
    | nil => exact absurd same nonempty
    | cons c rest => exact ⟨rfl, c, rest, rfl, by rintro rfl; exact open' _ same⟩

theorem nextItem?_eq_some {index : Nat} {cs inner : List Char}
    (next : nextItem? index cs = some inner) :
    (∃ c rest, skipSpaces inner = c :: rest ∧ c ≠ ']') ∧
      (index = 0 ∧ inner = cs ∨ index ≠ 0 ∧ skipSpaces cs = ',' :: inner) := by
  unfold nextItem? at next
  split at next
  · obtain ⟨rfl, starts⟩ := item?_eq_some next
    exact ⟨starts, Or.inl ⟨rfl, rfl⟩⟩
  next comma =>
    obtain ⟨rfl, starts⟩ := item?_eq_some next
    exact ⟨starts, Or.inr ⟨Nat.succ_ne_zero _, comma⟩⟩
  · cases next

/-! ### Records -/

namespace Record

variable (record : Record σ α)

/-- What becomes of the members of a record once they are read. -/
def conclude (taken : σ × List Char) : Except Fault (α × List Char) :=
  match record.missing? taken.1, record.finish taken.1 with
  | none, some value => .ok (value, taken.2)
  | missing, _ => faultAt (.missingField (missing.getD "")) taken.2

theorem bare_reader {cs rest : List Char} (opens : skipSpaces cs = '{' :: rest) :
    bare (record.reader (depth + 1) cs) =
      (bare (foldMembers record.accept depth record.empty true rest)).bind record.conclude := by
  rw [reader]
  split
  next missing => rw [opens] at missing; cases missing
  next c rest' same =>
    rw [opens] at same
    cases same
    rw [if_neg (by decide), if_pos rfl]
    simp only
    cases foldMembers record.accept depth record.empty true rest with
    | error => rfl
    | ok taken =>
      obtain ⟨⟨draft, after⟩, shorter⟩ := taken
      change bare (match record.missing? draft, record.finish draft with
        | none, some value => _
        | missing, _ => _) = record.conclude (draft, after)
      unfold conclude
      cases record.missing? draft <;> cases record.finish draft <;> rfl

/-- The rest of a record that is spelled as a list, once its fields are read. -/
def concludeList (taken : σ × List Char) : Except Fault (α × List Char) :=
  (bare (closeList taken.2)).bind fun closed =>
    match record.finish taken.1 with
    | some value => .ok (value, closed.2)
    | none => faultAt (.wrongLength 0 record.described) closed.2

theorem bare_reader_list {cs rest : List Char} (opens : skipSpaces cs = '[' :: rest) :
    bare (record.reader (depth + 1) cs) =
      (bare (record.takeFields depth 0 record.empty rest record.fields)).bind
        record.concludeList := by
  rw [reader]
  split
  next missing => rw [opens] at missing; cases missing
  next c rest' same =>
    rw [opens] at same
    cases same
    rw [if_pos rfl]
    simp only
    cases record.takeFields depth 0 record.empty rest record.fields with
    | error => rfl
    | ok taken =>
      obtain ⟨⟨draft, after⟩, shorter⟩ := taken
      change bare (closeList after >>= fun _ => match record.finish draft with
        | some value => _
        | none => _) = record.concludeList (draft, after)
      unfold concludeList
      cases closeList after with
      | error => rfl
      | ok closed => cases record.finish draft <;> rfl

/-- Reading the fields of a list goes on behind an item with what was read of it. -/
theorem takeFields_of_item {field : Field σ} {fields : List (Field σ)} {index : Nat}
    {draft read : σ} {cs inner after : List Char} (next : nextItem? index cs = some inner)
    (reads : bare (field.read draft depth inner) = .ok (read, after)) :
    bare (record.takeFields depth index draft cs (field :: fields)) =
      bare (record.takeFields depth (index + 1) read after fields) := by
  obtain ⟨shorter, reads⟩ := eq_ok_of_bare reads
  rw [takeFields]
  -- as with members, only the items behind the first one follow a comma
  obtain ⟨⟨c, rest, starts, unclosed⟩, ⟨rfl, rfl⟩ | ⟨later, comma⟩⟩ := nextItem?_eq_some next
  · split
    next missing => rw [starts] at missing; cases missing
    next d more same =>
      rw [starts] at same
      cases same
      rw [if_neg unclosed, if_pos rfl, reads]
      exact bare_bind_ok _ _
  · split
    next missing => rw [comma] at missing; cases missing
    next d more same =>
      rw [comma] at same
      cases same
      rw [if_neg (by decide), if_neg later, if_pos rfl]
      split
      next missing => rw [starts] at missing; cases missing
      next e behind same =>
        rw [starts] at same
        cases same
        rw [if_neg unclosed, reads]
        exact bare_bind_ok _ _

/-- Two texts of a record in which the reading passes the same place spell the same record, or are
at fault alike. -/
theorem decode_eq_of_passes {one other : String} {members members' rest : List Char} {last : σ}
    {later : Bool} (opens : skipSpaces one.toList = '{' :: members)
    (opens' : skipSpaces other.toList = '{' :: members')
    (passes : Passes record.accept (depthLimit - 1) record.empty true members last later rest)
    (passes' : Passes record.accept (depthLimit - 1) record.empty true members' last later rest) :
    decode record.reader one = decode record.reader other := by
  have inside : depthLimit = depthLimit - 1 + 1 := rfl
  rw [decode_eq, decode_eq, inside, bare_reader record opens, bare_reader record opens',
    foldMembers_of_passes passes, foldMembers_of_passes passes']

/-- The same of texts that spell the record as a list. -/
theorem decode_eq_of_takeFields {one other : String} {items items' : List Char}
    (opens : skipSpaces one.toList = '[' :: items)
    (opens' : skipSpaces other.toList = '[' :: items')
    (same : bare (record.takeFields (depthLimit - 1) 0 record.empty items record.fields) =
      bare (record.takeFields (depthLimit - 1) 0 record.empty items' record.fields)) :
    decode record.reader one = decode record.reader other := by
  have inside : depthLimit = depthLimit - 1 + 1 := rfl
  rw [decode_eq, decode_eq, inside, bare_reader_list record opens, bare_reader_list record opens',
    same]

end Record
end Galley.Json
