import Galley.Proofs.Json.Values
/-!
# Readers and values

A reader of a given type never looks at a value as a whole. Where it takes something off a text, it
takes off just what a value is spelled by, and what it reads is a matter of this value alone.

## Main results

`agrees_string`, `agrees_optional`, `agrees_members` and `decode_ok_iff_parse`.
-/
namespace Galley.Json

open Galley.Text (size)

variable {σ α β : Type}

/-- The reader takes a value where there is one that means something, and reads its meaning. -/
def Agrees (read : Reader α) (meaning : Value → Option α) : Prop :=
  ∀ depth cs a rest, bare (read depth cs) = .ok (a, rest) ↔
    ∃ v, bare (takeValue depth cs) = .ok (v, rest) ∧ meaning v = some a

variable {read : Reader α} {meaning : Value → Option α} {depth : Nat} {cs rest : List Char}

theorem decode_ok_iff_parse (agrees : Agrees read meaning) {text : String} {a : α} :
    decode read text = .ok a ↔ ∃ v, parse text = .ok v ∧ meaning v = some a := by
  simp only [decode_ok_iff, parse_ok_iff, agrees depthLimit]
  constructor
  · rintro ⟨rest, ⟨v, taken, means⟩, ended⟩
    exact ⟨v, ⟨rest, taken, ended⟩, means⟩
  · rintro ⟨v, ⟨rest, taken, ended⟩, means⟩
    exact ⟨rest, ⟨v, taken, means⟩, ended⟩

theorem Agrees.map (agrees : Agrees read meaning) (f : α → β) :
    Agrees (Reader.map f read) fun v => (meaning v).map f := by
  intro depth cs b rest
  rw [bare_map, map_eq_ok_iff]
  constructor
  · rintro ⟨⟨a, after⟩, reads, same⟩
    cases same
    obtain ⟨v, taken, means⟩ := (agrees ..).mp reads
    exact ⟨v, taken, Option.map_eq_some_iff.mpr ⟨a, means, rfl⟩⟩
  · rintro ⟨v, taken, means⟩
    obtain ⟨a, meant, rfl⟩ := Option.map_eq_some_iff.mp means
    exact ⟨(a, rest), (agrees ..).mpr ⟨v, taken, meant⟩, rfl⟩

/-! ### Scalars -/

theorem refuse_ne_ok (wanted : String) (cs : List Char) (a : α) : refuse wanted cs ≠ .ok a := by
  -- whatever is read to name the value, a fault follows
  have failing {β : Type} {result : Except Fault β} {fault : β → Fault}
      (taken : (result >>= fun found => (.error (fault found) : Except Fault α)) = .ok a) :
      False := by
    cases result <;> cases taken
  intro taken
  unfold refuse at taken
  split at taken
  · cases taken
  · split_ifs at taken
    all_goals first
      | exact failing taken
      | cases taken

theorem takeValue_null_iff : bare (takeValue depth cs) = .ok (.null, rest) ↔
    ∃ inner, skipSpaces cs = 'n' :: inner ∧
      bare (takeWord ['u', 'l', 'l'] inner) = .ok ((), rest) := by
  constructor
  · intro taken
    obtain ⟨c, inner, starts, begins⟩ := begins_of_takeValue taken
    cases begins with
    | null word => exact ⟨inner, starts, word⟩
  · rintro ⟨inner, starts, word⟩
    rw [bare_takeValue_cons starts, if_pos rfl, word]
    rfl

theorem takeValue_string_iff {text : String} :
    bare (takeValue depth cs) = .ok (.string text, rest) ↔
      ∃ inner, skipSpaces cs = '"' :: inner ∧ bare (takeText inner) = .ok (text, rest) := by
  constructor
  · intro taken
    obtain ⟨c, inner, starts, begins⟩ := begins_of_takeValue taken
    cases begins with
    | string spelled => exact ⟨inner, starts, spelled⟩
  · rintro ⟨inner, starts, spelled⟩
    rw [bare_takeValue_cons starts, spelled]
    rfl

theorem takeValue_object_iff {members : List (String × Value)} :
    bare (takeValue (depth + 1) cs) = .ok (.object members, rest) ↔
      ∃ inner, skipSpaces cs = '\x7b' :: inner ∧
        bare (takeMembers depth true inner) = .ok (members, rest) := by
  constructor
  · intro taken
    obtain ⟨c, inner, starts, begins⟩ := begins_of_takeValue taken
    cases begins with
    | object listed => exact ⟨inner, starts, listed⟩
  · rintro ⟨inner, starts, listed⟩
    rw [bare_takeValue_cons starts]
    simp only [listed]
    rfl

theorem bare_refuse_ne_ok {p : β → Prop} (wanted : String) (b : β) :
    bare (refuse wanted cs : Except Fault { r : β // p r }) ≠ .ok b := by
  intro taken
  obtain ⟨proof, taken⟩ := eq_ok_of_bare taken
  exact refuse_ne_ok wanted cs _ taken

theorem bare_string : bare (string depth cs) =
    match skipSpaces cs with
    | [] => .error ⟨.endInValue, 0⟩
    | c :: inner =>
      if c = '"' then bare (takeText inner)
      else bare (refuse "a string" (c :: inner) : Except Fault (Taken String cs)) := by
  rw [string, stringAs]
  split
  next starts =>
    simp only [starts]
    rfl
  next c inner starts =>
    simp only [starts]
    split_ifs
    · exact bare_bind_ok _ _
    · rfl

theorem string_ok_iff {text : String} : bare (string depth cs) = .ok (text, rest) ↔
    ∃ inner, skipSpaces cs = '"' :: inner ∧ bare (takeText inner) = .ok (text, rest) := by
  rw [bare_string]
  split
  next starts => simp [starts]
  next c inner starts =>
    split_ifs with quote
    · simp [starts, quote]
    · simp [starts, quote, bare_refuse_ne_ok]

theorem agrees_string : Agrees string Value.string? := by
  intro depth cs text rest
  -- both expect a quote and read on behind it
  rw [string_ok_iff, ← @takeValue_string_iff depth]
  constructor
  · intro taken
    exact ⟨_, taken, rfl⟩
  · rintro ⟨v, taken, means⟩
    cases v with
    | string spelled => cases means; exact taken
    | null | bool | number | array | object => cases means

/-! ### Null -/

/-- Null means nothing, and another value what it means by itself. -/
def orNull (meaning : Value → Option α) : Value → Option (Option α)
  | .null => some none
  | v => (meaning v).map some

theorem takeValue_ne_ok_of_nil (starts : skipSpaces cs = []) {v : Value} :
    bare (takeValue depth cs) ≠ .ok (v, rest) := by
  intro taken
  obtain ⟨c, inner, same, -⟩ := begins_of_takeValue taken
  rw [starts] at same
  cases same

theorem agrees_optional (agrees : Agrees read meaning) :
    Agrees (optional read) (orNull meaning) := by
  intro depth cs found rest
  rw [bare_optional]
  split
  next starts => simp [takeValue_ne_ok_of_nil starts]
  next c inner starts =>
    split_ifs with letter
    · -- only null begins with its letter
      subst letter
      constructor
      · intro taken
        obtain ⟨⟨⟨⟩, after⟩, word, same⟩ := map_eq_ok_iff.mp taken
        cases same
        exact ⟨.null, takeValue_null_iff.mpr ⟨inner, starts, word⟩, rfl⟩
      · rintro ⟨v, taken, means⟩
        have null := eq_null_of_takeValue taken starts
        subst null
        obtain ⟨inner', same, word⟩ := takeValue_null_iff.mp taken
        rw [starts] at same
        cases same
        cases means
        rw [word]
        rfl
    · -- what begins with another letter is not null, so the value is read as it is
      have present {v : Value} {after : List Char}
          (taken : bare (takeValue depth cs) = .ok (v, after)) :
          orNull meaning v = (meaning v).map some := by
        cases v with
        | bool | number | string | array | object => rfl
        | null =>
          obtain ⟨inner', same, -⟩ := takeValue_null_iff.mp taken
          rw [starts] at same
          cases same
          exact absurd rfl letter
      constructor
      · intro taken
        obtain ⟨⟨a, after⟩, reads, same⟩ := map_eq_ok_iff.mp taken
        cases same
        obtain ⟨v, taken, means⟩ := (agrees ..).mp reads
        exact ⟨v, taken, by rw [present taken, means]; rfl⟩
      · rintro ⟨v, taken, means⟩
        rw [present taken] at means
        obtain ⟨a, meant, rfl⟩ := Option.map_eq_some_iff.mp means
        exact map_eq_ok_iff.mpr ⟨(a, rest), (agrees ..).mpr ⟨v, taken, meant⟩, rfl⟩

/-! ### Members -/

section

variable {accept : σ → String → Except Cause (Reader σ)} {step : σ → String → Value → Option σ}

/-- Each member is read as its value means, after what was read before it. -/
def StepsAgree (accept : σ → String → Except Cause (Reader σ))
    (step : σ → String → Value → Option σ) : Prop :=
  ∀ state name, ∃ read, accept state name = .ok read ∧ Agrees read (step state name)

theorem member_ok_iff (agree : StepsAgree accept step) {state next : σ} :
    bare (foldMembers.member accept depth state cs) = .ok (next, rest) ↔
      ∃ member, bare (takeMember depth cs) = .ok (member, rest) ∧
        step state member.1 member.2 = some next := by
  rw [bare_foldMembers_member]
  constructor
  · intro taken
    obtain ⟨⟨name, after⟩, spelled, taken⟩ := bind_eq_ok_iff.mp taken
    obtain ⟨read, accepted, agrees⟩ := agree state name
    simp only [accepted] at taken
    obtain ⟨inner, colon, reads⟩ := bind_eq_ok_iff.mp taken
    obtain ⟨v, value, means⟩ := (agrees ..).mp reads
    exact ⟨(name, v), takeMember_ok_iff.mpr ⟨after, inner, spelled, colon, value⟩, means⟩
  · rintro ⟨⟨name, v⟩, taken, means⟩
    obtain ⟨after, inner, spelled, colon, value⟩ := takeMember_ok_iff.mp taken
    obtain ⟨read, accepted, agrees⟩ := agree state name
    have reads := (agrees ..).mpr ⟨v, value, means⟩
    simp only [spelled, accepted, colon, Except.bind, reads]

theorem foldMembers_ok_iff (agree : StepsAgree accept step) {cs : List Char} {state last : σ}
    {first : Bool} :
    bare (foldMembers accept depth state first cs) = .ok (last, rest) ↔
      ∃ members, bare (takeMembers depth first cs) = .ok (members, rest) ∧
        members.foldlM (fun state member => step state member.1 member.2) state = some last := by
  -- behind a member there is less text, on which the two agree
  have shorter {inner after : List Char} {member : String × Value}
      (found : ahead first cs = .ok (.next inner))
      (taken : bare (takeMember depth inner) = .ok (member, after)) : size after < size cs := by
    obtain ⟨bound, -⟩ := eq_ok_of_bare taken
    have := size_lt_of_ahead found
    dsimp only at bound
    omega
  rw [bare_foldMembers]
  constructor
  · intro taken
    obtain ⟨next, found, taken⟩ := bind_eq_ok_iff.mp taken
    cases next with
    | closing after =>
      cases taken
      exact ⟨[], takeMembers_ok_iff.mpr (.inl ⟨found, rfl⟩), rfl⟩
    | next inner =>
      obtain ⟨⟨read, after⟩, reads, more⟩ := bind_eq_ok_iff.mp taken
      obtain ⟨member, one, means⟩ := (member_ok_iff agree).mp reads
      have := shorter found one
      obtain ⟨members, others, meant⟩ := (foldMembers_ok_iff agree).mp more
      refine ⟨member :: members, takeMembers_ok_iff.mpr ?_, ?_⟩
      · exact .inr ⟨inner, member, after, members, found, one, others, rfl⟩
      · rw [List.foldlM_cons, means]
        exact meant
  · rintro ⟨members, taken, means⟩
    obtain ⟨found, rfl⟩ | ⟨inner, member, after, others, found, one, more, rfl⟩ :=
      takeMembers_ok_iff.mp taken
    · cases means
      rw [found]
      rfl
    · have := shorter found one
      rw [List.foldlM_cons] at means
      obtain ⟨read, meant, means⟩ := Option.bind_eq_some_iff.mp means
      have reads := (member_ok_iff agree).mpr ⟨member, one, meant⟩
      have behind := (foldMembers_ok_iff agree).mpr ⟨others, more, means⟩
      exact bind_eq_ok_iff.mpr ⟨_, found, bind_eq_ok_iff.mpr ⟨_, reads, behind⟩⟩
termination_by size cs

/-- What an object means, going through its members. -/
def ofMembers (step : σ → String → Value → Option σ) (empty : σ) : Value → Option σ
  | .object members => members.foldlM (fun state member => step state member.1 member.2) empty
  | _ => none

theorem bare_members {empty : σ} {wanted : String} : bare (members accept empty wanted depth cs) =
    match skipSpaces cs with
    | [] => .error ⟨.endInValue, 0⟩
    | c :: inner =>
      if c = '\x7b' then
        match depth with
        | 0 => faultPast .tooDeep (c :: inner)
        | depth + 1 => bare (foldMembers accept depth empty true inner)
      else bare (refuse wanted (c :: inner) : Except Fault (Taken σ cs)) := by
  rw [members]
  split
  next starts =>
    simp only [starts]
    rfl
  next c inner starts =>
    simp only [starts]
    split_ifs
    · cases depth with
      | zero => rfl
      | succ depth => exact bare_bind_ok _ _
    · rfl

theorem agrees_members (agree : StepsAgree accept step) (empty : σ) (wanted : String) :
    Agrees (members accept empty wanted) (ofMembers step empty) := by
  intro depth cs last rest
  rw [bare_members]
  split
  next starts => simp [takeValue_ne_ok_of_nil starts]
  next c inner starts =>
    constructor
    · intro taken
      split_ifs at taken with brace
      · subst brace
        cases depth with
        | zero => cases taken
        | succ depth =>
          obtain ⟨members, listed, means⟩ := (foldMembers_ok_iff agree).mp taken
          exact ⟨.object members, takeValue_object_iff.mpr ⟨inner, starts, listed⟩, means⟩
      · exact absurd taken (bare_refuse_ne_ok _ _)
    · rintro ⟨v, taken, means⟩
      obtain ⟨d, more, same, begins⟩ := begins_of_takeValue taken
      rw [starts] at same
      cases same
      -- nothing but an object means anything
      cases begins with
      | null | bool | number | string | array => cases means
      | object listed => exact (foldMembers_ok_iff agree).mpr ⟨_, listed, means⟩

end

end Galley.Json
