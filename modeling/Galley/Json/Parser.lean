import Galley.Json.Numeral
/-!
# Reading JSON values

A value is read off the front of a text. The result carries the proof that the value weighs no more
than the bytes that were taken, so every string in it is shorter than the text itself.

Arrays and objects nest at most 127 deep.
-/
namespace Galley.Json

open Galley.Text (size)
open Value (weight weightItems weightMembers)

/-- How deep arrays and objects may nest. -/
def depthLimit : Nat := 127

/-- A value and the rest of the text, which together are no larger than the text. -/
abbrev TakenValue (cs : List Char) := { r : Value × List Char // weight r.1 + size r.2 ≤ size cs }

private theorem bound_of_skip {cs rest : List Char} {c : Char} (h : skipSpaces cs = c :: rest) :
    c.utf8Size + size rest ≤ size cs := by
  have := size_skipSpaces_le cs
  rw [h] at this
  exact this

private theorem bound_of_mark {cs rest more : List Char} {c d : Char}
    (h : c.utf8Size + size rest ≤ size cs) (h' : d.utf8Size + size more ≤ size rest) :
    d.utf8Size + size more ≤ size cs := by
  omega

private theorem bound_of_end {cs rest : List Char} {c : Char}
    (h : c.utf8Size + size rest ≤ size cs) :
    0 + size rest ≤ size cs := by
  omega

private theorem bound_of_item {item : Value} {items : List Value} {cs rest after behind : List Char}
    {c : Char} (light : weight item + size after ≤ size (c :: rest))
    (lighter : weightItems items + size behind ≤ size after)
    (h : c.utf8Size + size rest ≤ size cs) :
    weightItems (item :: items) + size behind ≤ size cs := by
  simp only [weightItems, Text.size_cons] at *
  omega

private theorem bound_of_member {member : String × Value} {members : List (String × Value)}
    {cs rest after behind : List Char} {c : Char} (light : weight member.2 + size after ≤ size rest)
    (lighter : weightMembers members + size behind ≤ size after)
    (h : c.utf8Size + size rest ≤ size cs) :
    weightMembers (member :: members) + size behind ≤ size cs := by
  simp only [weightMembers] at *
  omega

/-- A word of letters that stands for a value. -/
def takeWordValue (value : Value) (light : weight value = 1) (word : List Char) (c : Char)
    (cs : List Char) : Except Fault (TakenValue (c :: cs)) := do
  let ⟨(_, rest), _⟩ ← takeWord word cs
  .ok ⟨(value, rest), by have := c.utf8Size_pos; simp only [Text.size_cons] at *; omega⟩

mutual

/-- The value at the front of a text. -/
def takeValue (depth : Nat) (cs : List Char) : Except Fault (TakenValue cs) :=
  match h : skipSpaces cs with
  | [] => .error ⟨.endInValue, 0⟩
  | c :: rest =>
    have bound := bound_of_skip h
    have positive := c.utf8Size_pos
    if c = 'n' then do
      let ⟨found, _⟩ ← takeWordValue .null rfl ['u', 'l', 'l'] c rest
      .ok ⟨found, by simp only [Text.size_cons] at *; omega⟩
    else if c = 't' then do
      let ⟨found, _⟩ ← takeWordValue (.bool true) rfl ['r', 'u', 'e'] c rest
      .ok ⟨found, by simp only [Text.size_cons] at *; omega⟩
    else if c = 'f' then do
      let ⟨found, _⟩ ← takeWordValue (.bool false) rfl ['a', 'l', 's', 'e'] c rest
      .ok ⟨found, by simp only [Text.size_cons] at *; omega⟩
    else if c = '-' then do
      let ⟨(number, after), _⟩ ← takeNumber true rest
      .ok ⟨(.number number, after), by simp only [weight] at *; omega⟩
    else if isDigit c then do
      let ⟨(number, after), _⟩ ← takeNumber false (c :: rest)
      .ok ⟨(.number number, after), by simp only [weight, Text.size_cons] at *; omega⟩
    else if c = '"' then do
      let ⟨(text, after), _⟩ ← takeText rest
      .ok ⟨(.string text, after), by simp only [weight] at *; omega⟩
    else if c = '[' then
      match depth with
      | 0 => faultPast .tooDeep (c :: rest)
      | depth + 1 => do
        let ⟨(items, after), _⟩ ← takeItems depth true rest
        .ok ⟨(.array items, after), by simp only [weight] at *; omega⟩
    else if c = '{' then
      match depth with
      | 0 => faultPast .tooDeep (c :: rest)
      | depth + 1 => do
        let ⟨(members, after), _⟩ ← takeMembers depth true rest
        .ok ⟨(.object members, after), by simp only [weight] at *; omega⟩
    else faultPast .noValue (c :: rest)
termination_by 2 * size cs

/-- The items of an array and its closing bracket; `first` before any item was read. -/
def takeItems (depth : Nat) (first : Bool) (cs : List Char) :
    Except Fault { r : List Value × List Char // weightItems r.1 + size r.2 ≤ size cs } :=
  match h : skipSpaces cs with
  | [] => .error ⟨.endInList, 0⟩
  | c :: rest =>
    have bound := bound_of_skip h
    have := c.utf8Size_pos
    if c = ']' then .ok ⟨([], rest), bound_of_end bound⟩
    else if first then do
      let ⟨(item, after), light⟩ ← takeValue depth (c :: rest)
      have := Value.weight_pos item
      let ⟨(items, behind), lighter⟩ ← takeItems depth false after
      .ok ⟨(item :: items, behind), bound_of_item light lighter bound⟩
    else if c = ',' then
      match h' : skipSpaces rest with
      | [] => .error ⟨.endInValue, 0⟩
      | d :: more =>
        have bound' := bound_of_skip h'
        if d = ']' then faultPast .trailingComma (d :: more)
        else do
          let ⟨(item, after), light⟩ ← takeValue depth (d :: more)
          have := Value.weight_pos item
          let ⟨(items, behind), lighter⟩ ← takeItems depth false after
          .ok ⟨(item :: items, behind), bound_of_item light lighter (bound_of_mark bound bound')⟩
    else faultPast .noListEnd (c :: rest)
termination_by 2 * size cs + 1
decreasing_by
  all_goals simp only [Text.size_cons] at *; omega

/-- The members of an object and its closing brace; `first` before any member was read. -/
def takeMembers (depth : Nat) (first : Bool) (cs : List Char) :
    Except Fault
      { r : List (String × Value) × List Char // weightMembers r.1 + size r.2 ≤ size cs } :=
  match h : skipSpaces cs with
  | [] => .error ⟨.endInObject, 0⟩
  | c :: rest =>
    have bound := bound_of_skip h
    have := c.utf8Size_pos
    if c = '}' then .ok ⟨([], rest), bound_of_end bound⟩
    else if first then
      if c = '"' then do
        let ⟨(member, after), light⟩ ← takeMember depth rest
        let ⟨(members, behind), lighter⟩ ← takeMembers depth false after
        .ok ⟨(member :: members, behind), bound_of_member light lighter bound⟩
      else faultPast .keyNotString (c :: rest)
    else if c = ',' then
      match h' : skipSpaces rest with
      | [] => .error ⟨.endInValue, 0⟩
      | d :: more =>
        have bound' := bound_of_skip h'
        if d = '"' then do
          let ⟨(member, after), light⟩ ← takeMember depth more
          let ⟨(members, behind), lighter⟩ ← takeMembers depth false after
          .ok
            ⟨(member :: members, behind),
              bound_of_member light lighter (bound_of_mark bound bound')⟩
        else if d = '}' then faultPast .trailingComma (d :: more)
        else faultPast .keyNotString (d :: more)
    else faultPast .noObjectEnd (c :: rest)
termination_by 2 * size cs + 1
decreasing_by
  all_goals (try simp only at *); omega

/-- A member after the quote that opens its name. -/
def takeMember (depth : Nat) (cs : List Char) :
    Except Fault { r : (String × Value) × List Char // weight r.1.2 + size r.2 ≤ size cs } := do
  let ⟨(name, after), shorter⟩ ← takeText cs
  match h : skipSpaces after with
  | [] => .error ⟨.endInObject, 0⟩
  | c :: rest =>
    have bound := bound_of_skip h
    if c = ':' then do
      let ⟨(value, behind), _⟩ ← takeValue depth rest
      .ok ⟨((name, value), behind), by simp only at *; omega⟩
    else faultPast .noColon (c :: rest)
termination_by 2 * size cs + 1
decreasing_by
  simp only at *; omega

end

/-- Nothing but blanks may follow a value. -/
def expectEnd (rest : List Char) : Except Fault Unit :=
  match skipSpaces rest with
  | [] => .ok ()
  | c :: more => faultPast .trailingCharacters (c :: more)

/-- The value that a text spells. -/
def parse (text : String) : Except Fault Value := do
  let ⟨(value, rest), _⟩ ← takeValue depthLimit text.toList
  expectEnd rest
  return value

/-- A value never weighs more than the text that spells it. -/
theorem weight_le_of_parse {text : String} {value : Value} (h : parse text = .ok value) :
    weight value ≤ size text.toList := by
  unfold parse at h
  cases taken : takeValue depthLimit text.toList with
  | error fault => simp [taken, bind, Except.bind] at h
  | ok found =>
    obtain ⟨⟨read, rest⟩, bound⟩ := found
    cases ended : expectEnd rest with
    | error fault => simp [taken, ended, bind, Except.bind] at h
    | ok _ =>
      simp only [taken, ended, bind, Except.bind, pure, Except.pure, Except.ok.injEq] at h
      subst h
      simp only at bound
      omega

end Galley.Json
