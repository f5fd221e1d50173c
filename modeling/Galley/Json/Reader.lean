import Galley.Json.Skim
import Galley.Number.Binary64
/-!
# Reading JSON as a given type

A reader takes one value of a known type off the front of a text. It looks at the text once, from
the front, so of several faults in a text the first one is reported, be it one of spelling or one
of type.
-/
namespace Galley.Json

open Galley.Text (size)

/-- Takes a value off the front of a text; `depth` more brackets may be opened. -/
abbrev Reader (α : Type) := (depth : Nat) → (cs : List Char) → Except Fault (Taken α cs)

private theorem size_lt_of_skip {cs rest : List Char} {c : Char} (h : skipSpaces cs = c :: rest) :
    size rest < size cs := by
  have := size_skipSpaces_le cs
  have := c.utf8Size_pos
  rw [h, Text.size_cons] at *
  omega

/-- The same reading with its value changed. -/
def Reader.map {α β : Type} (f : α → β) (read : Reader α) : Reader β := fun depth cs => do
  let ⟨(value, rest), shorter⟩ ← read depth cs
  .ok ⟨(f value, rest), shorter⟩

/-- Reads a whole text. -/
def decode {α : Type} (read : Reader α) (text : String) : Except Fault α := do
  let ⟨(value, rest), _⟩ ← read depthLimit text.toList
  expectEnd rest
  return value

/-! ### Refusing a value -/

/-- The fault of a value that is not what was wanted. The value is read as far as its kind shows;
its spelling may be at fault first. -/
def refuse {α : Type} (wanted : String) (cs : List Char) : Except Fault α :=
  match cs with
  | [] => .error ⟨.endInValue, 0⟩
  | c :: rest =>
    if c = 'n' then do
      let ⟨(_, after), _⟩ ← takeWord ['u', 'l', 'l'] rest
      faultAt (.wrongType .null wanted) after
    else if c = 't' then do
      let ⟨(_, after), _⟩ ← takeWord ['r', 'u', 'e'] rest
      faultAt (.wrongType (.bool true) wanted) after
    else if c = 'f' then do
      let ⟨(_, after), _⟩ ← takeWord ['a', 'l', 's', 'e'] rest
      faultAt (.wrongType (.bool false) wanted) after
    else if c = '-' then do
      let ⟨(number, after), _⟩ ← takeNumber true rest
      faultAt (.wrongType (Found.ofNumber number) wanted) after
    else if isDigit c then do
      let ⟨(number, after), _⟩ ← takeNumber false (c :: rest)
      faultAt (.wrongType (Found.ofNumber number) wanted) after
    else if c = '"' then do
      let ⟨(text, after), _⟩ ← takeText rest
      faultAt (.wrongType (.string text) wanted) after
    else if c = '[' then faultAt (.wrongType .sequence wanted) (c :: rest)
    else if c = '{' then faultAt (.wrongType .map wanted) (c :: rest)
    else faultPast .noValue (c :: rest)
where
  /-- A number as messages name it. -/
  Found.ofNumber : Number → Found
    | .natural n => .natural n.toNat
    | .negative n => .negative n.toNat
    | .float x => .float x

/-- A fault inside an object, placed behind the closing brace if that comes next. -/
def faultInObject {α : Type} (cause : Cause) (rest : List Char) : Except Fault α :=
  match skipSpaces rest with
  | '}' :: after => faultAt cause after
  | other => faultAt cause other

/-- A fault inside a list, placed behind the closing bracket or the comma if one comes next. -/
def faultInList {α : Type} (cause : Cause) (rest : List Char) : Except Fault α :=
  match skipSpaces rest with
  | ']' :: after => faultAt cause after
  | ',' :: after => faultAt cause (skipSpaces after)
  | other => faultAt cause other

/-! ### Scalars -/

/-- Reads a string that spells a value; `interpret` tells the value or why there is none. -/
def stringAs {α : Type} (wanted : String) (interpret : String → Except String α) : Reader α :=
  fun _ cs =>
    match h : skipSpaces cs with
    | [] => .error ⟨.endInValue, 0⟩
    | c :: rest =>
      have bound := size_lt_of_skip h
      if c = '"' then do
        let ⟨(text, after), _⟩ ← takeText rest
        match interpret text with
        | .ok found => .ok ⟨(found, after), by simp only at *; omega⟩
        | .error reason => faultAt (.other reason) after
      else refuse wanted (c :: rest)

/-- Reads a string. -/
def string : Reader String := stringAs "a string" .ok

/-- Reads a whole number below `2 ^ 32`. -/
def natural32 : Reader UInt32 := fun _ cs =>
  match h : skipSpaces cs with
  | [] => .error ⟨.endInValue, 0⟩
  | c :: rest => do
    have bound : c.utf8Size + size rest ≤ size cs := by
      have := size_skipSpaces_le cs
      rw [h] at this
      exact this
    if c = '-' ∨ isDigit c then
      let ⟨(number, after), shorter⟩ ←
        (if c = '-' then do
          let ⟨found, _⟩ ← takeNumber true rest
          .ok ⟨found, by simp only [Text.size_cons]; omega⟩
        else takeNumber false (c :: rest) : Except Fault (Taken Number (c :: rest)))
      match number with
      | .natural n =>
        if n.toNat < Number.twoTo 32 then
          .ok ⟨(n.toUInt32, after), by simp only [Text.size_cons] at *; omega⟩
        else faultAt (.wrongValue (.natural n.toNat) "u32") after
      | .negative n => faultAt (.wrongValue (.negative n.toNat) "u32") after
      | .float x => faultAt (.wrongType (.float x) "u32") after
    else refuse "u32" (c :: rest)

/-- Reads any value. -/
def value : Reader Value := fun depth cs => do
  let ⟨(found, rest), bound⟩ ← takeValue depth cs
  .ok ⟨(found, rest), Nat.lt_of_lt_of_le (Nat.lt_add_of_pos_left found.weight_pos) bound⟩

/-- Passes over any value. -/
def ignored : Reader Unit := fun _ cs => skimValue [] cs

/-- Reads `null` as nothing and anything else by `read`. -/
def optional {α : Type} (read : Reader α) : Reader (Option α) := fun depth cs =>
  match h : skipSpaces cs with
  | [] => .error ⟨.endInValue, 0⟩
  | c :: rest =>
    have bound := size_lt_of_skip h
    if c = 'n' then do
      let ⟨(_, after), _⟩ ← takeWord ['u', 'l', 'l'] rest
      .ok ⟨(none, after), by simp only at *; omega⟩
    else do
      let ⟨(found, after), shorter⟩ ← read depth cs
      .ok ⟨(some found, after), shorter⟩

/-! ### Names from a list -/

/-- One of the known names after its opening quote. -/
def takeVariant (known : List String) (cs : List Char) : Except Fault (Taken String cs) := do
  let ⟨(name, after), _⟩ ← takeText cs
  if known.contains name then .ok ⟨(name, after), by simp only at *; omega⟩
  else faultAt (.unknownVariant name known) after

/-- Reads one of the known names: as a string, or as the only member name of an object whose value
is `null`. -/
def variant (known : List String) : Reader String := fun depth cs =>
  match h : skipSpaces cs with
  | [] => .error ⟨.endInValue, 0⟩
  | c :: rest =>
    have bound := size_lt_of_skip h
    if c = '"' then do
      let ⟨found, _⟩ ← takeVariant known rest
      .ok ⟨found, by omega⟩
    else if c = '{' then
      if depth = 0 then faultPast .tooDeep (c :: rest)
      else
        match h₁ : skipSpaces rest with
        | [] => .error ⟨.endInObject, 0⟩
        | d :: quoted =>
          have bound₁ := size_lt_of_skip h₁
          if d = '"' then do
            let ⟨(name, after), _⟩ ← takeVariant known quoted
            match h₂ : skipSpaces after with
            | [] => .error ⟨.endInObject, 0⟩
            | e :: more =>
              have bound₂ := size_lt_of_skip h₂
              if e = ':' then
                match h₃ : skipSpaces more with
                | [] => .error ⟨.endInValue, 0⟩
                | f :: word =>
                  have bound₃ := size_lt_of_skip h₃
                  if f = 'n' then do
                    let ⟨(_, behind), _⟩ ← takeWord ['u', 'l', 'l'] word
                    match h₄ : skipSpaces behind with
                    | [] => .error ⟨.endInObject, 0⟩
                    | g :: last =>
                      have bound₄ := size_lt_of_skip h₄
                      if g = '}' then .ok ⟨(name, last), by simp only at *; omega⟩
                      else faultAt .noValue (g :: last)
                  else refuse "unit" (f :: word)
              else faultPast .noColon (e :: more)
          else faultPast (if d = '}' then .noValue else .keyNotString) (d :: quoted)
    else faultPast .noValue (c :: rest)

/-! ### Lists and maps -/

/-- The members of an object after its opening brace. `accept` decides on each name, from what was
read so far, how its value is read or why the name is refused. -/
def foldMembers {σ : Type} (accept : σ → String → Except Cause (Reader σ)) (depth : Nat)
    (state : σ) (first : Bool) (cs : List Char) : Except Fault (Taken σ cs) :=
  match h : skipSpaces cs with
  | [] => .error ⟨.endInObject, 0⟩
  | c :: rest =>
    have bound := size_lt_of_skip h
    if c = '}' then .ok ⟨(state, rest), bound⟩
    else if first then
      if c = '"' then do
        let ⟨(next, after), _⟩ ← member state rest
        let ⟨found, _⟩ ← foldMembers accept depth next false after
        .ok ⟨found, by simp only at *; omega⟩
      else faultPast .keyNotString (c :: rest)
    else if c = ',' then
      match h' : skipSpaces rest with
      | [] => .error ⟨.endInValue, 0⟩
      | d :: more =>
        have bound' := size_lt_of_skip h'
        if d = '"' then do
          let ⟨(next, after), _⟩ ← member state more
          let ⟨found, _⟩ ← foldMembers accept depth next false after
          .ok ⟨found, by simp only at *; omega⟩
        else if d = '}' then faultPast .trailingComma (d :: more)
        else faultPast .keyNotString (d :: more)
    else faultPast .noObjectEnd (c :: rest)
termination_by size cs
decreasing_by
  all_goals simp only at *; omega
where
  /-- A member after the quote that opens its name. -/
  member (state : σ) (cs : List Char) : Except Fault (Taken σ cs) := do
    let ⟨(name, after), _⟩ ← takeText cs
    match accept state name with
    | .error cause => faultInObject cause after
    | .ok read =>
      match h : skipSpaces after with
      | [] => .error ⟨.endInObject, 0⟩
      | c :: rest =>
        have bound := size_lt_of_skip h
        if c = ':' then do
          let ⟨(next, behind), _⟩ ← read depth rest
          .ok ⟨(next, behind), by simp only at *; omega⟩
        else faultPast .noColon (c :: rest)

/-- The items of a list after its opening bracket. -/
def takeList {α : Type} (read : Reader α) (depth : Nat) (first : Bool) (cs : List Char) :
    Except Fault (Taken (List α) cs) :=
  match h : skipSpaces cs with
  | [] => .error ⟨.endInList, 0⟩
  | c :: rest =>
    have bound := size_lt_of_skip h
    if c = ']' then .ok ⟨([], rest), bound⟩
    else if first then do
      let ⟨(item, after), _⟩ ← read depth cs
      let ⟨(items, behind), _⟩ ← takeList read depth false after
      .ok ⟨(item :: items, behind), by simp only at *; omega⟩
    else if c = ',' then
      match h' : skipSpaces rest with
      | [] => .error ⟨.endInValue, 0⟩
      | d :: more =>
        if d = ']' then faultPast .trailingComma (d :: more)
        else do
          let ⟨(item, after), _⟩ ← read depth rest
          let ⟨(items, behind), _⟩ ← takeList read depth false after
          .ok ⟨(item :: items, behind), by simp only at *; omega⟩
    else faultPast .noListEnd (c :: rest)
termination_by size cs
decreasing_by
  all_goals simp only at *; omega

/-- Reads a list of values of one type. -/
def list {α : Type} (read : Reader α) : Reader (List α) := fun depth cs =>
  match h : skipSpaces cs with
  | [] => .error ⟨.endInValue, 0⟩
  | c :: rest =>
    have bound := size_lt_of_skip h
    if c = '[' then
      match depth with
      | 0 => faultPast .tooDeep (c :: rest)
      | depth + 1 => do
        let ⟨found, _⟩ ← takeList read depth true rest
        .ok ⟨found, by omega⟩
    else refuse "a sequence" (c :: rest)

/-- Reads an object, member by member. -/
def members {σ : Type} (accept : σ → String → Except Cause (Reader σ)) (empty : σ)
    (wanted : String) : Reader σ := fun depth cs =>
  match h : skipSpaces cs with
  | [] => .error ⟨.endInValue, 0⟩
  | c :: rest =>
    have bound := size_lt_of_skip h
    if c = '{' then
      match depth with
      | 0 => faultPast .tooDeep (c :: rest)
      | depth + 1 => do
        let ⟨found, _⟩ ← foldMembers accept depth empty true rest
        .ok ⟨found, by omega⟩
    else refuse wanted (c :: rest)

/-! ### Records -/

/-- A field of a record that is built up in a draft `σ`. -/
structure Field (σ : Type) where
  /-- The spellings of its name; messages use the first. -/
  names : List String
  required : Bool
  isSet : σ → Bool
  read : σ → Reader σ

/-- How a record is spelled: as an object with its fields in any order, or as a list of them in
their order. -/
structure Record (σ α : Type) where
  name : String
  fields : List (Field σ)
  empty : σ
  finish : σ → Option α

namespace Record

variable {σ α : Type}

private def fieldName (field : Field σ) : String := field.names.headD ""

/-- A name may be given once; unknown ones are passed over. -/
def accept (record : Record σ α) (draft : σ) (name : String) : Except Cause (Reader σ) :=
  match record.fields.find? (·.names.contains name) with
  | some field =>
    if field.isSet draft then .error (.duplicateField (fieldName field))
    else .ok (field.read draft)
  | none => .ok (Reader.map (fun _ => draft) ignored)

/-- The first required field that is missing. -/
def missing? (record : Record σ α) (draft : σ) : Option String :=
  (record.fields.find? fun field => field.required && !field.isSet draft).map fieldName

/-- What messages call a list that is too short. -/
def described (record : Record σ α) : String :=
  let count := record.fields.length
  "struct " ++ record.name ++ " with " ++ toString count ++ " element" ++
    (if count = 1 then "" else "s")

/-- The fields of a record as items of a list, and the closing bracket. Only optional fields may be
left out at the end. -/
def takeFields (record : Record σ α) (depth : Nat) (index : Nat) (draft : σ) (cs : List Char) :
    List (Field σ) → Except Fault (Kept σ cs)
  | [] => .ok ⟨(draft, cs), Nat.le_refl _⟩
  | field :: fields =>
    match h : skipSpaces cs with
    | [] => .error ⟨.endInList, 0⟩
    | c :: rest =>
      have bound := size_lt_of_skip h
      if c = ']' then
        if field.required then faultInList (.wrongLength index record.described) cs
        else takeFields record depth (index + 1) draft cs fields
      else if index = 0 then do
        let ⟨(next, after), _⟩ ← field.read draft depth cs
        let ⟨found, _⟩ ← takeFields record depth (index + 1) next after fields
        .ok ⟨found, by simp only at *; omega⟩
      else if c = ',' then
        match h' : skipSpaces rest with
        | [] => .error ⟨.endInValue, 0⟩
        | d :: more =>
          if d = ']' then faultPast .trailingComma (d :: more)
          else do
            let ⟨(next, after), _⟩ ← field.read draft depth rest
            let ⟨found, _⟩ ← takeFields record depth (index + 1) next after fields
            .ok ⟨found, by simp only at *; omega⟩
      else faultPast .noListEnd (c :: rest)

/-- The closing bracket of a list of fields. -/
def closeList (cs : List Char) : Except Fault (Taken Unit cs) :=
  match h : skipSpaces cs with
  | [] => .error ⟨.endInList, 0⟩
  | c :: rest =>
    if c = ']' then .ok ⟨((), rest), size_lt_of_skip h⟩
    else if c = ',' then
      match skipSpaces rest with
      | [] => .error ⟨.trailingCharacters, 0⟩
      | d :: more =>
        if d = ']' then faultPast .trailingComma (d :: more)
        else faultPast .trailingCharacters (d :: more)
    else faultPast .trailingCharacters (c :: rest)

/-- Reads a record. -/
def reader (record : Record σ α) : Reader α := fun depth cs =>
  match h : skipSpaces cs with
  | [] => .error ⟨.endInValue, 0⟩
  | c :: rest =>
    have bound := size_lt_of_skip h
    if c = '[' then
      match depth with
      | 0 => faultPast .tooDeep (c :: rest)
      | depth + 1 => do
        let ⟨(draft, after), _⟩ ← record.takeFields depth 0 record.empty rest record.fields
        let ⟨(_, behind), _⟩ ← closeList after
        match record.finish draft with
        | some value => .ok ⟨(value, behind), by simp only at *; omega⟩
        | none => faultAt (.wrongLength 0 record.described) behind
    else if c = '{' then
      match depth with
      | 0 => faultPast .tooDeep (c :: rest)
      | depth + 1 => do
        let ⟨(draft, after), _⟩ ← foldMembers record.accept depth record.empty true rest
        match record.missing? draft, record.finish draft with
        | none, some value => .ok ⟨(value, after), by simp only at *; omega⟩
        | missing, _ => faultAt (.missingField (missing.getD "")) after
    else refuse ("struct " ++ record.name) (c :: rest)

end Record
end Galley.Json
