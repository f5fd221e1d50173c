import Galley.Json.Parser
/-!
# Passing over JSON values

Values that nobody asked for are passed over: their brackets have to match, but numbers may be out
of range, surrogates may stand alone and nesting is unlimited.
-/
namespace Galley.Json

open Galley.Text (size size_dropWhile_le size_lt_cons lt_size_cons le_size_cons)

private theorem skip_bound {cs rest : List Char} {c : Char} (h : skipSpaces cs = c :: rest) :
    size rest < size cs := by
  have := size_skipSpaces_le cs
  have := c.utf8Size_pos
  rw [h, Text.size_cons] at *
  omega

/-- Passes over four hexadecimal digits. -/
private def skimHex4 (cs : List Char) : Except Fault (Kept Unit cs) := do
  let ⟨(_, rest), bound⟩ ← takeHex4 cs
  .ok ⟨((), rest), Nat.le_of_add_right_le bound⟩

/-- Passes over the rest of a string. -/
def skimString (cs : List Char) : Except Fault (Taken Unit cs) :=
  match cs with
  | [] => .error ⟨.endInString, 0⟩
  | '"' :: rest => .ok ⟨((), rest), size_lt_cons '"' rest⟩
  | '\\' :: 'u' :: rest => do
    let ⟨(_, after), bound⟩ ← skimHex4 rest
    let ⟨found, shorter⟩ ← skimString after
    .ok ⟨found, lt_size_cons '\\' (lt_size_cons 'u' (Nat.lt_of_lt_of_le shorter bound))⟩
  | '\\' :: c :: rest =>
    if (simpleEscape? c).isSome then do
      let ⟨found, shorter⟩ ← skimString rest
      .ok ⟨found, lt_size_cons '\\' (lt_size_cons c shorter)⟩
    else faultPast .badEscape (c :: rest)
  | c :: rest =>
    if c.toNat < 0x20 then faultAt .controlCharacter (c :: rest)
    else if c = '\\' then .error ⟨.endInString, 0⟩
    else do
      let ⟨found, shorter⟩ ← skimString rest
      .ok ⟨found, lt_size_cons c shorter⟩
termination_by size cs
decreasing_by
  · have := ('\\').utf8Size_pos
    simp only [Text.size_cons] at *
    omega
  · have := ('\\').utf8Size_pos
    simp only [Text.size_cons]
    omega
  · have := c.utf8Size_pos
    simp only [Text.size_cons]
    omega

private theorem size_digits_le {cs rest : List Char} {c : Char} (h : size (c :: rest) ≤ size cs) :
    size (rest.dropWhile isDigit) ≤ size cs :=
  Nat.le_trans (size_dropWhile_le isDigit rest)
    (Nat.le_trans (Nat.le_of_lt (size_lt_cons c rest)) h)

/-- Passes over an exponent after its letter. -/
private def skimExponent (cs : List Char) : Except Fault (Kept Unit cs) :=
  let digits : { r : List Char // size r ≤ size cs } :=
    match cs with
    | c :: rest =>
      if c = '+' ∨ c = '-' then ⟨rest, Nat.le_of_lt (size_lt_cons c rest)⟩
      else ⟨c :: rest, Nat.le_refl _⟩
    | [] => ⟨[], Nat.le_refl _⟩
  match h : digits.1 with
  | [] => .error ⟨.badNumber, 0⟩
  | c :: rest =>
    if isDigit c then
      .ok ⟨((), rest.dropWhile isDigit), size_digits_le (h ▸ digits.2)⟩
    else faultPast .badNumber (c :: rest)

private theorem size_fraction_le {rest after : List Char} {d : Char}
    (h : rest.dropWhile isDigit = d :: after) : size (d :: after) ≤ size ('.' :: rest) :=
  h ▸ le_size_cons '.' (size_dropWhile_le isDigit rest)

/-- Passes over what follows the digits before the point. -/
private def skimTail (cs : List Char) : Except Fault (Kept Unit cs) :=
  match cs with
  | '.' :: rest =>
    if rest.head?.any isDigit then
      match h : rest.dropWhile isDigit with
      | d :: after =>
        if d = 'e' ∨ d = 'E' then do
          let ⟨found, short⟩ ← skimExponent after
          .ok ⟨found, Nat.le_trans (le_size_cons d short) (size_fraction_le h)⟩
        else .ok ⟨((), d :: after), size_fraction_le h⟩
      | [] => .ok ⟨((), []), Nat.zero_le _⟩
    else faultPast .badNumber rest
  | c :: rest =>
    if c = 'e' ∨ c = 'E' then do
      let ⟨found, short⟩ ← skimExponent rest
      .ok ⟨found, size_rest_le_cons c found short⟩
    else .ok ⟨((), c :: rest), Nat.le_refl _⟩
  | [] => .ok ⟨((), []), Nat.le_refl _⟩

/-- Passes over a number after its sign. -/
def skimNumber (cs : List Char) : Except Fault (Taken Unit cs) :=
  match cs with
  | [] => .error ⟨.badNumber, 0⟩
  | c :: rest =>
    have := c.utf8Size_pos
    have := size_dropWhile_le isDigit rest
    if ¬ isDigit c then faultPast .badNumber (c :: rest)
    else if c = '0' then
      if rest.head?.any isDigit then faultPast .badNumber rest
      else do
        let ⟨found, _⟩ ← skimTail rest
        .ok ⟨found, by simp only [Text.size_cons] at *; omega⟩
    else do
      let ⟨found, _⟩ ← skimTail (rest.dropWhile isDigit)
      .ok ⟨found, by simp only [Text.size_cons] at *; omega⟩

/-- Passes over a value without brackets, whose first character is `c`. -/
def skimScalar (c : Char) (rest : List Char) : Except Fault (Taken Unit (c :: rest)) :=
  have := c.utf8Size_pos
  if c = 'n' then do
    let ⟨found, _⟩ ← takeWord ['u', 'l', 'l'] rest
    .ok ⟨found, by simp only [Text.size_cons]; omega⟩
  else if c = 't' then do
    let ⟨found, _⟩ ← takeWord ['r', 'u', 'e'] rest
    .ok ⟨found, by simp only [Text.size_cons]; omega⟩
  else if c = 'f' then do
    let ⟨found, _⟩ ← takeWord ['a', 'l', 's', 'e'] rest
    .ok ⟨found, by simp only [Text.size_cons]; omega⟩
  else if c = '-' then do
    let ⟨found, _⟩ ← skimNumber rest
    .ok ⟨found, by simp only [Text.size_cons]; omega⟩
  else if isDigit c then skimNumber (c :: rest)
  else if c = '"' then do
    let ⟨found, _⟩ ← skimString rest
    .ok ⟨found, by simp only [Text.size_cons]; omega⟩
  else faultPast .noValue (c :: rest)

/-- An open bracket. -/
inductive Bracket where
  | list
  | object
deriving DecidableEq, Repr

namespace Bracket

def close : Bracket → Char
  | .list => ']'
  | .object => '}'

def atEnd : Bracket → Cause
  | .list => .endInList
  | .object => .endInObject

def noEnd : Bracket → Cause
  | .list => .noListEnd
  | .object => .noObjectEnd

end Bracket

mutual

/-- Passes over a value inside the open brackets, and on to where all of them are closed. -/
def skimValue (opened : List Bracket) (cs : List Char) : Except Fault (Taken Unit cs) :=
  match h : skipSpaces cs with
  | [] => .error ⟨.endInValue, 0⟩
  | c :: rest =>
    have bound := skip_bound h
    have bound' : c.utf8Size + size rest ≤ size cs := by
      have := size_skipSpaces_le cs
      rw [h, Text.size_cons] at this
      exact this
    if c = '[' then skimOpened .list opened rest bound
    else if c = '{' then skimOpened .object opened rest bound
    else do
      let ⟨(_, after), shorter⟩ ← skimScalar c rest
      let ⟨found, _⟩ ← skimAfter opened after
      .ok ⟨found, by simp only [Text.size_cons] at *; omega⟩
termination_by 3 * size cs + 0
decreasing_by
  all_goals (try simp only [Text.size_cons] at *); omega

/-- Passes over what follows a bracket just opened. -/
def skimOpened {outer : List Char} (bracket : Bracket) (opened : List Bracket) (cs : List Char)
    (smaller : size cs < size outer) : Except Fault (Taken Unit outer) :=
  match h : skipSpaces cs with
  | [] => .error ⟨bracket.atEnd, 0⟩
  | c :: rest =>
    have bound := skip_bound h
    if c = bracket.close then do
      let ⟨found, _⟩ ← skimAfter opened rest
      .ok ⟨found, by omega⟩
    else
      match bracket with
      | .list => do
        let ⟨found, _⟩ ← skimValue (.list :: opened) cs
        .ok ⟨found, by omega⟩
      | .object => do
        let ⟨found, _⟩ ← skimName opened cs
        .ok ⟨found, by omega⟩
termination_by 3 * size cs + 2
decreasing_by
  all_goals omega

/-- Passes over a member name and on. -/
def skimName (opened : List Bracket) (cs : List Char) : Except Fault (Taken Unit cs) :=
  match h : skipSpaces cs with
  | [] => .error ⟨.endInObject, 0⟩
  | c :: rest =>
    have bound := skip_bound h
    if c = '"' then do
      let ⟨(_, after), shorter⟩ ← skimString rest
      match h' : skipSpaces after with
      | [] => .error ⟨.endInObject, 0⟩
      | d :: more =>
        have bound' := skip_bound h'
        if d = ':' then do
          let ⟨found, _⟩ ← skimValue (.object :: opened) more
          .ok ⟨found, by simp only at *; omega⟩
        else faultPast .noColon (d :: more)
    else faultPast .keyNotString (c :: rest)
termination_by 3 * size cs + 1
decreasing_by
  simp only at *; omega

/-- Passes over what follows a value, until no bracket is open. -/
def skimAfter (opened : List Bracket) (cs : List Char) : Except Fault (Kept Unit cs) :=
  match opened with
  | [] => .ok ⟨((), cs), Nat.le_refl _⟩
  | bracket :: outer =>
    match h : skipSpaces cs with
    | [] => .error ⟨bracket.atEnd, 0⟩
    | c :: rest =>
      have bound := skip_bound h
      if c = ',' then
        match bracket with
        | .list => do
          let ⟨found, _⟩ ← skimValue (.list :: outer) rest
          .ok ⟨found, by omega⟩
        | .object => do
          let ⟨found, _⟩ ← skimName outer rest
          .ok ⟨found, by omega⟩
      else if c = bracket.close then do
        let ⟨found, _⟩ ← skimAfter outer rest
        .ok ⟨found, by omega⟩
      else faultPast bracket.noEnd (c :: rest)
termination_by 3 * size cs + 0
decreasing_by
  all_goals omega

end

end Galley.Json
