import Galley.Bibliography.Written
/-!
# What the values of a citation database say

In a value a backslash begins a command or stands before a character that would mean something
else, and dollar signs stand around formulas. Commas and other separators count only outside of
braces and formulas, so every character is kept with the knowledge of where it stood.
-/
namespace Galley.Bibliography

open Galley.Text (size)

/-! ### Commands -/

/-- The characters that a backslash keeps from meaning anything. -/
def isEscapable (c : Char) : Bool := "\x7b\x7d$&%_#\\".toList.contains c

/-- The accents, which apply to the character behind them. -/
def isAccent (c : Char) : Bool :=
  "\"'^~=.".toList.contains c || c.toNat == 0x60 || c.toNat == 0xB4

/-- The argument of a command up to the brace that closes it, and what follows that brace. No
backslash keeps a brace from counting. `argument` holds what was read, backwards. -/
def takeArgument (depth : Nat) (argument : List Char) :
    List Char → Option (List Char × List Char)
  | [] => none
  | '{' :: rest => takeArgument (depth + 1) ('{' :: argument) rest
  | '}' :: rest =>
    match depth with
    | 0 => some (argument.reverse, rest)
    | depth + 1 => takeArgument depth ('}' :: argument) rest
  | c :: rest => takeArgument depth (c :: argument) rest

theorem takeArgument_length {depth : Nat} {argument cs text rest : List Char}
    (h : takeArgument depth argument cs = some (text, rest)) :
    text.length + rest.length < argument.length + cs.length := by
  fun_induction takeArgument depth argument cs with
  | case1 => simp at h
  | case2 _ _ _ ih => have := ih h; simp only [List.length_cons] at *; omega
  | case3 =>
    simp only [Option.some.injEq, Prod.mk.injEq] at h
    obtain ⟨rfl, rfl⟩ := h
    simp
  | case4 _ _ _ ih => have := ih h; simp only [List.length_cons] at *; omega
  | case5 _ _ _ _ _ _ ih => have := ih h; simp only [List.length_cons] at *; omega

/-- A command behind its backslash. -/
structure Command where
  /-- The name, and behind an accent the character that it applies to. -/
  spelling : List Char
  /-- The text in braces. -/
  argument : Option (List Char)
  rest : List Char

/-- The letters of a command's name behind its first character `c`; an accent has none. -/
def nameLetters (c : Char) (rest : List Char) : List Char :=
  if isAccent c then [] else rest.takeWhile Char.isAlpha

/-- The command whose name begins with `c`. Blanks may stand before its argument. `none` if the
argument does not end. -/
def takeCommand? (c : Char) (rest : List Char) : Option Command :=
  let after := rest.drop (nameLetters c rest).length
  match skipBlanks after with
  | '{' :: inner =>
    (takeArgument 0 [] inner).map fun taken => ⟨c :: nameLetters c rest, some taken.1, taken.2⟩
  | spaced =>
    if isAccent c then some ⟨c :: spaced.take 1, none, spaced.drop 1⟩
    else some ⟨c :: nameLetters c rest, none, after⟩

theorem takeCommand?_length {c : Char} {rest : List Char} {command : Command}
    (h : takeCommand? c rest = some command) :
    (command.argument.getD []).length + command.rest.length ≤ rest.length := by
  have bound : (skipBlanks (rest.drop (nameLetters c rest).length)).length ≤ rest.length :=
    Nat.le_trans (List.dropWhile_sublist _).length_le (List.drop_sublist _ _).length_le
  simp only [takeCommand?] at h
  split at h
  next inner spaced =>
    rw [spaced, List.length_cons] at bound
    obtain ⟨⟨argument, after⟩, taken, rfl⟩ := Option.map_eq_some_iff.1 h
    have := takeArgument_length taken
    simp only [Option.getD_some, List.length_nil] at *
    omega
  next =>
    split at h <;> obtain rfl := Option.some.inj h <;>
      simp only [Option.getD_none, List.length_nil, List.length_drop] <;> omega

/-! ### Contents -/

/-- A character of a content. -/
structure Glyph where
  char : Char
  /-- Whether it stands outside of braces and formulas. -/
  bare : Bool
deriving DecidableEq, Repr

namespace Glyph

def ofChars (bare : Bool) (cs : List Char) : List Glyph := cs.map (⟨·, bare⟩)

/-- Reads a content in braces of a depth, with so many bytes left behind it. A formula, an argument
and a backslash must not end the content. A command is shown as it is spelled, but for the content
of its argument. -/
def ofContent (depth behind : Nat) (cs : List Char) : Except Fault (List Glyph) :=
  let bare := depth == 0
  match cs with
  | [] => .ok []
  | '\\' :: rest =>
    match rest with
    | [] => .error ⟨.endOfText, behind, behind⟩
    | c :: more =>
      if isEscapable c then do
        return ⟨c, bare⟩ :: (← ofContent depth behind more)
      else if Text.isBlank c || isControl c then do
        return ⟨'\\', bare⟩ :: (← ofContent depth behind (c :: more))
      else
        match h : takeCommand? c more with
        | none => .error ⟨.endOfText, behind, behind⟩
        | some command => do
          have _bound := takeCommand?_length h
          let argument ← ofContent 0 (behind + size command.rest + 1) (command.argument.getD [])
          let shown := match command.argument with
            | some _ => ['{'] ++ argument.map Glyph.char ++ ['}']
            | none => []
          return ofChars bare ('\\' :: command.spelling ++ shown) ++
            (← ofContent depth behind command.rest)
  | '$' :: rest => do
    let formula := rest.takeWhile (· != '$')
    if formula.length = rest.length then .error ⟨.endOfText, behind, behind⟩
    else return ofChars false formula ++
      (← ofContent depth behind (rest.drop (formula.length + 1)))
  | '{' :: rest => ofContent (depth + 1) behind rest
  | '}' :: rest =>
    match depth with
    | 0 => .error ⟨.unexpected .closingBrace, behind + size rest + 1, behind + size rest⟩
    | depth + 1 => ofContent depth behind rest
  | c :: rest => do
    return ⟨c, bare⟩ :: (← ofContent depth behind rest)
termination_by cs.length
decreasing_by
  all_goals simp only [List.length_cons, List.length_drop]; omega

/-- The parts of a content between bare characters `separator`, blanks around them dropped. -/
def splitAtBare (separator : Char) (glyphs : List Glyph) : List String :=
  let (last, parts) := glyphs.foldr
    (fun glyph (part, parts) =>
      if glyph = ⟨separator, true⟩ then ([], part :: parts) else (glyph.char :: part, parts))
    (([] : List Char), ([] : List (List Char)))
  (last :: parts).map fun part => Text.trim (String.ofList part)

end Glyph
end Galley.Bibliography
