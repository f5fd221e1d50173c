import Galley.Number.Binary64
import Galley.Shell.Word
/-!
# Arithmetic of scripts

Whole numbers with the operators of C, in their order of binding. Variables that are not set count
as zero. Division cuts off what is behind the point.

This is a part of the stand-in for the system's shell, see `Galley.Shell.Programs`.
-/
namespace Galley.Shell.Arithmetic

inductive Term where
  | number (value : Int)
  | operator (text : String)
deriving DecidableEq, Repr

/-- The value of a row of digits in a base. -/
private def digitsValue (base : Nat) (digits : List Char) : Option Nat :=
  digits.foldlM (fun n c =>
    let d :=
      if c.isDigit then c.toNat - 48
      else if 'a' ≤ c ∧ c ≤ 'f' then c.toNat - 87
      else if 'A' ≤ c ∧ c ≤ 'F' then c.toNat - 55
      else base
    if d < base then some (n * base + d) else none) 0

/-- A number: hexadecimal after `0x`, octal after `0`, or else decimal. -/
def number? (digits : List Char) : Option Int :=
  (match digits with
    | '0' :: 'x' :: rest => if rest.isEmpty then none else digitsValue 16 rest
    | '0' :: rest => digitsValue 8 rest
    | _ => if digits.isEmpty then none else digitsValue 10 digits).map Int.ofNat

/-- The value of a text that stands for a number, with a sign and blanks around it. -/
def integer? (text : String) : Option Int :=
  let isSpace (c : Char) : Bool := c == ' ' || c == '\t' || c == '\n'
  let trimmed := ((text.toList.dropWhile isSpace).reverse.dropWhile isSpace).reverse
  let decimal (digits : List Char) : Option Int :=
    if digits.isEmpty then none else (digitsValue 10 digits).map Int.ofNat
  match trimmed with
  | '-' :: digits => (decimal digits).map (- ·)
  | '+' :: digits => decimal digits
  | digits => decimal digits

/-- The binary operators, those that bind least first. -/
def levels : List (List String) :=
  [["||"], ["&&"], ["|"], ["^"], ["&"], ["==", "!="], ["<=", ">=", "<", ">"], ["<<", ">>"],
    ["+", "-"], ["*", "/", "%"]]

def operators : List String :=
  ["||", "&&", "==", "!=", "<=", ">=", "<<", ">>", "|", "^", "&", "<", ">", "+", "-", "*", "/", "%",
    "!", "~", "(", ")", "?", ":"]

/-- The terms of an expression; names are replaced by their values. -/
def terms (valueOf : String → Int) (fuel : Nat) (cs : List Char) : Option (List Term) :=
  match fuel, cs with
  | 0, _ => none
  | _, [] => some []
  | fuel + 1, c :: rest =>
    if c = ' ' ∨ c = '\t' ∨ c = '\n' then terms valueOf fuel rest
    else if c.isDigit then do
      let value ← number? ((c :: rest).takeWhile Char.isAlphanum)
      return .number value :: (← terms valueOf fuel (rest.dropWhile Char.isAlphanum))
    else if Word.isNameStart c then do
      let name := String.ofList ((c :: rest).takeWhile Word.isNameChar)
      return .number (valueOf name) :: (← terms valueOf fuel (rest.dropWhile Word.isNameChar))
    else do
      let text ← operators.find? fun text => text.toList.isPrefixOf (c :: rest)
      return .operator text :: (← terms valueOf fuel ((c :: rest).drop text.length))

private def ofBool (b : Bool) : Int := if b then 1 else 0

/-- Why an expression has no value. -/
inductive Fault where
  | malformed
  | divisionByZero
deriving DecidableEq, Repr

def Fault.text : Fault → String
  | .malformed => "expecting primary"
  | .divisionByZero => "division by zero"

/-- The value of two numbers joined by an operator. -/
def apply (text : String) (a b : Int) : Except Fault Int :=
  match text with
  | "||" => .ok (ofBool (a != 0 || b != 0))
  | "&&" => .ok (ofBool (a != 0 && b != 0))
  | "==" => .ok (ofBool (a == b))
  | "!=" => .ok (ofBool (a != b))
  | "<=" => .ok (ofBool (a ≤ b))
  | ">=" => .ok (ofBool (b ≤ a))
  | "<" => .ok (ofBool (a < b))
  | ">" => .ok (ofBool (b < a))
  | "+" => .ok (a + b)
  | "-" => .ok (a - b)
  | "*" => .ok (a * b)
  | "/" => if b = 0 then .error .divisionByZero else .ok (Int.tdiv a b)
  | "%" => if b = 0 then .error .divisionByZero else .ok (Int.tmod a b)
  | "|" => .ok (Int.ofNat (a.toNat ||| b.toNat))
  | "^" => .ok (Int.ofNat (a.toNat ^^^ b.toNat))
  | "&" => .ok (Int.ofNat (a.toNat &&& b.toNat))
  | "<<" => .ok (a * Number.twoTo (b.toNat % 64))
  | ">>" => .ok (a / Number.twoTo (b.toNat % 64))
  | _ => .error .malformed

mutual

/-- A condition with its two values, or a value alone. -/
def takeChoice (fuel : Nat) (ts : List Term) : Except Fault (Int × List Term) :=
  match fuel with
  | 0 => .error .malformed
  | fuel + 1 => do
    let (value, rest) ← takeLevel fuel levels ts
    match rest with
    | .operator "?" :: rest =>
      let (yes, rest) ← takeChoice fuel rest
      match rest with
      | .operator ":" :: rest =>
        let (no, rest) ← takeChoice fuel rest
        return (if value = 0 then no else yes, rest)
      | _ => .error .malformed
    | _ => return (value, rest)

def takeLevel (fuel : Nat) (remaining : List (List String)) (ts : List Term) :
    Except Fault (Int × List Term) :=
  match fuel, remaining with
  | 0, _ => .error .malformed
  | fuel + 1, [] => takeUnary fuel ts
  | fuel + 1, level :: tighter => do
    let (value, rest) ← takeLevel fuel tighter ts
    takeMore fuel level tighter value rest

def takeMore (fuel : Nat) (level : List String) (tighter : List (List String)) (value : Int)
    (ts : List Term) : Except Fault (Int × List Term) :=
  match fuel, ts with
  | 0, _ => .error .malformed
  | fuel + 1, .operator text :: rest =>
    if level.contains text then do
      let (other, rest) ← takeLevel fuel tighter rest
      takeMore fuel level tighter (← apply text value other) rest
    else .ok (value, ts)
  | _ + 1, _ => .ok (value, ts)

def takeUnary (fuel : Nat) (ts : List Term) : Except Fault (Int × List Term) :=
  match fuel, ts with
  | 0, _ => .error .malformed
  | _ + 1, .number value :: rest => .ok (value, rest)
  | fuel + 1, .operator text :: rest =>
    match text with
    | "-" => (takeUnary fuel rest).map fun found => (- found.1, found.2)
    | "+" => takeUnary fuel rest
    | "!" => (takeUnary fuel rest).map fun found => (ofBool (found.1 == 0), found.2)
    | "~" => (takeUnary fuel rest).map fun found => (- found.1 - 1, found.2)
    | "(" =>
      match takeChoice fuel rest with
      | .ok (value, .operator ")" :: rest) => .ok (value, rest)
      | .ok _ => .error .malformed
      | .error fault => .error fault
    | _ => .error .malformed
  | _ + 1, [] => .error .malformed

end

/-- The value of an expression; an empty one is zero. -/
def evaluate (valueOf : String → Int) (text : String) : Except Fault Int :=
  match terms valueOf (text.length + 1) text.toList with
  | none => .error .malformed
  | some [] => .ok 0
  | some ts =>
    match takeChoice (16 * ts.length + 16) ts with
    | .ok (value, []) => .ok value
    | .ok _ => .error .malformed
    | .error fault => .error fault

end Galley.Shell.Arithmetic
