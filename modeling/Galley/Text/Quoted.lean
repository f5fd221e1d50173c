import Galley.Text.Shape
/-!
# Texts in quotes

How messages show a text: in double quotes, with escapes for the characters that have no shape by
themselves.
-/
namespace Galley.Text

/-- Characters shown by a backslash and a letter in a quoted string of a message. -/
private def shortEscape? (c : Char) : Option String :=
  if c = '"' then some "\\\""
  else if c = '\\' then some "\\\\"
  else if c = '\n' then some "\\n"
  else if c = '\r' then some "\\r"
  else if c = '\t' then some "\\t"
  else if c = Char.ofNat 0 then some "\\0"
  else none

private def hexText (n : Nat) : String := String.ofList (Nat.toDigits 16 n)

/-- A text in quotes, as messages show it. -/
def quoted (text : String) : String :=
  let shown := text.toList.map fun c =>
    match shortEscape? c with
    | some escape => escape
    | none => if hasShape c then c.toString else "\\u\x7b" ++ hexText c.toNat ++ "\x7d"
  "\"" ++ String.join shown ++ "\""

end Galley.Text
