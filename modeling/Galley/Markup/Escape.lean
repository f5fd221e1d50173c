/-!
# Character references

Text between tags and in attribute values is written with references for the five characters that
mean something in markup. Fragments name them where a name is common; records and pages give their
numbers.
-/
namespace Galley.Markup

/-- How the characters of markup are written inside text. -/
inductive Escaping where
  /-- As they are. -/
  | verbatim
  /-- By name, the apostrophe by number. -/
  | named
  /-- By number. -/
  | numeric
deriving DecidableEq, Repr

/-- How a character is written by name. -/
def namedReference (c : Char) : List Char :=
  if c = '&' then "&amp;".toList
  else if c = '<' then "&lt;".toList
  else if c = '>' then "&gt;".toList
  else if c = '"' then "&quot;".toList
  else if c = '\x27' then "&#39;".toList
  else [c]

/-- How a character is written by number. -/
def numericReference (c : Char) : List Char :=
  if c = '&' then "&#38;".toList
  else if c = '<' then "&#60;".toList
  else if c = '>' then "&#62;".toList
  else if c = '"' then "&#34;".toList
  else if c = '\x27' then "&#39;".toList
  else [c]

def Escaping.char : Escaping → Char → List Char
  | .verbatim, c => [c]
  | .named, c => namedReference c
  | .numeric, c => numericReference c

/-- A text as it is written. -/
def Escaping.apply (escaping : Escaping) (text : String) : String :=
  String.ofList (text.toList.flatMap escaping.char)

/-- A text in a fragment or in an attribute of one. -/
def escape (text : String) : String := Escaping.named.apply text

@[simp] theorem toList_apply (escaping : Escaping) (text : String) :
    (escaping.apply text).toList = text.toList.flatMap escaping.char := by
  simp [Escaping.apply]

end Galley.Markup
