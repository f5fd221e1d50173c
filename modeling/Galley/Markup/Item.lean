import Galley.Markup.Escape
/-!
# Markup as a sequence of items

Markup is a flat sequence of tags and texts. Texts and attribute values hold what a reader sees;
escaping happens when the sequence is printed, and only there.
-/
namespace Galley.Markup

/-- The value of an attribute, or a text between tags, and how it is written. -/
structure Data where
  escaping : Escaping
  text : String
deriving DecidableEq, Repr

def Data.print (data : Data) : String := data.escaping.apply data.text

/-- An attribute; one without a value is set by its name alone. -/
structure Attribute where
  name : String
  value : Option Data
deriving DecidableEq, Repr

namespace Attribute

def flag (name : String) : Attribute := ⟨name, none⟩

def valued (name : String) (escaping : Escaping) (text : String) : Attribute :=
  ⟨name, some ⟨escaping, text⟩⟩

/-- An attribute whose value needs no escaping. -/
def fixed (name text : String) : Attribute := valued name .verbatim text

def print (a : Attribute) : String :=
  match a.value with
  | some data => " " ++ a.name ++ "=\"" ++ data.print ++ "\""
  | none => " " ++ a.name

end Attribute

inductive Item where
  | opening (name : String) (attributes : List Attribute)
  | closing (name : String)
  /-- An element without content, closed in its own tag. -/
  | void (name : String)
  | text (data : Data)
deriving DecidableEq, Repr

namespace Item

/-- An opening tag without attributes. -/
def start (name : String) : Item := .opening name []

/-- Text with the markup characters named. -/
def named (text : String) : Item := .text ⟨.named, text⟩

/-- Text with the markup characters numbered. -/
def numbered (text : String) : Item := .text ⟨.numeric, text⟩

/-- Characters that are written as they are. -/
def raw (text : String) : Item := .text ⟨.verbatim, text⟩

def print : Item → String
  | .opening name attributes =>
    "<" ++ name ++ String.join (attributes.map Attribute.print) ++ ">"
  | .closing name => "</" ++ name ++ ">"
  | .void name => "<" ++ name ++ " />"
  | .text data => data.print

end Item

/-- Markup as a text. -/
def print (items : List Item) : String := String.join (items.map Item.print)

@[simp] theorem print_append (first second : List Item) :
    print (first ++ second) = print first ++ print second := by
  simp [print]

end Galley.Markup
