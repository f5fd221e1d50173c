import Galley.Yaml.Place
/-!
# Tokens of YAML

Tokens are what the layout of a text means: the indentation of blocks has become explicit starts
and ends, and the keys of mappings are marked before they begin.
-/
namespace Galley.Yaml

/-- How a scalar is written. -/
inductive Style where
  | plain
  | quoted
  | literal
  | folded
deriving DecidableEq, Repr

inductive Symbol where
  | streamEnd
  | version (major minor : Nat)
  /-- In tags, `handle` stands for `stem`. -/
  | handle (handle stem : String)
  | documentStart
  | documentEnd
  | blockSequenceStart
  | blockMappingStart
  | blockEnd
  | flowSequenceStart
  | flowSequenceEnd
  | flowMappingStart
  | flowMappingEnd
  | blockEntry
  | flowEntry
  | key
  | value
  | alias (name : String)
  | anchor (name : String)
  | tag (handle suffix : String)
  | scalar (style : Style) (text : String)
deriving DecidableEq, Repr

/-- A symbol with the places where it begins and ends. -/
structure Token where
  symbol : Symbol
  start : Place
  stop : Place
deriving DecidableEq, Repr

end Galley.Yaml
