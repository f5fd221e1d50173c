import Galley.Document.Node
import Galley.Json.Parser
import Galley.Number.Binary64
import Galley.Text.Blank
/-!
# Documents from JSON

Every JSON value is a document tree: a node is an object with `type`, `attrs`, `content`, `text` and
`marks`, what is missing or malformed falls back to a default, and an object of another type is an
unknown node. A string in the place of a node is read as a JSON text of its own.
-/
namespace Galley.Document

open Galley.Json (Value)

namespace Node

/-! ### Attributes -/

/-- A member of `attrs`. -/
def attribute? (name : String) (v : Value) : Option Value :=
  (v.get? "attrs").bind (·.get? name)

/-- The whole number that decimal digits spell, if it is below `2 ^ 64`. A plus sign may stand
before them. -/
def natural64? (text : String) : Option UInt64 :=
  let digits :=
    match text.toList with
    | '+' :: rest => rest
    | other => other
  if digits.isEmpty ∨ ¬ digits.all Json.isDigit then none
  else
    let n := digits.foldl (fun n c => n * 10 + Json.digitValue c) 0
    if n < Number.twoTo 64 then some (UInt64.ofNat n) else none

/-- A whole number given by a number or by its digits in a string. Fractions are cut off, and a
number beyond 64 bits counts as the largest. -/
def naturalAttribute? (name : String) (v : Value) : Option UInt64 :=
  match attribute? name v with
  | some (.number (.natural n)) => some n
  | some (.number (.float x)) =>
    if x.negative ∧ ¬ x.isZero then none
    else some (UInt64.ofNat (min x.truncate (Number.twoTo 64 - 1)))
  | some (.string digits) => natural64? (Text.trim digits)
  | _ => none

def textAttribute? (name : String) (v : Value) : Option String :=
  (attribute? name v).bind (·.string?)

/-- The level of a heading; one that is given beyond 255 counts as 255. -/
def levelOf (v : Value) : UInt8 :=
  match naturalAttribute? "level" v with
  | some n => UInt8.ofNat (min n.toNat 255)
  | none => 1

def startOf (v : Value) : UInt64 := (naturalAttribute? "start" v).getD 1

/-- The language of a code block, unless it is empty. -/
def languageOf (v : Value) : Option String :=
  (textAttribute? "language" v).filter fun language => !language.isEmpty

/-- The source of a formula is `latex`, or else `source`. -/
def mathSourceOf (v : Value) : String :=
  match textAttribute? "latex" v with
  | some source => source
  | none => (textAttribute? "source" v).getD ""

/-- A mark is given by an object with a `type`, or by its name alone. -/
def markOf? (v : Value) : Option Mark :=
  match (v.get? "type").bind (·.string?) with
  | some name => Mark.ofName? name
  | none => v.string?.bind Mark.ofName?

/-- The known marks of a text node, in the order given. -/
def marksOf (v : Value) : List Mark :=
  match (v.get? "marks").bind (·.array?) with
  | some marks => marks.filterMap markOf?
  | none => []

def literalOf (v : Value) : String :=
  ((v.get? "text").bind (·.string?)).getD ""

/-! ### Kinds -/

/-- The kind of node that a type name stands for. -/
inductive Kind where
  | document
  | heading
  | paragraph
  | bulletList
  | orderedList
  | listItem
  | codeBlock
  | blockquote
  | table
  | mathInline
  | mathDisplay
  | horizontalRule
  | hardBreak
  | text
deriving DecidableEq, Repr

/-- The type names in use; most kinds have two spellings. -/
def kindNames : List (String × Kind) :=
  [("doc", .document), ("document", .document), ("heading", .heading), ("paragraph", .paragraph),
    ("bulletList", .bulletList), ("bullet_list", .bulletList), ("orderedList", .orderedList),
    ("ordered_list", .orderedList), ("listItem", .listItem), ("list_item", .listItem),
    ("codeBlock", .codeBlock), ("code_block", .codeBlock), ("blockquote", .blockquote),
    ("table", .table), ("mathInline", .mathInline), ("math_inline", .mathInline),
    ("mathDisplay", .mathDisplay), ("math_display", .mathDisplay),
    ("horizontalRule", .horizontalRule), ("horizontal_rule", .horizontalRule),
    ("hardBreak", .hardBreak), ("hard_break", .hardBreak), ("text", .text)]

def Kind.ofName? (name : String) : Option Kind := kindNames.lookup name

def typeOf? (v : Value) : Option String := (v.get? "type").bind (·.string?)

/-- The node that a value other than a string spells, given its decoded children. -/
def assemble (v : Value) (content : List Node) : Node :=
  match (typeOf? v).bind Kind.ofName? with
  | some .document => .document content
  | some .heading => .heading (levelOf v) content
  | some .paragraph => .paragraph content
  | some .bulletList => .bulletList content
  | some .orderedList => .orderedList (startOf v) content
  | some .listItem => .listItem content
  | some .codeBlock => .codeBlock (languageOf v) content
  | some .blockquote => .blockquote content
  | some .table => .table content
  | some .mathInline => .mathInline (mathSourceOf v)
  | some .mathDisplay => .mathDisplay (mathSourceOf v)
  | some .horizontalRule => .horizontalRule
  | some .hardBreak => .hardBreak
  | some .text => .text (literalOf v) (marksOf v)
  | none => .unknown (typeOf? v) content

/-! ### Decoding -/

/-- The values in the places of a value's children. -/
def contentOf (v : Value) : List Value :=
  ((v.get? "content").bind (·.array?)).getD []

theorem weight_lt_of_mem_contentOf {item v : Value} (h : item ∈ contentOf v) :
    item.weight < v.weight := by
  unfold contentOf at h
  cases found : v.get? "content" with
  | none => simp [found] at h
  | some content =>
    cases content with
    | array items =>
      simp only [found, Option.bind_some, Json.Value.array?, Option.getD_some] at h
      have := Value.weight_get?_lt found
      have := Value.weight_le_weightItems h
      simp only [Json.Value.weight] at *
      omega
    | _ => simp [found, Json.Value.array?] at h

/-- The value that a string in the place of a node stands for, if the string spells an object. -/
def embedded? (raw : String) : Option Value :=
  match Json.parse raw with
  | .ok (.object members) => some (.object members)
  | _ => none

theorem weight_lt_of_embedded? {raw : String} {v : Value} (h : embedded? raw = some v) :
    v.weight < (Value.string raw).weight := by
  unfold embedded? at h
  split at h
  · next members parsed =>
    cases h
    have := Json.weight_le_of_parse parsed
    simp only [Json.Value.weight] at *
    omega
  · cases h

/-- The tree that a JSON value spells. Each step goes on to lighter values: the items of a list
weigh less than the object around it, and a value weighs less than the string it was read from. -/
def ofJson (v : Value) : Node :=
  match v with
  | .string raw =>
    match _h : embedded? raw with
    | some inner => ofJson inner
    | none => .unknown none []
  | other => assemble other ((contentOf other).attach.map fun item => ofJson item.1)
termination_by v.weight
decreasing_by
  · exact weight_lt_of_embedded? _h
  · exact weight_lt_of_mem_contentOf item.2

/-- The tree that a JSON text spells. -/
def ofText (text : String) : Except Json.Fault Node :=
  (Json.parse text).map ofJson

end Node
end Galley.Document
