import Galley.Yaml.Document
import Galley.Yaml.Scalar
/-!
# Documents as values

A document stands for a value if its scalars are spelled as their tags say, no key stands twice in
a mapping, integers fit 64 bits, and it is neither nested nor repeated by aliases beyond the limits.
-/
namespace Galley.Yaml

inductive Value where
  | null
  | bool (b : Bool)
  | integer (n : Int)
  | real (x : Real)
  | string (s : String)
  | sequence (items : List Value)
  | mapping (entries : List (Value × Value))
  | tagged (tag : String) (value : Value)
deriving Repr

namespace Value

/-! ### Equality -/

mutual

/-- Whether two values are the same key; the order of a mapping does not count. -/
def same : Value → Value → Bool
  | .null, .null => true
  | .bool a, .bool b => a == b
  | .integer a, .integer b => a == b
  | .real a, .real b => a.same b
  | .string a, .string b => a == b
  | .sequence a, .sequence b => sameItems a b
  | .mapping a, .mapping b => a.length == b.length && sameEntries a b
  | .tagged tag a, .tagged other b => tag == other && same a b
  | _, _ => false

def sameItems : List Value → List Value → Bool
  | [], [] => true
  | a :: rest, b :: more => same a b && sameItems rest more
  | _, _ => false

/-- Whether every entry of the first list is in the second. -/
def sameEntries : List (Value × Value) → List (Value × Value) → Bool
  | [], _ => true
  | (key, value) :: rest, others =>
    others.any (fun entry => same key entry.1 && same value entry.2) && sameEntries rest others

end

/-! ### From nodes -/

/-- Reads part of a value; the state is the number of aliases that may still be followed. -/
abbrev Builds (α : Type) := StateT Nat Option α

/-- The name of a tag of one's own. -/
def ownTag? (tag : Option String) : Option String :=
  match tag.map String.toList with
  | some ('!' :: rest) => some (if rest.isEmpty then "!" else String.ofList rest)
  | _ => none

/-- Puts the header's own tag around a value. -/
def withTag (header : Header) (value : Value) : Value :=
  match ownTag? header.tag with
  | some tag => .tagged tag value
  | none => value

/-- The value of a scalar without its own tag. -/
def ofScalar? (header : Header) (style : Style) (text : String) : Option Value :=
  match Meaning.ofScalar? header.tag style text with
  | some .null => some .null
  | some (.bool b) => some (.bool b)
  | some (.integer n) => some (.integer n)
  | some (.real x) => some (.real x)
  | some .text => some (.string text)
  | some (.wide _) => none
  | none => none

/-- Follows an alias. -/
def follow (document : Document) (node : Node) : Builds Node := do
  match node with
  | .alias _ _ =>
    let left ← get
    if left = 0 then failure
    set (left - 1)
    match document.target? node with
    | some target => return target
    | none => failure
  | other => return other

/-- The value of a node whose parts are read by `below`, if parts are admitted. -/
def ofNode (document : Document) (below : Option (Node → Builds Value)) (node : Node) :
    Builds Value := do
  match ← follow document node, below with
  | .alias _ _, _ => failure
  | .scalar header style text, _ =>
    match ofScalar? header style text with
    | some value => return withTag header value
    | none => failure
  | .sequence header items, some below => return withTag header (.sequence (← items.mapM below))
  | .mapping header entries, some below =>
    let read ← entries.foldlM
      (fun read entry => do
        let key ← below entry.1
        if read.any fun earlier => same key earlier.1 then failure
        return (key, ← below entry.2) :: read)
      []
    return withTag header (.mapping read.reverse)
  | _, none => failure

/-- The value of a node in which collections are nested at most `depth` deep. -/
def ofNodeWithin (document : Document) : (depth : Nat) → Node → Builds Value
  | 0 => ofNode document none
  | depth + 1 => ofNode document (some (ofNodeWithin document depth))

/-- How deep collections may be nested. -/
def depthLimit : Nat := 128

/-- The value of a document. Aliases may repeat its parts up to a hundred times its size. -/
def ofDocument? (document : Document) : Option Value :=
  match document.root with
  | some root => do
    let (value, _) ← (ofNodeWithin document depthLimit root).run (100 * root.steps)
    return value
  | none => some .null

end Value

/-- Whether a text spells one value. -/
def isValue (text : String) : Bool := ((Document.ofText? text).bind Value.ofDocument?).isSome

end Galley.Yaml
