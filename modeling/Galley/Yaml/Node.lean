import Galley.Yaml.Token.Scan
/-!
# Documents of YAML

A document is a tree of nodes. An anchor names a node, and an alias stands for the node of its
anchor. Anchors are numbered: a name that is given to a node gets the number of names known before.
The alias refers to the last node of its number.
-/
namespace Galley.Yaml

/-- What a node has in front of its content, and where it begins. -/
structure Header where
  place : Place
  anchor : Option Nat
  tag : Option String
deriving DecidableEq, Repr

inductive Node where
  | alias (place : Place) (number : Nat)
  | scalar (header : Header) (style : Style) (text : String)
  | sequence (header : Header) (items : List Node)
  | mapping (header : Header) (entries : List (Node × Node))
deriving Repr

namespace Node

def place : Node → Place
  | .alias place _ => place
  | .scalar header _ _ => header.place
  | .sequence header _ => header.place
  | .mapping header _ => header.place

mutual

/-- The number of steps that a walk over the node takes: one for a leaf, and one on either side of
a collection. -/
def steps : Node → Nat
  | .alias _ _ => 1
  | .scalar _ _ _ => 1
  | .sequence _ items => stepsOfItems items + 2
  | .mapping _ entries => stepsOfEntries entries + 2

def stepsOfItems : List Node → Nat
  | [] => 0
  | item :: rest => steps item + stepsOfItems rest

def stepsOfEntries : List (Node × Node) → Nat
  | [] => 0
  | (key, value) :: rest => steps key + steps value + stepsOfEntries rest

end

/-- A node under its number, if it has an anchor. -/
def numbered (header : Header) (node : Node) : List (Nat × Node) :=
  (header.anchor.map fun number => (number, node)).toList

mutual

/-- The nodes with anchors, in the order in which they begin. -/
def anchored : Node → List (Nat × Node)
  | .alias _ _ => []
  | .scalar header style text => numbered header (.scalar header style text)
  | .sequence header items => numbered header (.sequence header items) ++ anchoredItems items
  | .mapping header entries => numbered header (.mapping header entries) ++ anchoredEntries entries

def anchoredItems : List Node → List (Nat × Node)
  | [] => []
  | item :: rest => anchored item ++ anchoredItems rest

def anchoredEntries : List (Node × Node) → List (Nat × Node)
  | [] => []
  | (key, value) :: rest => anchored key ++ anchored value ++ anchoredEntries rest

end

end Node

/-- A document; a text without one has no root. -/
structure Document where
  root : Option Node
  anchored : List (Nat × Node)
deriving Repr

namespace Document

def ofRoot (root : Option Node) : Document where
  root
  anchored := (root.map Node.anchored).getD []

/-- The node that an alias stands for; any other node stands for itself. -/
def target? (document : Document) : Node → Option Node
  | .alias _ number => (document.anchored.findRev? fun entry => entry.1 = number).map Prod.snd
  | node => some node

end Document
end Galley.Yaml
