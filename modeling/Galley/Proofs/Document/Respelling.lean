import Galley.Proofs.Document.Embedding
import Mathlib.Logic.Relation
/-!
# Other spellings of a document

The same tree may be spelled in several ways. A change replaces one spelling by another at one
place, at any depth and in a string that spells a node, too. What is read of a value depends on its
place: nodes, attributes and marks are read by some of their members only, and of what stands in
other places it only matters whether it is a text or a number, and which.

A change of any kind leaves what is read at its place (`alike_of_change`), so whole documents decode
alike after any number of changes.

## Main result

`ofJson_eq_of_changes`.
-/
namespace Galley.Document

open Galley.Json (Value parse)
open Galley.Json.Value (lookup)

/-! ### Changes -/

/-- What a value is read as. -/
inductive Place where
  | node
  | content
  | attributes
  | marks
  | mark
  /-- As a text or a number, if at all. -/
  | elsewhere

namespace Place

/-- The place of a member of an object that stands in a place. -/
def member : Place → String → Place
  | .node, name =>
    if name = "attrs" then .attributes
    else if name = "content" then .content
    else if name = "marks" then .marks
    else .elsewhere
  | _, _ => .elsewhere

/-- The place of an item of an array that stands in a place. -/
def item : Place → Place
  | .content => .node
  | .marks => .mark
  | _ => .elsewhere

/-- The members that stay when others come or go. -/
def keys : Place → List String
  | .node | .mark => ["type", "attrs", "content", "text", "marks"]
  | .attributes => ["level", "start", "language", "latex", "source"]
  | _ => []

end Place

/-- The kinds of nodes that have two names. -/
def kindSpellings : List (String × String) :=
  [("doc", "document"), ("bulletList", "bullet_list"), ("orderedList", "ordered_list"),
    ("listItem", "list_item"), ("codeBlock", "code_block"), ("mathInline", "math_inline"),
    ("mathDisplay", "math_display"), ("horizontalRule", "horizontal_rule"),
    ("hardBreak", "hard_break")]

def markSpellings : List (String × String) := [("bold", "strong"), ("italic", "em")]

def knownMarks : List String := ["bold", "strong", "italic", "em", "code"]

/-- A value that is not a known mark, neither by its name nor by its type. -/
def IsUnknownMark (v : Value) : Prop :=
  ∀ name ∈ knownMarks, v ≠ .string name ∧ v.get? "type" ≠ some (.string name)

/-- The members of one object with another value under one name. -/
structure Replaced (name : String) (v w : Value) (members given : List (String × Value)) :
    Prop where
  before : lookup name members = some v
  after : lookup name given = some w
  others : ∀ other, other ≠ name → lookup other given = lookup other members

/-- One change to a value in a place. An object is known by what its names stand for. -/
inductive Change : Place → Value → Value → Prop
  /-- A kind goes by its other name. -/
  | kind {one other : String} {members given : List (String × Value)}
      (names : (one, other) ∈ kindSpellings)
      (type : Replaced "type" (.string one) (.string other) members given) :
    Change .node (.object members) (.object given)
  /-- A mark goes by its other name. -/
  | markType {one other : String} {members given : List (String × Value)}
      (names : (one, other) ∈ markSpellings)
      (type : Replaced "type" (.string one) (.string other) members given) :
    Change .mark (.object members) (.object given)
  | markName {one other : String} (names : (one, other) ∈ markSpellings) :
    Change .mark (.string one) (.string other)
  /-- A mark is given by an object, not by its name alone. -/
  | markForm (name : String) : Change .mark (.string name) (.object [("type", .string name)])
  /-- An unknown mark is added. -/
  | unknownMark {before after : List Value} {mark : Value} (unknown : IsUnknownMark mark) :
    Change .marks (.array (before ++ after)) (.array (before ++ mark :: after))
  /-- A node is given an empty array of marks, to which unknown ones may be added. -/
  | noMarks {members given : List (String × Value)} (absent : lookup "marks" members = none)
      (empty : lookup "marks" given = some (.array []))
      (others : ∀ other, other ≠ "marks" → lookup other given = lookup other members) :
    Change .node (.object members) (.object given)
  /-- The source of a formula is moved, and whatever is left in its place is not a text. -/
  | source {text : String} {members given : List (String × Value)}
      (latex : lookup "latex" members = some (.string text))
      (moved : lookup "source" given = some (.string text))
      (cleared : (lookup "latex" given).bind Value.string? = none)
      (others : ∀ other, other ≠ "latex" → other ≠ "source" →
        lookup other given = lookup other members) :
    Change .attributes (.object members) (.object given)
  /-- Members or items that are not read at a place come, go or change. -/
  | foreign {place : Place} {members given : List (String × Value)}
      (kept : ∀ name ∈ place.keys, lookup name given = lookup name members) :
    Change place (.object members) (.object given)
  | items {place : Place} {items given : List Value} (unread : place.item = .elsewhere) :
    Change place (.array items) (.array given)
  /-- A change inside a member of an object. -/
  | member {place : Place} {name : String} {v w : Value} {members given : List (String × Value)}
      (replaced : Replaced name v w members given) (change : Change (place.member name) v w) :
    Change place (.object members) (.object given)
  /-- A change inside an item of an array. -/
  | item {place : Place} {before after : List Value} {v w : Value}
      (change : Change place.item v w) :
    Change place (.array (before ++ v :: after)) (.array (before ++ w :: after))
  /-- A change inside an object that is given as a string. -/
  | text {raw other : String} {members given : List (String × Value)}
      (spells : parse raw = .ok (.object members)) (spells' : parse other = .ok (.object given))
      (change : Change .node (.object members) (.object given)) :
    Change .node (.string raw) (.string other)

namespace Node

/-! ### What is read -/

/-- What is read of the attributes of a node. -/
def attributesOf (v : Value) : UInt8 × UInt64 × Option String × String :=
  (levelOf v, startOf v, languageOf v, mathSourceOf v)

/-- A text or a number. -/
def scalar? : Value → Option Value
  | .string s => some (.string s)
  | .number n => some (.number n)
  | _ => none

def itemsOf (v : Value) : List Value := v.array?.getD []

/-- The node that has just these attributes. -/
def withAttributes (v : Value) : Value := .object [("attrs", v)]

/-- Two values from which the same is read at a place. -/
def Alike : Place → Value → Value → Prop
  | .node, v, w => ofJson w = ofJson v
  | .content, v, w => (itemsOf w).map ofJson = (itemsOf v).map ofJson
  | .attributes, v, w => attributesOf (withAttributes w) = attributesOf (withAttributes v)
  | .marks, v, w => (itemsOf w).filterMap markOf? = (itemsOf v).filterMap markOf?
  | .mark, v, w => markOf? w = markOf? v
  | .elsewhere, v, w => scalar? w = scalar? v

theorem string?_eq_scalar? (v : Value) : v.string? = (scalar? v).bind Value.string? := by
  cases v <;> rfl

/-! ### Attributes -/

/-- What is read of one attribute. -/
def attributeScalar? (name : String) (v : Value) : Option Value :=
  (attribute? name v).bind scalar?

/-- The number that a value gives as an attribute. -/
def natural? (v : Value) : Option UInt64 :=
  naturalAttribute? "" (withAttributes (.object [("", v)]))

theorem textAttribute?_eq (name : String) (v : Value) :
    textAttribute? name v = (attributeScalar? name v).bind Value.string? := by
  rw [textAttribute?, attributeScalar?]
  cases attribute? name v with
  | none => rfl
  | some a => exact string?_eq_scalar? a

theorem naturalAttribute?_eq (name : String) (v : Value) :
    naturalAttribute? name v = (attributeScalar? name v).bind natural? := by
  rw [attributeScalar?]
  cases found : attribute? name v with
  | none =>
    rw [naturalAttribute?, found]
    rfl
  | some a =>
    -- the name of an attribute does not matter, only its value
    have alone : attribute? "" (withAttributes (.object [("", a)])) = some a := rfl
    have same : naturalAttribute? name v = natural? a := by
      rw [natural?, naturalAttribute?, naturalAttribute?, found, alone]
    rw [same, Option.bind_some]
    cases a with
    | number | string => rw [scalar?, Option.bind_some]
    | null | bool | array | object =>
      rw [natural?, naturalAttribute?, alone]
      rfl

theorem attributesOf_congr {v w : Value}
    (same : ∀ name ∈ Place.keys .attributes, attributeScalar? name w = attributeScalar? name v) :
    attributesOf w = attributesOf v := by
  simp only [Place.keys, List.forall_mem_cons] at same
  obtain ⟨level, start, language, latex, source, -⟩ := same
  simp only [attributesOf, levelOf, startOf, languageOf, mathSourceOf, textAttribute?_eq,
    naturalAttribute?_eq, level, start, language, latex, source]

/-- Moving the source of a formula leaves it what it is. -/
theorem attributesOf_source {v w : Value} {text : String}
    (kept : ∀ name ∈ ["level", "start", "language"],
      attributeScalar? name w = attributeScalar? name v)
    (latex : textAttribute? "latex" v = some text) (cleared : textAttribute? "latex" w = none)
    (moved : textAttribute? "source" w = some text) : attributesOf w = attributesOf v := by
  simp only [List.forall_mem_cons] at kept
  obtain ⟨level, start, language, -⟩ := kept
  -- what is under `latex` now gives way to the other name
  have source : mathSourceOf w = mathSourceOf v := by
    rw [mathSourceOf, mathSourceOf, cleared, latex, moved]
    rfl
  simp only [attributesOf, source, levelOf, startOf, languageOf, textAttribute?_eq,
    naturalAttribute?_eq, level, start, language]

/-! ### Nodes by their members -/

/-- What a name stands for is the same, or the same is read of it. -/
def MemberAlike (place : Place) (found given : Option Value) : Prop :=
  given = found ∨ ∃ v w, found = some v ∧ given = some w ∧ Alike place v w

variable {v w : Value}

theorem bind_string?_eq {found given : Option Value}
    (alike : MemberAlike .elsewhere found given) :
    given.bind Value.string? = found.bind Value.string? := by
  obtain rfl | ⟨v, w, rfl, rfl, alike⟩ := alike
  · rfl
  · rw [Option.bind_some, Option.bind_some, string?_eq_scalar?, string?_eq_scalar? v]
    exact congrArg (·.bind Value.string?) alike

theorem typeOf?_eq (alike : MemberAlike .elsewhere (v.get? "type") (w.get? "type")) :
    typeOf? w = typeOf? v := bind_string?_eq alike

theorem literalOf_eq (alike : MemberAlike .elsewhere (v.get? "text") (w.get? "text")) :
    literalOf w = literalOf v := by
  rw [literalOf, literalOf, bind_string?_eq alike]

theorem attributesOf_of_get? {a : Value} (found : v.get? "attrs" = some a) :
    attributesOf v = attributesOf (withAttributes a) := by
  refine attributesOf_congr fun name _ => ?_
  rw [attributeScalar?, attribute?, found]
  rfl

theorem attributesOf_eq (alike : MemberAlike .attributes (v.get? "attrs") (w.get? "attrs")) :
    attributesOf w = attributesOf v := by
  obtain same | ⟨a, b, found, found', alike⟩ := alike
  · refine attributesOf_congr fun name _ => ?_
    rw [attributeScalar?, attribute?, same]
    rfl
  · rw [attributesOf_of_get? found, attributesOf_of_get? found']
    exact alike

theorem marksOf_of_get? {marks : Value} (found : v.get? "marks" = some marks) :
    marksOf v = (itemsOf marks).filterMap markOf? := by
  rw [marksOf, found]
  cases marks <;> rfl

theorem marksOf_eq (alike : MemberAlike .marks (v.get? "marks") (w.get? "marks")) :
    marksOf w = marksOf v := by
  obtain same | ⟨a, b, found, found', alike⟩ := alike
  · rw [marksOf, marksOf, same]
  · rw [marksOf_of_get? found, marksOf_of_get? found']
    exact alike

theorem contentOf_eq (alike : MemberAlike .content (v.get? "content") (w.get? "content")) :
    (contentOf w).map ofJson = (contentOf v).map ofJson := by
  obtain same | ⟨a, b, found, found', alike⟩ := alike
  · rw [contentOf, contentOf, same]
  · rw [contentOf, contentOf, found, found']
    exact alike

/-- Of the type of a node the name is read, or only the kind that it stands for. -/
def SameKind (v w : Value) : Prop :=
  typeOf? w = typeOf? v ∨
    ∃ kind, (typeOf? v).bind Kind.ofName? = some kind ∧ (typeOf? w).bind Kind.ofName? = some kind

theorem assemble_congr (kind : SameKind v w) (attributes : attributesOf w = attributesOf v)
    (literal : literalOf w = literalOf v) (marks : marksOf w = marksOf v) (content : List Node) :
    assemble w content = assemble v content := by
  simp only [attributesOf, Prod.mk.injEq] at attributes
  obtain ⟨level, start, language, source⟩ := attributes
  -- the name of a type shows only in nodes of no known kind
  obtain same | ⟨kind, one, other⟩ := kind
  · rw [assemble, assemble, same, level, start, language, source, literal, marks]
  · rw [assemble, assemble, one, other, level, start, language, source, literal, marks]
    cases kind <;> rfl

theorem ofJson_congr {members given : List (String × Value)}
    (kind : SameKind (.object members) (.object given))
    (attributes : MemberAlike .attributes (lookup "attrs" members) (lookup "attrs" given))
    (literal : MemberAlike .elsewhere (lookup "text" members) (lookup "text" given))
    (marks : marksOf (.object given) = marksOf (.object members))
    (content : MemberAlike .content (lookup "content" members) (lookup "content" given)) :
    ofJson (.object given) = ofJson (.object members) := by
  have children : (contentOf (.object given)).map ofJson =
      (contentOf (.object members)).map ofJson := contentOf_eq content
  rw [ofJson_eq_assemble rfl, ofJson_eq_assemble rfl, children,
    assemble_congr kind (attributesOf_eq attributes) (literalOf_eq literal) marks]

theorem ofJson_eq_of_members {members given : List (String × Value)}
    (each : ∀ name ∈ Place.keys .node,
      MemberAlike (Place.member .node name) (lookup name members) (lookup name given)) :
    ofJson (.object given) = ofJson (.object members) := by
  simp only [Place.keys, List.forall_mem_cons] at each
  obtain ⟨type, attributes, content, text, marks, -⟩ := each
  exact ofJson_congr (.inl (typeOf?_eq type)) attributes text (marksOf_eq marks) content

/-! ### One change -/

theorem ofName?_eq_of_kindSpellings {one other : String} (names : (one, other) ∈ kindSpellings) :
    ∃ kind, Kind.ofName? one = some kind ∧ Kind.ofName? other = some kind := by
  have all : ∀ names ∈ kindSpellings, (Kind.ofName? names.1).isSome ∧
      Kind.ofName? names.2 = Kind.ofName? names.1 := by decide
  obtain ⟨known, same⟩ := all _ names
  obtain ⟨kind, found⟩ := Option.isSome_iff_exists.mp known
  exact ⟨kind, found, same.trans found⟩

theorem ofName?_eq_of_markSpellings {one other : String} (names : (one, other) ∈ markSpellings) :
    Mark.ofName? other = Mark.ofName? one := by
  have all : ∀ names ∈ markSpellings, Mark.ofName? names.2 = Mark.ofName? names.1 := by decide
  exact all _ names

theorem markOf?_object (members : List (String × Value)) :
    markOf? (.object members) =
      ((lookup "type" members).bind Value.string?).bind Mark.ofName? := by
  rw [markOf?]
  split
  next name found => exact (congrArg (·.bind Mark.ofName?) found).symm
  next missing => exact (congrArg (·.bind Mark.ofName?) missing).symm

theorem ofName?_eq_none_of_unknown {name : String} (unknown : name ∉ knownMarks) :
    Mark.ofName? name = none := by
  simp only [knownMarks, List.mem_cons, List.not_mem_nil, or_false, not_or] at unknown
  obtain ⟨bold, strong, italic, em, code⟩ := unknown
  rw [Mark.ofName?, if_neg (not_or.mpr ⟨bold, strong⟩), if_neg (not_or.mpr ⟨italic, em⟩),
    if_neg code]

theorem string?_eq_some {v : Value} {s : String} : v.string? = some s ↔ v = .string s := by
  cases v <;> simp [Value.string?]

theorem markOf?_eq_none {mark : Value} (unknown : IsUnknownMark mark) : markOf? mark = none := by
  rw [markOf?]
  split
  next name found =>
    obtain ⟨type, found, same⟩ := Option.bind_eq_some_iff.mp found
    rw [string?_eq_some.mp same] at found
    exact ofName?_eq_none_of_unknown fun known => (unknown name known).2 found
  · refine Option.bind_eq_none_iff.mpr fun name same => ofName?_eq_none_of_unknown fun known => ?_
    exact (unknown name known).1 (string?_eq_some.mp same)

variable {members given : List (String × Value)}

theorem attributeScalar?_withAttributes (name : String) (members : List (String × Value)) :
    attributeScalar? name (withAttributes (.object members)) =
      (lookup name members).bind scalar? := rfl

/-- Attributes, and what their names stand for. -/
theorem alike_attributes
    (each : ∀ name ∈ Place.keys .attributes,
      MemberAlike .elsewhere (lookup name members) (lookup name given)) :
    Alike .attributes (.object members) (.object given) := by
  refine attributesOf_congr fun name key => ?_
  rw [attributeScalar?_withAttributes, attributeScalar?_withAttributes]
  obtain same | ⟨v, w, found, found', alike⟩ := each name key
  · rw [same]
  · rw [found, found']
    exact alike

theorem alike_mark (type : MemberAlike .elsewhere (lookup "type" members) (lookup "type" given)) :
    Alike .mark (.object members) (.object given) := by
  change markOf? _ = markOf? _
  rw [markOf?_object, markOf?_object, bind_string?_eq type]

/-- Objects in a place of which the same is read by all the names that count there. -/
theorem alike_object {place : Place}
    (each : ∀ name ∈ place.keys,
      MemberAlike (place.member name) (lookup name members) (lookup name given)) :
    Alike place (.object members) (.object given) := by
  cases place with
  | node => exact ofJson_eq_of_members each
  | attributes => exact alike_attributes each
  | mark => exact alike_mark (each "type" (by decide))
  | content | marks | elsewhere => rfl

theorem memberAlike_of_replaced {place : Place} {name : String}
    (replaced : Replaced name v w members given) (alike : Alike (place.member name) v w)
    (other : String) :
    MemberAlike (place.member other) (lookup other members) (lookup other given) := by
  by_cases same : other = name
  · subst same
    exact .inr ⟨v, w, replaced.before, replaced.after, alike⟩
  · exact .inl (replaced.others other same)

theorem alike_items {place : Place} (unread : place.item = .elsewhere)
    (items given : List Value) : Alike place (.array items) (.array given) := by
  cases place with
  | content | marks => cases unread
  | node =>
    -- an array has no members, so nothing of a node can be read of it
    change ofJson _ = ofJson _
    rw [ofJson_eq_assemble rfl, ofJson_eq_assemble rfl]
    rfl
  | attributes | mark | elsewhere => rfl

theorem alike_array {place : Place} {before after : List Value} (alike : Alike place.item v w) :
    Alike place (.array (before ++ v :: after)) (.array (before ++ w :: after)) := by
  cases place with
  | node | attributes | mark | elsewhere => exact alike_items rfl _ _
  | content =>
    change (before ++ w :: after).map ofJson = (before ++ v :: after).map ofJson
    rw [List.map_append, List.map_append, List.map_cons, List.map_cons, alike]
  | marks =>
    change (before ++ w :: after).filterMap markOf? = (before ++ v :: after).filterMap markOf?
    rw [List.filterMap_append, List.filterMap_append, List.filterMap_cons, List.filterMap_cons,
      alike]

theorem alike_unknownMark {before after : List Value} {mark : Value}
    (unknown : IsUnknownMark mark) :
    Alike .marks (.array (before ++ after)) (.array (before ++ mark :: after)) := by
  change (before ++ mark :: after).filterMap markOf? = (before ++ after).filterMap markOf?
  rw [List.filterMap_append, List.filterMap_append,
    List.filterMap_cons_none (markOf?_eq_none unknown)]

theorem alike_kind {one other : String} (names : (one, other) ∈ kindSpellings)
    (type : Replaced "type" (.string one) (.string other) members given) :
    Alike .node (.object members) (.object given) := by
  have kept (name : String) (differs : name ≠ "type") {place : Place} :
      MemberAlike place (lookup name members) (lookup name given) := .inl (type.others name differs)
  obtain ⟨kind, known, known'⟩ := ofName?_eq_of_kindSpellings names
  have named : typeOf? (.object members) = some one :=
    congrArg (·.bind Value.string?) type.before
  have renamed : typeOf? (.object given) = some other :=
    congrArg (·.bind Value.string?) type.after
  refine ofJson_congr (.inr ⟨kind, ?_, ?_⟩) (kept _ (by decide)) (kept _ (by decide))
    (marksOf_eq (kept _ (by decide))) (kept _ (by decide))
  · rw [named]
    exact known
  · rw [renamed]
    exact known'

theorem alike_noMarks (absent : lookup "marks" members = none)
    (empty : lookup "marks" given = some (.array []))
    (others : ∀ other, other ≠ "marks" → lookup other given = lookup other members) :
    Alike .node (.object members) (.object given) := by
  have kept (name : String) (differs : name ≠ "marks") {place : Place} :
      MemberAlike place (lookup name members) (lookup name given) := .inl (others name differs)
  have unmarked : marksOf (.object members) = [] := by
    rw [marksOf, Value.get?, absent]
    rfl
  have unmarked' : marksOf (.object given) = [] := by
    rw [marksOf, Value.get?, empty]
    rfl
  exact ofJson_congr (.inl (typeOf?_eq (kept _ (by decide)))) (kept _ (by decide))
    (kept _ (by decide)) (unmarked'.trans unmarked.symm) (kept _ (by decide))

theorem alike_source {text : String} (latex : lookup "latex" members = some (.string text))
    (moved : lookup "source" given = some (.string text))
    (cleared : (lookup "latex" given).bind Value.string? = none)
    (others : ∀ other, other ≠ "latex" → other ≠ "source" →
      lookup other given = lookup other members) :
    Alike .attributes (.object members) (.object given) := by
  refine attributesOf_source (fun name key => ?_) (congrArg (·.bind Value.string?) latex) cleared
    (congrArg (·.bind Value.string?) moved)
  rw [attributeScalar?_withAttributes, attributeScalar?_withAttributes, others name]
  · rintro rfl
    exact absurd key (by decide)
  · rintro rfl
    exact absurd key (by decide)

/-- A change leaves what is read at its place. -/
theorem alike_of_change {place : Place} {v w : Value} (change : Change place v w) :
    Alike place v w := by
  induction change with
  | kind names type => exact alike_kind names type
  | markType names type =>
    change markOf? _ = markOf? _
    rw [markOf?_object, markOf?_object, type.before, type.after]
    exact ofName?_eq_of_markSpellings names
  | markName names => exact ofName?_eq_of_markSpellings names
  | markForm name => rfl
  | unknownMark unknown => exact alike_unknownMark unknown
  | noMarks absent empty others => exact alike_noMarks absent empty others
  | source latex moved cleared others => exact alike_source latex moved cleared others
  | foreign kept => exact alike_object fun name key => .inl (kept name key)
  | items unread => exact alike_items unread _ _
  | member replaced _ ih =>
    exact alike_object fun other _ => memberAlike_of_replaced replaced ih other
  | item _ ih => exact alike_array ih
  | text spells spells' _ ih =>
    change ofJson _ = ofJson _
    rw [ofJson_string spells, ofJson_string spells']
    exact ih

/-- **Decoding does not depend on the spelling.** Any number of changes, there and back, leave the
decoded tree. -/
theorem ofJson_eq_of_changes {v w : Value} (changes : Relation.EqvGen (Change .node) v w) :
    ofJson w = ofJson v := by
  induction changes with
  | rel _ _ change => exact alike_of_change change
  | refl => rfl
  | symm _ _ _ ih => exact ih.symm
  | trans _ _ _ _ _ ih ih' => exact ih'.trans ih

end Node
end Galley.Document
