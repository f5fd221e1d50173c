import Galley.Proofs.Document.Decode
/-!
# Spelling documents as JSON

A tree is spelled by objects that name the kind of each node and give its attributes, its text and
marks, and the spellings of its children. Decoding undoes that for every tree that decoding can give
at all: canonical trees, in which no code block has an empty language and no unknown node claims the
name of a known kind.

## Main result

`decoding_roundTrip`: decoded trees are canonical, and the spelling of a canonical tree decodes to
the tree.
-/
namespace Galley.Document

open Galley.Json (Value)

/-- The two ways in which a mark may be spelled. -/
inductive MarkForm where
  | bare
  | tagged
deriving DecidableEq, Repr

/-- A mark as a JSON value, by its name alone or as an object of that type. -/
def MarkForm.spell : MarkForm → Mark → Value
  | .bare, mark => .string mark.name
  | .tagged, mark => .object [("type", .string mark.name)]

namespace Node

/-! ### Canonical trees -/

/-- A node that decoding can give, its children apart. -/
def IsCanonical : Node → Prop
  | .codeBlock language _ => language ≠ some ""
  | .unknown kind _ => ∀ name, kind = some name → name ∉ kindNames.map Prod.fst
  | _ => True

theorem not_mem_kindNames_of_ofName? {name : String} (unknown : Kind.ofName? name = none) :
    name ∉ kindNames.map Prod.fst := by
  rw [Kind.ofName?, List.lookup_eq_none_iff] at unknown
  intro member
  obtain ⟨entry, listed, rfl⟩ := List.mem_map.mp member
  simpa using unknown entry listed

theorem ofName?_eq_none {name : String} (unlisted : name ∉ kindNames.map Prod.fst) :
    Kind.ofName? name = none := by
  rw [Kind.ofName?, List.lookup_eq_none_iff]
  intro entry listed
  refine bne_iff_ne.mpr fun same => ?_
  exact unlisted (List.mem_map.mpr ⟨entry, listed, same.symm⟩)

theorem languageOf_ne_empty (v : Value) : languageOf v ≠ some "" := by
  intro same
  have kept := (Option.filter_eq_some_iff.mp same).2
  exact absurd kept (by decide)

theorem isCanonical_assemble (v : Value) (content : List Node) :
    (assemble v content).IsCanonical := by
  unfold assemble
  split
  -- the languages of code blocks are filtered, and unknown kinds missed the table of names
  case h_7 => exact languageOf_ne_empty v
  case h_15 unknown =>
    intro name named
    rw [named] at unknown
    exact not_mem_kindNames_of_ofName? unknown
  all_goals exact trivial

/-- Whatever is decoded is canonical at every node. -/
theorem everywhere_isCanonical_ofJson (v : Value) : (ofJson v).Everywhere IsCanonical := by
  induction v using ofJson_induction with
  | embedded raw inner found ih =>
    rw [ofJson_string_of_embedded? found]
    exact ih
  | foreign raw missing =>
    rw [ofJson_string_of_none missing]
    exact .leaf (fun name named => by cases named) rfl
  | plain v plain ih =>
    rw [ofJson_eq_assemble plain]
    refine .of (isCanonical_assemble v _) fun child member => ?_
    rcases children_assemble v ((contentOf v).map ofJson) with kept | dropped
    · rw [kept] at member
      obtain ⟨item, inside, rfl⟩ := List.mem_map.mp member
      exact ih item inside
    · rw [dropped] at member
      cases member

/-! ### Spelling -/

/-- The type of a node; a node of no kind has none. -/
def spelledType : Node → List (String × Value)
  | .unknown none _ => []
  | node => [("type", .string node.kindName)]

def spelledAttributes : Node → List (String × Value)
  | .heading level _ => [("level", .number (.natural level.toUInt64))]
  | .orderedList start _ => [("start", .number (.natural start))]
  | .codeBlock (some language) _ => [("language", .string language)]
  | .mathInline source => [("latex", .string source)]
  | .mathDisplay source => [("latex", .string source)]
  | _ => []

def spelledText (form : MarkForm) : Node → List (String × Value)
  | .text literal marks =>
    [("text", .string literal), ("marks", .array (marks.map form.spell))]
  | _ => []

/-- A tree as a JSON object. -/
def spell (form : MarkForm) (node : Node) : Value :=
  .object (node.spelledType ++ [("attrs", .object node.spelledAttributes)] ++
    node.spelledText form ++
    [("content", .array (node.children.attach.map fun child => spell form child.1))])
termination_by sizeOf node
decreasing_by exact sizeOf_lt_of_mem_children child.2

theorem spell_eq (form : MarkForm) (node : Node) :
    spell form node = .object (node.spelledType ++ [("attrs", .object node.spelledAttributes)] ++
      node.spelledText form ++ [("content", .array (node.children.map (spell form)))]) := by
  rw [spell, List.map_attach_eq_pmap, List.pmap_eq_map]

example : spell .tagged (.heading 2 [.text "a" [.bold]]) =
    .object [("type", .string "heading"), ("attrs", .object [("level", .number (.natural 2))]),
      ("content", .array [.object [("type", .string "text"), ("attrs", .object []),
        ("text", .string "a"), ("marks", .array [.object [("type", .string "bold")]]),
        ("content", .array [])]])] := by
  rw [spell_eq]
  simp only [children, List.map_cons, List.map_nil, spell_eq]
  rfl

/-! ### Reading a spelled node -/

variable (form : MarkForm) (node : Node)

theorem contentOf_spell : contentOf (spell form node) = node.children.map (spell form) := by
  rw [spell_eq, contentOf, Value.get?, Value.lookup_append]
  rfl

theorem get?_attrs_spell :
    (spell form node).get? "attrs" = some (.object node.spelledAttributes) := by
  rw [spell_eq, Value.get?, Value.lookup_append, Value.lookup_append, Value.lookup_append]
  cases node <;> simp [spelledText, Value.lookup]

theorem attribute?_spell (name : String) :
    attribute? name (spell form node) = Value.lookup name node.spelledAttributes := by
  rw [attribute?, get?_attrs_spell]
  rfl

theorem typeOf?_spell {kind : Option String}
    (typed : Value.lookup "type" node.spelledType = kind.map .string) :
    typeOf? (spell form node) = kind := by
  have found : (spell form node).get? "type" = kind.map .string := by
    rw [spell_eq, Value.get?, Value.lookup_append, Value.lookup_append, Value.lookup_append, typed]
    cases node <;> simp [spelledText, Value.lookup]
  rw [typeOf?, found]
  cases kind <;> rfl

theorem markOf?_spell (mark : Mark) : markOf? (form.spell mark) = some mark := by
  cases form <;> cases mark <;> rfl

theorem literalOf_spell (literal : String) (marks : List Mark) :
    literalOf (spell form (.text literal marks)) = literal := by
  rw [literalOf, spell_eq]
  rfl

theorem marksOf_spell (literal : String) (marks : List Mark) :
    marksOf (spell form (.text literal marks)) = marks := by
  have found : (spell form (.text literal marks)).get? "marks" =
      some (.array (marks.map form.spell)) := by
    rw [spell_eq]
    rfl
  rw [marksOf, found]
  change (marks.map form.spell).filterMap markOf? = marks
  rw [List.filterMap_map]
  have each : markOf? ∘ form.spell = some := funext (markOf?_spell form)
  rw [each, List.filterMap_some]

theorem levelOf_spell (level : UInt8) (content : List Node) :
    levelOf (spell form (.heading level content)) = level := by
  have given : naturalAttribute? "level" (spell form (.heading level content)) =
      some level.toUInt64 := by
    rw [naturalAttribute?, attribute?_spell]
    rfl
  have small : level.toUInt64.toNat = level.toNat := UInt8.toNat_toUInt64 level
  rw [levelOf, given]
  -- a level is a byte, so the clamp changes nothing
  change UInt8.ofNat (min level.toUInt64.toNat 255) = level
  rw [small, Nat.min_eq_left (Nat.le_of_lt_succ level.toNat_lt), UInt8.ofNat_toNat]

theorem startOf_spell (start : UInt64) (items : List Node) :
    startOf (spell form (.orderedList start items)) = start := by
  rw [startOf, naturalAttribute?, attribute?_spell]
  rfl

theorem languageOf_spell {language : Option String} (given : language ≠ some "")
    (content : List Node) :
    languageOf (spell form (.codeBlock language content)) = language := by
  rw [languageOf, textAttribute?, attribute?_spell]
  cases language with
  | none => rfl
  | some name =>
    have full : name.isEmpty = false := by
      rw [Bool.eq_false_iff]
      intro empty
      exact given (congrArg some (String.isEmpty_iff.mp empty))
    simp [spelledAttributes, Value.lookup, Value.string?, Option.filter, full]

theorem mathSourceOf_spell {source : String}
    (given : node.spelledAttributes = [("latex", .string source)]) :
    mathSourceOf (spell form node) = source := by
  rw [mathSourceOf, textAttribute?, attribute?_spell, given]
  rfl

theorem assemble_spell (canonical : node.IsCanonical) :
    assemble (spell form node) node.children = node := by
  have typed (kind : Option String)
      (same : Value.lookup "type" node.spelledType = kind.map .string) :
      (typeOf? (spell form node)).bind Kind.ofName? = kind.bind Kind.ofName? := by
    rw [typeOf?_spell form node same]
  cases node with
  | document content => rw [assemble, typed (some "doc") rfl]; rfl
  | heading level content =>
    rw [assemble, typed (some "heading") rfl, levelOf_spell]
    rfl
  | paragraph content => rw [assemble, typed (some "paragraph") rfl]; rfl
  | bulletList items => rw [assemble, typed (some "bulletList") rfl]; rfl
  | orderedList start items =>
    rw [assemble, typed (some "orderedList") rfl, startOf_spell]
    rfl
  | listItem content => rw [assemble, typed (some "listItem") rfl]; rfl
  | codeBlock language content =>
    rw [assemble, typed (some "codeBlock") rfl, languageOf_spell form canonical]
    rfl
  | blockquote content => rw [assemble, typed (some "blockquote") rfl]; rfl
  | table content => rw [assemble, typed (some "table") rfl]; rfl
  | mathInline source =>
    rw [assemble, typed (some "mathInline") rfl, mathSourceOf_spell form _ rfl]
    rfl
  | mathDisplay source =>
    rw [assemble, typed (some "mathDisplay") rfl, mathSourceOf_spell form _ rfl]
    rfl
  | horizontalRule => rw [assemble, typed (some "horizontalRule") rfl]; rfl
  | hardBreak => rw [assemble, typed (some "hardBreak") rfl]; rfl
  | text literal marks =>
    rw [assemble, typed (some "text") rfl, literalOf_spell, marksOf_spell]
    rfl
  | unknown kind content =>
    -- the kind is spelled as a type like any other, but no table has it
    have same : Value.lookup "type" (Node.unknown kind content).spelledType =
        kind.map .string := by
      cases kind <;> rfl
    have unlisted : kind.bind Kind.ofName? = none := by
      cases kind with
      | none => rfl
      | some name => exact ofName?_eq_none (canonical name rfl)
    rw [assemble, typed kind same, unlisted, typeOf?_spell form _ same]
    rfl

theorem ofJson_spell (canonical : node.Everywhere IsCanonical) :
    ofJson (spell form node) = node := by
  induction node using induction_children with
  | step node ih =>
    obtain ⟨here, below⟩ := canonical
    have plain : (spell form node).string? = none := by
      rw [spell_eq]
      rfl
    -- the children come back by induction, and the node around them
    have content : (contentOf (spell form node)).map ofJson = node.children := by
      calc (contentOf (spell form node)).map ofJson
        _ = node.children.map (ofJson ∘ spell form) := by rw [contentOf_spell, List.map_map]
        _ = node.children.map id :=
          List.map_congr_left fun child member => ih child member (below child member)
        _ = node.children := List.map_id _
    rw [ofJson_eq_assemble plain, content, assemble_spell form node here]

/-! ### Main theorem -/

/-- **Round trip.** Decoding gives canonical trees only, and every canonical tree: its spelling, in
either form of the marks, decodes to the tree itself. -/
theorem decoding_roundTrip :
    (∀ v : Value, (ofJson v).Everywhere IsCanonical) ∧
      ∀ (form : MarkForm) (node : Node), node.Everywhere IsCanonical →
        ofJson (spell form node) = node :=
  ⟨everywhere_isCanonical_ofJson, ofJson_spell⟩

/-- A tree with the largest level and start, repeated marks, and nodes of no known kind. -/
def outermostTree : Node :=
  .document [.heading 255 [.text "a" [.code, .bold, .code]], .unknown (some "callout") [],
    .orderedList 18446744073709551615 [.unknown none [.codeBlock none []], .mathInline ""]]

theorem decoding_roundTrip_outermost :
    outermostTree.Everywhere IsCanonical ∧
      ofJson (spell .tagged outermostTree) = outermostTree := by
  have heading : (Node.heading 255 [.text "a" [.code, .bold, .code]]).Everywhere IsCanonical :=
    .of trivial (List.forall_mem_singleton.mpr (.leaf trivial rfl))
  have callout : (Node.unknown (some "callout") []).Everywhere IsCanonical :=
    .leaf (fun name same => by cases same; decide) rfl
  have code : (Node.unknown none [.codeBlock none []]).Everywhere IsCanonical :=
    .of nofun (List.forall_mem_singleton.mpr (.leaf nofun rfl))
  have list : (Node.orderedList 18446744073709551615
      [.unknown none [.codeBlock none []], .mathInline ""]).Everywhere IsCanonical :=
    .of trivial (List.forall_mem_cons.mpr
      ⟨code, List.forall_mem_singleton.mpr (.leaf trivial rfl)⟩)
  have canonical : outermostTree.Everywhere IsCanonical :=
    .of trivial (List.forall_mem_cons.mpr ⟨heading, List.forall_mem_cons.mpr
      ⟨callout, List.forall_mem_singleton.mpr list⟩⟩)
  exact ⟨canonical, decoding_roundTrip.2 .tagged outermostTree canonical⟩

end Node
end Galley.Document
