import Galley.Export.Artifact
import Galley.Proofs.Document.Embedding
import Galley.Proofs.Json.Members
/-!
# Articles whose document is stored as a string

The document of an article may be given as an object or as a string that spells one. Readers of the
article cannot tell: as soon as the reading of its text is past the document it holds the same
fields, and from there on it goes the same way.

## Main result

`embedding_transparent`: strings in the places of nodes stand for the objects they spell, in
documents and as the documents of articles, and any other string is an unknown node.
-/
namespace Galley.Article

open Galley.Document (Embeds ItemEmbeds Node)
open Galley.Json (Value Passes bare depthLimit nextItem? nextName? skipSpaces)
open Galley.Rendition (PageStyle)

/-! ### The document in the text of an article -/

/-- The names of the member that holds the document. -/
def contentNames : List String := ["content", "pmJson", "pm_json"]

/-- An article is spelled as an object or as a list of its fields. -/
inductive Form
  | object
  | list

/-- Reading a text as an article comes, after these fields, to its document; a value is read there,
and the rest of the text follows it. -/
inductive ContentAt (text : String) (v : Value) (rest : List Char) : Form → Draft → Prop
  | member {members cs inner after behind : List Char} {first : Bool} {draft : Draft}
      {name : String} (opens : skipSpaces text.toList = '\x7b' :: members)
      (passes : Passes record.accept (depthLimit - 1) record.empty true members draft first cs)
      (next : nextName? first cs = some inner)
      (spelled : bare (Json.takeText inner) = .ok (name, after))
      (named : name ∈ contentNames)
      (fresh : draft.content = none)
      (colon : skipSpaces after = ':' :: behind)
      (reads : bare (Json.value (depthLimit - 1) behind) = .ok (v, rest)) :
    ContentAt text v rest .object draft
  | item {items inner after behind : List Char} {id : String}
      (opens : skipSpaces text.toList = '[' :: items)
      (first : nextItem? 0 items = some inner)
      (named : bare (Json.string (depthLimit - 1) inner) = .ok (id, after))
      (next : nextItem? 1 after = some behind)
      (reads : bare (Json.value (depthLimit - 1) behind) = .ok (v, rest)) :
    ContentAt text v rest .list { id := some id }

/-- Fields with the tree that a value in the place of the document decodes to. -/
def Draft.withContent (draft : Draft) (v : Value) : Draft :=
  { draft with content := some (some (Node.ofJson v)) }

def contentReader (draft : Draft) : Json.Reader Draft :=
  Json.Reader.map (fun content => { draft with content := some content })
    (Json.optional (Json.Reader.map Node.ofJson Json.value))

theorem bare_contentReader {draft : Draft} {v : Value} {depth : Nat} {cs rest : List Char}
    (reads : bare (Json.value depth cs) = .ok (v, rest)) (present : v ≠ .null) :
    bare (contentReader draft depth cs) = .ok (draft.withContent v, rest) := by
  rw [contentReader, Json.bare_map, Json.bare_optional_of_value reads present]
  rfl

theorem accept_content {draft : Draft} {name : String} (named : name ∈ contentNames)
    (fresh : draft.content = none) :
    record.accept draft name = .ok (contentReader draft) := by
  simp only [contentNames, List.mem_cons, List.not_mem_nil, or_false] at named
  -- all three are names of one field, which nothing was read for
  rcases named with rfl | rfl | rfl
  all_goals simp [Json.Record.accept, record, List.find?, fresh, contentReader]

/-- Where a value is read as the document, the fields before it become these. -/
def Gives (v : Value) (next : Draft → Draft) : Prop :=
  ∀ draft depth cs rest, bare (Json.value depth cs) = .ok (v, rest) →
    bare (contentReader draft depth cs) = .ok (next draft, rest)

variable {text : String} {draft : Draft} {v : Value} {rest : List Char} {next : Draft → Draft}

theorem gives_of_ne_null (present : v ≠ .null) : Gives v (·.withContent v) :=
  fun _ _ _ _ reads => bare_contentReader reads present

/-- Behind the document the reading holds what it gives, and goes on with the rest. -/
theorem ContentAt.passes (found : ContentAt text v rest .object draft) (gives : Gives v next) :
    ∃ members, skipSpaces text.toList = '\x7b' :: members ∧
      Passes record.accept (depthLimit - 1) record.empty true members (next draft) false rest := by
  cases found with
  | member opens passes next spelled named fresh colon reads =>
    refine ⟨_, opens, passes.snoc next ?_⟩
    rw [Json.bare_member spelled (accept_content named fresh) colon]
    exact gives _ _ _ _ reads

/-- The same in a list of the fields, in which the document is the second. -/
theorem ContentAt.takeFields (found : ContentAt text v rest .list draft) (gives : Gives v next) :
    ∃ items, skipSpaces text.toList = '[' :: items ∧
      bare (record.takeFields (depthLimit - 1) 0 record.empty items record.fields) =
        bare (record.takeFields (depthLimit - 1) 2 (next draft) rest (record.fields.drop 2)) := by
  cases found with
  | @item items inner after behind id opens first named next reads =>
    refine ⟨_, opens, ?_⟩
    have head : bare (Json.Reader.map (fun id => { record.empty with id := some id }) Json.string
        (depthLimit - 1) inner) = .ok ({ id := some id }, after) := by
      rw [Json.bare_map, named]
      rfl
    exact (record.takeFields_of_item first head).trans
      (record.takeFields_of_item next (gives _ _ _ _ reads))

/-- Two texts that give the same there, after the same fields and before the same rest, spell the
same article, or are at fault alike. -/
theorem ofText_eq_of_gives {form : Form} {one other : String} {w : Value}
    (found : ContentAt one v rest form draft) (found' : ContentAt other w rest form draft)
    (gives : Gives v next) (gives' : Gives w next) : ofText other = ofText one := by
  cases form with
  | object =>
    obtain ⟨members, opens, passes⟩ := found.passes gives
    obtain ⟨members', opens', passes'⟩ := found'.passes gives'
    -- both readings are now at one place
    exact record.decode_eq_of_passes opens' opens passes' passes
  | list =>
    obtain ⟨items, opens, taken⟩ := found.takeFields gives
    obtain ⟨items', opens', taken'⟩ := found'.takeFields gives'
    rw [← taken] at taken'
    exact record.decode_eq_of_takeFields opens' opens taken'

theorem ofText_eq_of_contentAt {form : Form} {one other : String} {w : Value}
    (found : ContentAt one v rest form draft) (found' : ContentAt other w rest form draft)
    (present : v ≠ .null) (present' : w ≠ .null) (same : Node.ofJson w = Node.ofJson v) :
    ofText other = ofText one := by
  have drafts : (fun draft : Draft => draft.withContent w) = fun draft => draft.withContent v := by
    funext draft
    rw [Draft.withContent, same, Draft.withContent]
  exact ofText_eq_of_gives found found' (gives_of_ne_null present)
    (drafts ▸ gives_of_ne_null present')

/-! ### Renditions -/

/-- What is made of an article in one language. -/
structure Renditions where
  markdown : String
  page : String
  jats : String
  plainText : String

def renditions (config : Config) (style : PageStyle) (lang : String) (article : Article) :
    Renditions where
  markdown := Export.markdownSource config article lang
  page := Rendition.Page.render article lang style
  jats := Rendition.Jats.render article lang
  plainText := Rendition.PlainText.render article lang

/-! ### Main theorem -/

/-- **Documents stored as strings are transparent.** A string that spells an object stands for it as
a node; objects in content arrays may be given as such strings anywhere; a string that spells no
object is an unknown node without children; and an article is the same whether its document is given
as an object or as a string. -/
theorem embedding_transparent :
    (∀ raw members, Json.parse raw = .ok (.object members) →
      Node.ofJson (.string raw) = Node.ofJson (.object members)) ∧
    (∀ v given, Embeds v given → Node.ofJson given = Node.ofJson v) ∧
    (∀ raw, (∀ members, Json.parse raw ≠ .ok (.object members)) →
      Node.ofJson (.string raw) = .unknown none []) ∧
    ∀ plain stored form draft members given rest,
      ContentAt plain (.object members) rest form draft →
      ContentAt stored given rest form draft →
      ItemEmbeds (.object members) given →
      ofText stored = ofText plain ∧
        ∀ config style lang, (ofText stored).map (renditions config style lang) =
          (ofText plain).map (renditions config style lang) := by
  refine ⟨fun _ _ => Node.ofJson_string, fun _ _ => Node.ofJson_eq_of_embeds, ?_, ?_⟩
  · intro raw foreign
    refine Node.ofJson_string_of_none (Option.eq_none_iff_forall_ne_some.mpr fun inner found => ?_)
    obtain ⟨members, spells, -⟩ := Node.embedded?_eq_some_iff.mp found
    exact foreign members spells
  · intro plain stored form draft members given rest found found' embeds
    have same : Node.ofJson given = Node.ofJson (.object members) :=
      Node.ofJson_eq_of_itemEmbeds embeds fun _ => Node.ofJson_eq_of_embeds
    -- null would be read as a document that is missing
    have present : given ≠ .null := by
      rintro rfl
      cases embeds with
      | kept inside => cases inside
    have articles := ofText_eq_of_contentAt found found' nofun present same
    exact ⟨articles, fun config style lang => by rw [articles]⟩

/-- A node, a text of it, and documents that hold the one or the other. -/
def lineBreak : List (String × Value) := [("type", .string "hardBreak")]

def lineBreakText : String := "\x7b\"type\":\"hardBreak\"\x7d"

def documentOf (item : Value) : Value :=
  .object [("type", .string "doc"), ("content", .array [item])]

/-- An article whose document is that node, as an object and as a string. -/
def plainArticle : String :=
  "\x7b\"id\":\"a\",\"content\":\x7b\"type\":\"hardBreak\"\x7d,\"doi\":\"x\"\x7d"

def storedArticle : String :=
  "\x7b\"id\":\"a\",\"pmJson\":\"\x7b\\\"type\\\":\\\"hardBreak\\\"\x7d\",\"doi\":\"x\"\x7d"

theorem embedding_transparent_pmJson :
    Node.ofJson (.string lineBreakText) = Node.ofJson (.object lineBreak) ∧
      Node.ofJson (documentOf (.string lineBreakText)) =
        Node.ofJson (documentOf (.object lineBreak)) ∧
      Node.ofJson (.string "\"\x7b\x7d\"") = .unknown none [] ∧
      ofText storedArticle = ofText plainArticle ∧
      (ofText plainArticle).isOk = true := by
  obtain ⟨spelled, embedded, foreign, articles⟩ := embedding_transparent
  have spells : Json.parse lineBreakText = .ok (.object lineBreak) := by with_unfolding_all rfl
  have inside : ItemEmbeds (.object lineBreak) (.string lineBreakText) := .text (.same _) spells
  have document : Embeds (documentOf (.object lineBreak)) (documentOf (.string lineBreakText)) := by
    refine .object fun name => ?_
    by_cases content : name = "content"
    · subst content
      exact .content rfl (.cons inside .nil)
    · -- the other members are the same
      have same (item : Value) :
          Value.lookup name [("type", .string "doc"), ("content", .array [item])] =
            Value.lookup name [("type", .string "doc")] := by
        simp [Value.lookup, Ne.symm content]
      rw [same, same]
      exact .same name _
  have twice : ∀ members, Json.parse "\"\x7b\x7d\"" ≠ .ok (.object members) := by
    have parsed : Json.parse "\"\x7b\x7d\"" = .ok (.string "\x7b\x7d") := by
      with_unfolding_all rfl
    intro members same
    rw [parsed] at same
    cases same
  have held : ContentAt plainArticle (.object lineBreak) ",\"doi\":\"x\"\x7d".toList .object
      { id := some "a" } := by
    with_unfolding_all
      exact .member rfl (.member rfl rfl (.here _ _ _)) rfl rfl (by decide) rfl rfl rfl
  have quoted : ContentAt storedArticle (.string lineBreakText) ",\"doi\":\"x\"\x7d".toList .object
      { id := some "a" } := by
    with_unfolding_all
      exact .member rfl (.member rfl rfl (.here _ _ _)) rfl rfl (by decide) rfl rfl rfl
  exact ⟨spelled _ _ spells, embedded _ _ document, foreign _ twice,
    (articles _ _ _ _ _ _ _ held quoted inside).1, by decide +kernel⟩

end Galley.Article
