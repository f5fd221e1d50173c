import Galley.Proofs.Markup.Elements
import Galley.Proofs.Render.Fragment
import Galley.Proofs.Rendition.Stylesheet
import Galley.Rendition.Page
/-!
# The markup of pages

What is left of a page when the text between its tags and the values in double quotes are taken out
(`skeleton`) depends on few things: which parts the page has, and the tree without its texts
(`Shape`).

## Main result

`skeleton_render`: pages of articles with the same shape have the same skeleton, whatever else the
articles say.

The proof is in two parts. The items of a page are written so that no text or value reaches out of
its place (`Sealed`), so the skeleton can be read off the items (`skeleton_print`). And the tags of
items are the same part by part.
-/
namespace Galley.Rendition.Page

open Galley.Markup (Item Attribute Data Piece Escaping)
open Galley.Render

/-! ### Skeletons -/

/-- What a tag has between its brackets without the values in its double quotes, unless the last
quote is not closed. -/
def unquoted? (inside : List Char) : Option (List (List Char)) :=
  if inside.count '"' % 2 = 0 then some (Html.outline inside) else none

/-- The tags of a text without the values in their double quotes. The text between them is left
out. -/
def skeleton (text : String) : Option (List (List (List Char))) :=
  (Markup.cut none text.toList).bind fun pieces =>
    (pieces.filterMap Piece.inside?).mapM unquoted?

/-! ### Shapes -/

/-- What the markup of a page may depend on. -/
structure Shape where
  title : Bool
  doi : Bool
  abstract : Bool
  keywords : Bool
  /-- Whether there is a DOI, and whether there is a URL. -/
  references : List (Bool × Bool)
  content : Option Document.Node

def shape (article : Article) (lang : String) : Shape where
  title := (article.titleFor? lang).isSome
  doi := article.doi?.isSome
  abstract := (article.abstractFor? lang).isSome
  keywords := !(article.keywordsFor lang).isEmpty
  references := article.references.map fun entry => (entry.doi?.isSome, entry.url?.isSome)
  content := article.content.map fun node => node.withoutText.withNormalMarks

/-- Styles between which the markup does not change. -/
inductive Alike : PageStyle → PageStyle → Prop
  | builtin : Alike .builtin .builtin
  | inline {css : String} (plain : '<' ∉ css.toList) : Alike (.inline css) (.inline css)
  | linked (href other : String) : Alike (.linked href) (.linked other)

/-- A style that brings no bracket into the page. -/
def Plain : PageStyle → Prop
  | .inline css => '<' ∉ css.toList
  | .linked _ => True

theorem Alike.plain {style other : PageStyle} (alike : Alike style other) :
    Plain style ∧ Plain other := by
  cases alike with
  | builtin => exact ⟨clear_builtin, clear_builtin⟩
  | inline plain => exact ⟨plain, plain⟩
  | linked => exact ⟨trivial, trivial⟩

/-! ### Sealed items -/

/-- Characters that markup is told by. -/
def Clean (chars : List Char) : Prop := ∀ c ∈ ['<', '>', '"'], c ∉ chars

instance (chars : List Char) : Decidable (Clean chars) := List.decidableBAll _ _

/-- An attribute whose value ends at its second quote. -/
def SealedAttribute (a : Attribute) : Prop :=
  Clean a.name.toList ∧ ∀ data ∈ a.value, Clean data.print.toList

/-- Items whose texts and values stay in their places. -/
def Sealed : Item → Prop
  | .opening name attributes => Clean name.toList ∧ ∀ a ∈ attributes, SealedAttribute a
  | .closing name | .void name => Clean name.toList
  | .text data => '<' ∉ data.print.toList

/-- The parts of a tag outside of the values of attributes. The first argument is what the tag has
in front of the attributes. -/
def outside (before : List Char) : List Attribute → List (List Char)
  | [] => [before]
  | a :: rest =>
    match a.value with
    | none => outside (before ++ ' ' :: a.name.toList) rest
    | some _ => (before ++ ' ' :: (a.name.toList ++ ['='])) :: outside [] rest

/-- The parts of an item's tag outside of the values of attributes. -/
def frame? : Item → Option (List (List Char))
  | .opening name attributes => some (outside name.toList attributes)
  | .closing name => some ['/' :: name.toList]
  | .void name => some [name.toList ++ [' ', '/']]
  | .text _ => none

def frames (items : List Item) : List (List (List Char)) := items.filterMap frame?

theorem unquoted?_of_not_mem {inside : List Char} (clean : '"' ∉ inside) :
    unquoted? inside = some [inside] := by
  rw [unquoted?, List.count_eq_zero.mpr clean, if_pos rfl, Html.outline,
    Text.splitAt_of_not_mem clean]
  rfl

theorem unquoted?_append {before value : List Char} (outer : '"' ∉ before) (inner : '"' ∉ value)
    (rest : List Char) :
    unquoted? (before ++ '"' :: (value ++ '"' :: rest)) = (unquoted? rest).map (before :: ·) := by
  have quotes : (before ++ '"' :: (value ++ '"' :: rest)).count '"' = rest.count '"' + 2 := by
    simp [List.count_append, List.count_eq_zero.mpr outer, List.count_eq_zero.mpr inner]
  have outline : Html.outline (before ++ '"' :: (value ++ '"' :: rest)) =
      before :: Html.outline rest := by
    rw [Html.outline, Text.splitAt_append outer, Text.splitAt_append inner]
    cases pieces : Text.splitAt '"' rest with
    | nil => exact (Text.splitAt_ne_nil _ _ pieces).elim
    | cons first others => rw [Html.outline, pieces]; rfl
  rw [unquoted?, unquoted?, quotes, Nat.add_mod_right, outline]
  split <;> rfl

private theorem unquoted?_attributes {attributes : List Attribute}
    (each : ∀ a ∈ attributes, SealedAttribute a) {before : List Char} (clean : '"' ∉ before) :
    unquoted? (before ++ attributes.flatMap (·.print.toList)) =
      some (outside before attributes) := by
  -- a flag is added to what is in front of the next value
  induction attributes generalizing before with
  | nil =>
    rw [List.flatMap_nil, List.append_nil]
    exact unquoted?_of_not_mem clean
  | cons a rest ih =>
    rw [List.forall_mem_cons] at each
    obtain ⟨⟨key, values⟩, each⟩ := each
    have named : '"' ∉ a.name.toList := key '"' (by decide)
    cases value : a.value with
    | none =>
      have flag : '"' ∉ before ++ ' ' :: a.name.toList := by simp [clean, named]
      simpa [outside, value, Attribute.print] using ih each flag
    | some data =>
      have valued : '"' ∉ before ++ ' ' :: (a.name.toList ++ ['=']) := by simp [clean, named]
      have quoted : '"' ∉ data.print.toList := values data value '"' (by decide)
      have whole := unquoted?_append valued quoted (rest.flatMap (·.print.toList))
      have others : unquoted? (rest.flatMap (·.print.toList)) = some (outside [] rest) :=
        ih each List.not_mem_nil
      rw [others] at whole
      simpa [outside, value, Attribute.print] using whole

theorem unquoted?_of_sealed {item : Item} (isSealed : Sealed item) {inside : List Char}
    (found : item.inside? = some inside) :
    ∃ parts, unquoted? inside = some parts ∧ frame? item = some parts := by
  cases item with
  | opening name attributes =>
    cases found
    exact ⟨_, unquoted?_attributes isSealed.2 (isSealed.1 '"' (by decide)), rfl⟩
  | closing name | void name =>
    cases found
    have clean : '"' ∉ name.toList := isSealed '"' (by decide)
    exact ⟨_, unquoted?_of_not_mem (by simp [clean]), rfl⟩
  | text data => cases found

theorem separate_of_sealed {item : Item} (isSealed : Sealed item) : item.Separate := by
  refine ⟨fun data same => by subst same; exact isSealed, fun inside found => ?_⟩
  -- there is no bracket in names and values, nor in what is written between them
  have outer (c : Char) (bracket : c ∈ ['<', '>']) : c ∉ inside := by
    have markup : c ∈ ['<', '>', '"'] := List.mem_append_left ['"'] bracket
    have other : c ≠ '/' ∧ c ≠ ' ' ∧ c ≠ '=' ∧ c ≠ '"' := by
      simp only [List.mem_cons, List.not_mem_nil, or_false] at bracket
      rcases bracket with rfl | rfl <;> decide
    cases item with
    | opening name attributes =>
      cases found
      rw [List.mem_append, not_or, List.mem_flatMap]
      refine ⟨isSealed.1 c markup, ?_⟩
      rintro ⟨a, member, written⟩
      obtain ⟨named, values⟩ := isSealed.2 a member
      cases value : a.value with
      | none => simp [Attribute.print, value, named c markup, other] at written
      | some data =>
        simp [Attribute.print, value, named c markup, values data value c markup, other] at written
    | closing name | void name =>
      cases found
      simp [isSealed c markup, other]
    | text data => cases found
  exact ⟨outer '<' (by decide), outer '>' (by decide)⟩

def AllSealed (items : List Item) : Prop := ∀ item ∈ items, Sealed item

theorem mapM_unquoted? {items : List Item} (isSealed : AllSealed items) :
    (items.filterMap Item.inside?).mapM unquoted? = some (frames items) := by
  induction items with
  | nil => rfl
  | cons item rest ih =>
    rw [AllSealed, List.forall_mem_cons] at isSealed
    cases found : item.inside? with
    | none =>
      have untagged : frame? item = none := by cases item <;> first | rfl | cases found
      rw [List.filterMap_cons_none found, frames, List.filterMap_cons_none untagged]
      exact ih isSealed.2
    | some inside =>
      obtain ⟨parts, read, framed⟩ := unquoted?_of_sealed isSealed.1 found
      rw [List.filterMap_cons_some found, frames, List.filterMap_cons_some framed, List.mapM_cons,
        read, ih isSealed.2]
      rfl

/-- The skeleton of printed items. -/
theorem skeleton_print {items : List Item} (isSealed : AllSealed items) :
    skeleton (Markup.print items) = some (frames items) := by
  have cut := Markup.cut_print fun item member => separate_of_sealed (isSealed item member)
  rw [skeleton, cut, Option.bind_some, Item.filterMap_inside?_written, mapM_unquoted? isSealed]

/-! ### The items of pages are sealed -/

theorem clean_numeric (text : List Char) : Clean (text.flatMap Escaping.numeric.char) :=
  Markup.not_mem_written_numeric text

theorem clean_named (text : List Char) : Clean (text.flatMap Escaping.named.char) :=
  Markup.not_mem_written_named text

@[simp] theorem sealedAttribute_flag (name : String) :
    SealedAttribute (.flag name) ↔ Clean name.toList := by
  simp [SealedAttribute, Attribute.flag]

@[simp] theorem sealedAttribute_fixed (name text : String) :
    SealedAttribute (.fixed name text) ↔ Clean name.toList ∧ Clean text.toList := by
  simp [SealedAttribute, Attribute.fixed, Attribute.valued, Data.print, Markup.flatMap_verbatim]

@[simp] theorem sealedAttribute_numeric (name text : String) :
    SealedAttribute (.valued name .numeric text) ↔ Clean name.toList := by
  simp [SealedAttribute, Attribute.valued, Data.print, clean_numeric]

@[simp] theorem sealedAttribute_named (name text : String) :
    SealedAttribute (.valued name .named text) ↔ Clean name.toList := by
  simp [SealedAttribute, Attribute.valued, Data.print, clean_named]

@[simp] theorem sealed_raw (text : String) : Sealed (.raw text) ↔ '<' ∉ text.toList := by
  simp [Sealed, Item.raw, Data.print, Markup.flatMap_verbatim]

@[simp] theorem sealed_numbered (text : String) : Sealed (.numbered text) := by
  simpa [Sealed, Item.numbered, Data.print] using clean_numeric text.toList '<' (by decide)

@[simp] theorem sealed_named (text : String) : Sealed (.named text) := by
  simpa [Sealed, Item.named, Data.print] using clean_named text.toList '<' (by decide)

@[simp] theorem sealed_opening (name : String) (attributes : List Attribute) :
    Sealed (.opening name attributes) ↔
      Clean name.toList ∧ ∀ a ∈ attributes, SealedAttribute a := Iff.rfl

@[simp] theorem sealed_start (name : String) : Sealed (.start name) ↔ Clean name.toList := by
  simp [Item.start]

@[simp] theorem sealed_closing (name : String) : Sealed (.closing name) ↔ Clean name.toList :=
  Iff.rfl

@[simp] theorem sealed_indent (level : Nat) : Sealed (indent level) := by
  simp [indent]

@[simp] theorem allSealed_nil : AllSealed [] := nofun

@[simp] theorem allSealed_cons {item : Item} {rest : List Item} :
    AllSealed (item :: rest) ↔ Sealed item ∧ AllSealed rest :=
  List.forall_mem_cons

@[simp] theorem allSealed_append {first second : List Item} :
    AllSealed (first ++ second) ↔ AllSealed first ∧ AllSealed second :=
  List.forall_mem_append

@[simp] theorem allSealed_leaf (opening : Item) (name text : String) :
    AllSealed (leaf opening name text) ↔ Sealed opening ∧ Clean name.toList := by
  simp [leaf]

@[simp] theorem allSealed_whenPresent {α : Type} (value : Option α) (items : α → List Item) :
    AllSealed (whenPresent value items) ↔ ∀ v ∈ value, AllSealed (items v) := by
  cases value <;> simp [whenPresent]

@[simp] theorem allSealed_unless {p : Prop} [Decidable p] (items : List Item) :
    AllSealed (if p then [] else items) ↔ ¬ p → AllSealed items := by
  split <;> simp_all

theorem allSealed_flatMap {α : Type} {values : List α} {items : α → List Item}
    (each : ∀ v, AllSealed (items v)) : AllSealed (values.flatMap items) := by
  intro item member
  obtain ⟨v, -, member⟩ := List.mem_flatMap.mp member
  exact each v item member

theorem allSealed_head (article : Article) (lang : String) {style : PageStyle}
    (plain : Plain style) : AllSealed (head article lang style) := by
  cases style with
  | inline css =>
    have sheet : '<' ∉ css.toList := plain
    simp +decide [head, stylesheetLink, deferredScript, katexBase, sheet]
  | linked href => simp +decide [head, stylesheetLink, deferredScript, katexBase]

theorem allSealed_header (article : Article) (lang : String) :
    AllSealed (header article lang) := by
  simp +decide [header, classed, doiLink]

theorem allSealed_references (shown : List Citation) : AllSealed (references shown) := by
  have each (shown : Citation) : AllSealed (citation shown) := by
    simp +decide [citation, doiLink]
  have all : AllSealed (shown.flatMap citation) := allSealed_flatMap each
  simp +decide [references, classed, all]

private theorem clean_plainElements : ∀ name ∈ Html.plainElements, Clean name.toList := by
  decide

theorem sealed_of_isFragmentItem {item : Item} (known : Html.IsFragmentItem item) :
    Sealed item := by
  cases known with
  | text text => exact sealed_named text
  | start known => exact (sealed_start _).mpr (clean_plainElements _ known)
  | closing known => exact clean_plainElements _ known
  | void known =>
    revert known
    exact (by decide : ∀ name ∈ ["br", "hr"], Clean name.toList) _
  | list | code | display | displayEnd => simp +decide

theorem allSealed_body (article : Article) : AllSealed (body article) := by
  unfold body
  split
  next node _ =>
    exact fun item member => sealed_of_isFragmentItem (Html.allFragmentItems_block node item member)
  · simp +decide [emptyBody, Html.element, noContent]

/-- The document type, as a tag of its own. -/
def prologue : List Item := [.start "!DOCTYPE html", .raw "\n"]

theorem render_eq (article : Article) (lang : String) (style : PageStyle) :
    render article lang style = Markup.print (prologue ++ items article lang style) := by
  have doctype : "<!DOCTYPE html>\n" = Markup.print prologue := by decide
  calc render article lang style
    _ = "<!DOCTYPE html>\n" ++ Markup.print (items article lang style) := rfl
    _ = Markup.print prologue ++ Markup.print (items article lang style) := by rw [doctype]
    _ = _ := (Markup.print_append ..).symm

theorem clear_script : Clear script := by
  -- the script is looked through part by part, since the whole is long
  unfold script
  iterate 8 refine clear_append.mpr ⟨?_, by decide⟩
  decide

theorem allSealed_page (article : Article) (lang : String) {style : PageStyle}
    (plain : Plain style) : AllSealed (prologue ++ items article lang style) := by
  have inside := allSealed_head article lang plain
  have typesetting : '<' ∉ script.toList := clear_script
  unfold items
  generalize script = text at typesetting ⊢
  simp +decide [prologue, classed, inside, typesetting, allSealed_header, allSealed_body,
    allSealed_references]

/-! ### The tags of pages -/

theorem frames_append (first second : List Item) :
    frames (first ++ second) = frames first ++ frames second :=
  List.filterMap_append

theorem frames_append_congr {first second other another : List Item}
    (left : frames first = frames other) (right : frames second = frames another) :
    frames (first ++ second) = frames (other ++ another) := by
  rw [frames_append, frames_append, left, right]

theorem frames_whenPresent {value other : Option String} (same : value.isSome = other.isSome)
    {items : String → List Item} (each : ∀ v w, frames (items v) = frames (items w)) :
    frames (whenPresent value items) = frames (whenPresent other items) := by
  cases value <;> cases other
  · rfl
  · cases same
  · cases same
  · exact each _ _

theorem frames_head {article another : Article} {lang tongue : String} {style other : PageStyle}
    (same : shape article lang = shape another tongue) (alike : Alike style other) :
    frames (head article lang style) = frames (head another tongue other) := by
  unfold head
  iterate 5 refine frames_append_congr ?_ rfl
  refine frames_append_congr (frames_append_congr rfl ?title) ?style
  case title => exact frames_whenPresent (congrArg Shape.title same) fun _ _ => rfl
  case style => cases alike <;> rfl

theorem frames_header {article another : Article} {lang tongue : String}
    (same : shape article lang = shape another tongue) :
    frames (header article lang) = frames (header another tongue) := by
  unfold header
  refine frames_append_congr (frames_append_congr (frames_append_congr (frames_append_congr
    (frames_append_congr rfl ?title) ?doi) ?abstract) ?keywords) rfl
  case title => exact frames_whenPresent (congrArg Shape.title same) fun _ _ => rfl
  case doi => exact frames_whenPresent (congrArg Shape.doi same) fun _ _ => rfl
  case abstract => exact frames_whenPresent (congrArg Shape.abstract same) fun _ _ => rfl
  case keywords =>
    rw [Bool.not_inj (congrArg Shape.keywords same)]
    split <;> rfl

theorem frames_citation {reference other : Article.Reference} (lang tongue : String)
    (doi : reference.doi?.isSome = other.doi?.isSome)
    (url : reference.url?.isSome = other.url?.isSome) :
    frames (citation (.ofReference lang reference)) =
      frames (citation (.ofReference tongue other)) := by
  refine frames_append_congr (frames_append_congr (frames_append_congr rfl ?doi) ?url) rfl
  case doi => exact frames_whenPresent doi fun _ _ => rfl
  case url => exact frames_whenPresent url fun _ _ => rfl

theorem frames_citations {references others : List Article.Reference} (lang tongue : String)
    (same : references.map (fun entry => (entry.doi?.isSome, entry.url?.isSome)) =
      others.map fun entry => (entry.doi?.isSome, entry.url?.isSome)) :
    frames ((references.map (Citation.ofReference lang)).flatMap citation) =
      frames ((others.map (Citation.ofReference tongue)).flatMap citation) := by
  induction references generalizing others with
  | nil =>
    cases others with
    | nil => rfl
    | cons => cases same
  | cons reference rest ih =>
    cases others with
    | nil => cases same
    | cons other others =>
      rw [List.map_cons, List.map_cons, List.cons.injEq, Prod.mk.injEq] at same
      obtain ⟨⟨doi, url⟩, same⟩ := same
      simp only [List.map_cons, List.flatMap_cons, frames_append, ih same,
        frames_citation lang tongue doi url]

theorem frames_references {article another : Article} {lang tongue : String}
    (same : shape article lang = shape another tongue) :
    frames (references (citations article lang)) =
      frames (references (citations another tongue)) := by
  have entries : article.references.map _ = another.references.map _ :=
    congrArg Shape.references same
  have all := frames_citations lang tongue entries
  have empty : article.references.isEmpty = another.references.isEmpty := by
    simpa using congrArg List.isEmpty entries
  simp only [references, citations, List.isEmpty_map, empty]
  split
  · rfl
  · exact frames_append_congr (frames_append_congr rfl all) rfl

/-- The tags of a skeleton are outlines. -/
theorem map_outline_of_mapM {insides : List (List Char)} {tags : List (List (List Char))}
    (read : insides.mapM unquoted? = some tags) : insides.map Html.outline = tags := by
  induction insides generalizing tags with
  | nil => cases read; rfl
  | cons inside rest ih =>
    rw [List.mapM_cons] at read
    obtain ⟨parts, first, read⟩ := Option.bind_eq_some_iff.mp read
    obtain ⟨others, following, read⟩ := Option.bind_eq_some_iff.mp read
    cases read
    have same : Html.outline inside = parts := by
      unfold unquoted? at first
      split at first
      · exact Option.some.inj first
      · cases first
    rw [List.map_cons, same, ih following]

theorem frames_body {article another : Article} {lang tongue : String}
    (same : shape article lang = shape another tongue) :
    frames (body article) = frames (body another) := by
  -- what texts there are, and in which order marks come, does not show in the tags
  have fragment (node : Document.Node) : frames (Html.block node) =
      Html.itemOutlines (Html.block node.withoutText.withNormalMarks) := by
    have isSealed : AllSealed (Html.block node) := fun item member =>
      sealed_of_isFragmentItem (Html.allFragmentItems_block node item member)
    rw [Html.block_withNormalMarks, ← Html.itemOutlines_block_withoutText, Html.itemOutlines,
      map_outline_of_mapM (mapM_unquoted? isSealed)]
  have content : article.content.map (fun node => node.withoutText.withNormalMarks) =
      another.content.map fun node => node.withoutText.withNormalMarks :=
    congrArg Shape.content same
  unfold body
  cases first : article.content with
  | none =>
    cases second : another.content with
    | none => rfl
    | some other => rw [first, second] at content; cases content
  | some node =>
    cases second : another.content with
    | none => rw [first, second] at content; cases content
    | some other =>
      rw [first, second, Option.map_some, Option.map_some, Option.some_inj] at content
      show frames (Html.block node) = frames (Html.block other)
      rw [fragment, fragment, content]

/-- Pages of articles with the same shape have the same skeleton: whatever else the articles say,
the pages differ only in the text between tags and in values in double quotes. -/
theorem skeleton_render {style other : PageStyle} (alike : Alike style other)
    {article another : Article} {lang tongue : String}
    (same : shape article lang = shape another tongue) :
    ∃ tags, skeleton (render article lang style) = some tags ∧
      skeleton (render another tongue other) = some tags := by
  have found (article : Article) (lang : String) {style : PageStyle} (plain : Plain style) :
      skeleton (render article lang style) =
        some (frames (prologue ++ items article lang style)) := by
    rw [render_eq, skeleton_print (allSealed_page article lang plain)]
  refine ⟨_, found article lang alike.plain.1, ?_⟩
  rw [found another tongue alike.plain.2]
  simp only [items, frames_append, frames_head same alike,
    frames_header same, frames_body same, frames_references same]
  rfl

/-- An article whose texts would be markup. -/
def intruding : Article where
  id := "1"
  content := some (.document
    [.paragraph [.text "</p><script>" [.code, .bold, .code], .mathInline "\" & <b>"],
      .codeBlock (some "\"><i a=\"") [.text "</code>" []]])
  metadata := [("en", ⟨some "</title>", some "<!--", some "a, <b>"⟩)]
  doi := some "10.1/\"onclick=\""
  firstPage := none
  lastPage := some 2
  references := [⟨none, .empty, none, some "\"><a href=\""⟩]

/-- An article with the shape of the other one. -/
def harmless : Article where
  id := "2"
  content := some (.document
    [.paragraph [.text "x" [.bold, .code], .mathInline "y"], .codeBlock (some "c") [.text "z" []]])
  metadata := [("de", ⟨some "Titel", some "Abriss", some "k"⟩)]
  doi := some "10.1/2"
  firstPage := none
  lastPage := none
  references := [⟨some "r", .empty, some " ", some "u"⟩]

theorem skeleton_render_intruding :
    Alike (.linked "page.css") (.linked "\"><br a=\"") ∧
      shape harmless "de" = shape intruding "en" ∧
      ∃ tags, skeleton (render harmless "de" (.linked "page.css")) = some tags ∧
        skeleton (render intruding "en" (.linked "\"><br a=\"")) = some tags := by
  have same : shape harmless "de" = shape intruding "en" := by rfl
  exact ⟨.linked _ _, same, skeleton_render (.linked _ _) same⟩

example : skeleton "<a b c=\"d\">e</a>" = some [["a b c=".toList, []], ["/a".toList]] := by
  decide

example : skeleton "<a b=\"c>" = none := by decide

end Galley.Rendition.Page
