import Galley.Proofs.Basic
import Galley.Proofs.Markup.Elements
import Galley.Proofs.Text.Trim
import Galley.Rendition.Jats
import Mathlib.Data.List.DropRight
/-!
# Reading JATS records

A reader takes out of the elements of a record what the record says of an article
(`Record.read?`). The nodes of a record stand between it and the printer: what is printed for an
article reads as the nodes of its record (`reads_items`), and the reader gets a record back from its
nodes (`read?_nodes`).

## Main result

`render_readsBack`: the text of a record is made of known tags that match, and it reads back as what
it was made from.
-/
namespace Galley.Rendition.Jats

open Galley.Markup

/-! ### Records -/

/-- A reference of a record. -/
structure Entry where
  id : String
  text : String
  doi : Option String
  url : Option String
deriving DecidableEq

structure Record where
  lang : String
  doi : Option String
  title : String
  firstPage : Option Nat
  lastPage : Option Nat
  abstract : Option String
  keywords : List String
  paragraphs : List String
  references : List Entry
deriving DecidableEq

/-- A text that is not blank. -/
def solid? (text : Option String) : Option String :=
  text.filter fun text => !text.toList.all Text.isBlank

/-- What stands between the commas of a line, without the blanks around it. What is blank is no
keyword. -/
def keywordsOf (line : String) : List String :=
  (Text.splitAt ',' line.toList).filterMap fun piece =>
    if piece.all Text.isBlank then none
    else some (String.ofList ((piece.dropWhile Text.isBlank).rdropWhile Text.isBlank))

/-- A reference in a language, or in its first one, with its number. -/
def Entry.of (lang : String) (reference : Article.Reference) (number : Nat) : Entry where
  id := "ref" ++ toString number
  text := ((reference.text.entries.lookup lang).or
    (reference.text.entries.head?.map Prod.snd)).getD ""
  doi := solid? reference.doi
  url := solid? reference.url

/-- What the record of an article in a language is to say. -/
def Record.of (article : Article) (lang : String) : Record where
  lang := lang
  doi := solid? article.doi
  title := ((article.metadata.lookup lang).bind fun data => solid? data.title).getD "Untitled"
  firstPage := article.firstPage.map UInt32.toNat
  lastPage := article.lastPage.map UInt32.toNat
  abstract := (article.metadata.lookup lang).bind fun data => solid? data.abstract
  keywords := ((article.metadata.lookup lang).bind (·.keywords)).elim [] keywordsOf
  paragraphs :=
    match article.content.elim [] Document.Node.blockTexts with
    | [] => ["No content"]
    | blocks => blocks
  references := (article.references.zipIdx 1).map fun entry => Entry.of lang entry.1 entry.2

/-! ### Records and articles -/

theorem keywordsOf_eq (line : String) : keywordsOf line = Article.Metadata.splitKeywords line := by
  rw [keywordsOf, Article.Metadata.splitKeywords, Text.splitOnChar]
  induction Text.splitAt ',' line.toList with
  | nil => rfl
  | cons piece rest ih =>
    have solid : (Text.trim (String.ofList piece)).isEmpty = piece.all Text.isBlank := by
      rw [Text.isEmpty_trim, Text.isAllBlank, String.toList_ofList]
    have kept : Text.trim (String.ofList piece) =
        String.ofList ((piece.dropWhile Text.isBlank).rdropWhile Text.isBlank) := by
      rw [Text.trim, String.toList_ofList]
      rfl
    rw [List.filterMap_cons, List.map_cons, List.map_cons, List.filter_cons, solid, ih, kept]
    cases piece.all Text.isBlank <;> rfl

theorem keywords_of (article : Article) (lang : String) :
    (Record.of article lang).keywords = article.keywordsFor lang := by
  change ((article.metadata.lookup lang).bind (·.keywords)).elim [] keywordsOf = _
  unfold Article.keywordsFor Article.metadataFor?
  cases article.metadata.lookup lang with
  | none => rfl
  | some data =>
    cases keywords : data.keywords <;> simp [Article.Metadata.keywordList, keywords, keywordsOf_eq]

/-! ### The reader -/

/-- The characters before the first element. -/
def leading : List Node → List Char
  | .char c :: rest => c :: leading rest
  | _ => []

/-- The text of a citation: a blank sets off the elements after it. -/
def citationText? (content : List Node) : Option String :=
  let chars := leading content
  if chars.length = content.length then some (String.ofList chars)
  else if chars.getLast? = some ' ' then some (String.ofList chars.dropLast)
  else none

/-- What a reference says. A link has to lead to the URL that it shows. -/
def Entry.read? (node : Node) : Option Entry := do
  let id ← node.attribute? "id"
  let text ← citationText? (within ["mixed-citation"] node.content)
  let doi := (texts ["mixed-citation"] "pub-id" node.content).head?
  let url := (texts ["mixed-citation"] "ext-link" node.content).head?
  let link := (named "ext-link" (within ["mixed-citation"] node.content)).head?.bind
    (·.attribute? "xlink:href")
  if link = url then some { id, text, doi, url } else none

/-- What the nodes of a record say. -/
def Record.read? (nodes : List Node) : Option Record := do
  let article ← (named "article" nodes).head?
  let lang ← article.attribute? "xml:lang"
  let number (text : String) : Option Nat := Text.number? text.toList
  let title ← (texts ["front", "article-meta", "title-group"] "article-title" article.content).head?
  let references ← (named "ref" (within ["back", "ref-list"] article.content)).mapM Entry.read?
  return {
    lang, title, references
    doi := (texts ["front", "article-meta"] "article-id" article.content).head?
    firstPage := (texts ["front", "article-meta"] "fpage" article.content).head?.bind number
    lastPage := (texts ["front", "article-meta"] "lpage" article.content).head?.bind number
    abstract := (texts ["front", "article-meta", "abstract"] "p" article.content).head?
    keywords := texts ["front", "article-meta", "kwd-group"] "kwd" article.content
    paragraphs := texts ["body"] "p" article.content }

/-! ### The nodes of a record -/

private def blanks (level : Nat) : List Node :=
  chars (String.ofList ('\n' :: List.replicate (2 * level) ' '))

private abbrev leafNode (name : String) (attributes : List (String × String)) (text : String) :
    Node :=
  .element name attributes (chars text)

private def present {α : Type} (value : Option α) (nodes : α → List Node) : List Node :=
  value.elim [] nodes

private theorem present_map {α β : Type} (value : Option α) (f : α → β) (nodes : β → List Node) :
    present (value.map f) nodes = present value fun v => nodes (f v) := by
  cases value <;> rfl

private def keywordNodes (keywords : List String) : List Node :=
  if keywords.isEmpty then []
  else blanks 3 ++ [.element "kwd-group" []
    (keywords.flatMap (fun keyword => blanks 4 ++ [leafNode "kwd" [] keyword]) ++ blanks 3)]

def Record.metaNodes (r : Record) : List Node :=
  present r.doi (fun doi => blanks 3 ++ [leafNode "article-id" [("pub-id-type", "doi")] doi]) ++
    (blanks 3 ++ [.element "title-group" []
      (blanks 4 ++ [leafNode "article-title" [] r.title] ++ blanks 3)]) ++
    present r.firstPage (fun page => blanks 3 ++ [leafNode "fpage" [] (toString page)]) ++
    present r.lastPage (fun page => blanks 3 ++ [leafNode "lpage" [] (toString page)]) ++
    present r.abstract (fun text => blanks 3 ++ [.element "abstract" []
      (blanks 4 ++ [leafNode "p" [] text] ++ blanks 3)]) ++
    keywordNodes r.keywords ++ blanks 2

def Record.frontNodes (r : Record) : List Node :=
  blanks 1 ++ [.element "front" []
    (blanks 2 ++ [.element "article-meta" [] r.metaNodes] ++ blanks 1)]

def Record.bodyNodes (r : Record) : List Node :=
  blanks 1 ++ [.element "body" []
    (r.paragraphs.flatMap (fun text => blanks 2 ++ [leafNode "p" [] text]) ++ blanks 1)]

def Entry.citationNodes (entry : Entry) : List Node :=
  chars entry.text ++
    present entry.doi (fun doi => chars " " ++ [leafNode "pub-id" [("pub-id-type", "doi")] doi]) ++
    present entry.url (fun url => chars " " ++
      [leafNode "ext-link" [("ext-link-type", "uri"), ("xlink:href", url)] url])

def Entry.node (entry : Entry) : Node :=
  .element "ref" [("id", entry.id)]
    (blanks 4 ++ [.element "mixed-citation" [] entry.citationNodes] ++ blanks 3)

def Record.backNodes (r : Record) : List Node :=
  if r.references.isEmpty then []
  else blanks 1 ++ [.element "back" []
    (blanks 2 ++ [.element "ref-list" []
      (r.references.flatMap (fun entry => blanks 3 ++ [entry.node]) ++ blanks 2)] ++
      blanks 1)]

def Record.content (r : Record) : List Node :=
  r.frontNodes ++ r.bodyNodes ++ r.backNodes ++ blanks 0

def Record.articleNode (r : Record) : Node :=
  .element "article"
    [("xmlns:xlink", "http://www.w3.org/1999/xlink"), ("article-type", "research-article"),
      ("xml:lang", r.lang)] r.content

/-! ### What is printed -/

private abbrev ReadsAs (items : List Item) (nodes : List Node) : Prop :=
  Reads numericReferences (print items).toList nodes

private theorem readsAs_indent (level : Nat) : ReadsAs [indent level] (blanks level) := by
  refine reads_raw fun c member => ?_
  rw [String.toList_ofList, List.mem_cons, List.mem_replicate] at member
  rcases member with rfl | ⟨-, rfl⟩ <;> rfl

private theorem readsAs_element (name : String) (isName : IsTagName name)
    {attributes : List Attribute} (legible : ∀ a ∈ attributes, a.Legible) {items : List Item}
    {content : List Node} (inner : ReadsAs items content) :
    ReadsAs ([.opening name attributes] ++ items ++ [.closing name])
      [.element name (attributes.map Attribute.shown) content] :=
  reads_element legible isName inner

private theorem readsAs_start (name : String) (isName : IsTagName name) {items : List Item}
    {content : List Node} (inner : ReadsAs items content) :
    ReadsAs ([.start name] ++ items ++ [.closing name]) [.element name [] content] :=
  readsAs_element name isName (by simp) inner

private theorem readsAs_leaf (name : String) (isName : IsTagName name)
    {attributes : List Attribute} (legible : ∀ a ∈ attributes, a.Legible) (text : String) :
    ReadsAs (leaf (.opening name attributes) name text)
      [leafNode name (attributes.map Attribute.shown) text] := by
  have parts : leaf (.opening name attributes) name text =
      [.opening name attributes] ++ [.numbered text] ++ [.closing name] := rfl
  rw [parts]
  exact readsAs_element name isName legible (reads_numbered text)

private theorem readsAs_startLeaf (name : String) (isName : IsTagName name) (text : String) :
    ReadsAs (leaf (.start name) name text) [leafNode name [] text] :=
  readsAs_leaf name isName (by simp) text

private theorem readsAs_whenPresent {α : Type} (value : Option α) {items : α → List Item}
    {nodes : α → List Node} (each : ∀ v, ReadsAs (items v) (nodes v)) :
    ReadsAs (whenPresent value items) (present value nodes) := by
  cases value with
  | none => exact reads_print_nil
  | some v => exact each v

private theorem readsAs_flatMap {α : Type} (values : List α) {items : α → List Item}
    {nodes : α → List Node} (each : ∀ v, ReadsAs (items v) (nodes v)) :
    ReadsAs (values.flatMap items) (values.flatMap nodes) := by
  induction values with
  | nil => exact reads_print_nil
  | cons v rest ih => exact (each v).print_append ih

private theorem readsAs_of_eq {items parts : List Item} {nodes read : List Node}
    (reads : ReadsAs parts read) (printed : items = parts) (shown : nodes = read) :
    ReadsAs items nodes := by
  rw [printed, shown]
  exact reads

private theorem readsAs_keywordGroup (keywords : List String) :
    ReadsAs (keywordGroup keywords) (keywordNodes keywords) := by
  unfold keywordGroup keywordNodes
  split
  · exact reads_print_nil
  · have each (keyword : String) := (readsAs_indent 4).print_append
      (readsAs_startLeaf "kwd" (by decide) keyword)
    have all := readsAs_flatMap keywords each
    have group := readsAs_start "kwd-group" (by decide) (all.print_append (readsAs_indent 3))
    exact readsAs_of_eq ((readsAs_indent 3).print_append group) (by simp) rfl

private theorem readsAs_front (article : Article) (lang : String) :
    ReadsAs (front article lang) (Record.of article lang).frontNodes := by
  have typed : ∀ a ∈ [Attribute.fixed "pub-id-type" "doi"], a.Legible := by
    simpa using legible_fixed (by decide) (by decide)
  have doi := readsAs_whenPresent article.doi? fun doi =>
    (readsAs_indent 3).print_append (readsAs_leaf "article-id" (by decide) typed doi)
  have title := (readsAs_indent 3).print_append (readsAs_start "title-group" (by decide)
    (((readsAs_indent 4).print_append (readsAs_startLeaf "article-title" (by decide)
      ((article.titleFor? lang).getD untitled))).print_append (readsAs_indent 3)))
  have page (name : String) (isName : IsTagName name) (number : Option UInt32) :=
    readsAs_whenPresent number fun page => (readsAs_indent 3).print_append
      (readsAs_startLeaf name isName (toString page.toNat))
  have abstract := readsAs_whenPresent (article.abstractFor? lang) fun text =>
    (readsAs_indent 3).print_append (readsAs_start "abstract" (by decide)
      (((readsAs_indent 4).print_append (readsAs_startLeaf "p" (by decide) text)).print_append
        (readsAs_indent 3)))
  have keywords := readsAs_keywordGroup (article.keywordsFor lang)
  -- the parts in the order in which they are written, each with the blanks before it
  have inside := (((((doi.print_append title).print_append
    (page "fpage" (by decide) article.firstPage)).print_append
    (page "lpage" (by decide) article.lastPage)).print_append abstract).print_append
    keywords).print_append (readsAs_indent 2)
  have whole := (readsAs_indent 1).print_append (readsAs_start "front" (by decide)
    (((readsAs_indent 2).print_append (readsAs_start "article-meta" (by decide)
      inside)).print_append (readsAs_indent 1)))
  refine readsAs_of_eq whole ?_ ?_
  · simp only [front, List.cons_append, List.nil_append, List.append_assoc]
    rfl
  · rw [Record.frontNodes, Record.metaNodes, keywords_of]
    simp only [Record.of, present_map]
    rfl

theorem paragraphs_of (article : Article) (lang : String) :
    (Record.of article lang).paragraphs = paragraphs article := by
  unfold paragraphs
  cases content : article.content with
  | none => simp [Record.of, content, noContent]
  | some node => cases blocks : node.blockTexts <;> simp [Record.of, content, blocks, noContent]

private theorem readsAs_body (article : Article) (lang : String) :
    ReadsAs (body article) (Record.of article lang).bodyNodes := by
  have each (text : String) :=
    (readsAs_indent 2).print_append (readsAs_startLeaf "p" (by decide) text)
  have all := readsAs_flatMap (paragraphs article) each
  have whole := (readsAs_indent 1).print_append
    (readsAs_start "body" (by decide) (all.print_append (readsAs_indent 1)))
  refine readsAs_of_eq whole ?_ ?_
  · simp [body]
  · rw [Record.bodyNodes, paragraphs_of]

private theorem isPlain_number (number : Nat) : IsPlain ("ref" ++ toString number) := by
  intro c member
  rw [String.toList_append, List.mem_append] at member
  rcases member with member | member
  · exact (by decide : IsPlain "ref") c member
  -- digits are none of the characters that are written by numbers
  · have digit : c.isDigit = true := Text.isDigit_of_mem_repr member
    have other (mark : Char) (none : mark.isDigit = false) : c ≠ mark := by
      rintro rfl
      rw [none] at digit
      cases digit
    simp [numericReference, other '&' rfl, other '<' rfl, other '>' rfl, other '"' rfl,
      other '\x27' rfl]

private theorem readsAs_citation (lang : String) (reference : Article.Reference) (number : Nat) :
    ReadsAs (citation number (Citation.ofReference lang reference))
      (blanks 3 ++ [(Entry.of lang reference number).node]) := by
  have typed : ∀ a ∈ [Attribute.fixed "pub-id-type" "doi"], a.Legible := by
    simpa using legible_fixed (by decide) (by decide)
  have linked (url : String) : ∀ a ∈ [Attribute.fixed "ext-link-type" "uri",
      Attribute.valued "xlink:href" .numeric url], a.Legible := by
    simpa using ⟨legible_fixed (by decide) (by decide), legible_valued (by decide) url⟩
  have numbered : ∀ a ∈ [Attribute.fixed "id" ("ref" ++ toString number)], a.Legible := by
    simpa using legible_fixed (by decide) (isPlain_number number)
  have blank : ReadsAs [.raw " "] (chars " ") := reads_raw (by decide)
  have doi := readsAs_whenPresent reference.doi? fun doi =>
    blank.print_append (readsAs_leaf "pub-id" (by decide) typed doi)
  have url := readsAs_whenPresent reference.url? fun url =>
    blank.print_append (readsAs_leaf "ext-link" (by decide) (linked url) url)
  have text := reads_numbered ((reference.text.getOrFirst? lang).getD "")
  have mixed := readsAs_start "mixed-citation" (by decide)
    ((text.print_append doi).print_append url)
  have whole := (readsAs_indent 3).print_append (readsAs_element "ref" (by decide) numbered
    (((readsAs_indent 4).print_append mixed).print_append (readsAs_indent 3)))
  refine readsAs_of_eq whole ?_ rfl
  simp only [citation, Citation.ofReference, List.cons_append, List.nil_append, List.append_assoc]

private theorem readsAs_citationsFrom (lang : String) (references : List Article.Reference)
    (number : Nat) :
    ReadsAs (citationsFrom number (references.map (Citation.ofReference lang)))
      (((references.zipIdx number).map fun entry => Entry.of lang entry.1 entry.2).flatMap
        fun entry => blanks 3 ++ [entry.node]) := by
  induction references generalizing number with
  | nil => exact reads_print_nil
  | cons reference rest ih =>
    exact (readsAs_citation lang reference number).print_append (ih (number + 1))

private theorem readsAs_back (article : Article) (lang : String) :
    ReadsAs (back (citations article lang)) (Record.of article lang).backNodes := by
  unfold back Record.backNodes citations
  cases empty : article.references with
  | nil => simpa [Record.of, empty] using reads_print_nil
  | cons first rest =>
    have list := readsAs_citationsFrom lang (first :: rest) 1
    have whole := (readsAs_indent 1).print_append (readsAs_start "back" (by decide)
      (((readsAs_indent 2).print_append (readsAs_start "ref-list" (by decide)
        (list.print_append (readsAs_indent 2)))).print_append (readsAs_indent 1)))
    refine readsAs_of_eq whole ?_ ?_
    · simp
    · simp [Record.of, empty]

/-- What is printed for an article reads as the nodes of its record. -/
theorem reads_items (article : Article) (lang : String) :
    Reads numericReferences (print (items article lang)).toList
      [(Record.of article lang).articleNode] := by
  have legible : ∀ a ∈ [Attribute.fixed "xmlns:xlink" "http://www.w3.org/1999/xlink",
      Attribute.fixed "article-type" "research-article",
      Attribute.valued "xml:lang" .numeric lang], a.Legible := by
    simpa using ⟨legible_fixed (by decide) (by decide), legible_fixed (by decide) (by decide),
      legible_valued (by decide) lang⟩
  have whole := readsAs_element "article" (by decide) legible
    ((((readsAs_front article lang).print_append (readsAs_body article lang)).print_append
      (readsAs_back article lang)).print_append (readsAs_indent 0))
  refine readsAs_of_eq whole ?_ rfl
  simp only [items, articleStart, List.cons_append, List.nil_append, List.append_assoc]

def xmlDeclaration : String := "?xml version=\"1.0\" encoding=\"UTF-8\"?"

def docType : String :=
  "!DOCTYPE article PUBLIC " ++
    "\"-//NLM//DTD JATS (Z39.96) Journal Archiving and Interchange DTD v1.2 20190208//EN\" " ++
    "\"JATS-archivearticle1.dtd\""

/-- The nodes of a record with its declarations. -/
def Record.nodes (r : Record) : List Node :=
  [.declaration xmlDeclaration] ++ chars "\n" ++ ([.declaration docType] ++ chars "\n") ++
    [r.articleNode]

theorem nodes?_render (article : Article) (lang : String) :
    nodes? numericReferences (render article lang) = some (Record.of article lang).nodes := by
  have line : Reads numericReferences ['\n'] (chars "\n") := reads_written fits_numeric ['\n']
  have declared (inside : String) (opens : '<' ∉ inside.toList) (closes : '>' ∉ inside.toList)
      (marked : inside.toList.head? ∈ [some '?', some '!']) :
      Reads numericReferences ('<' :: (inside.toList ++ ['>']) ++ ['\n'])
        ([.declaration inside] ++ chars "\n") :=
    (reads_declaration opens closes marked).append line
  have prologue_eq : prologue.toList =
      ('<' :: (xmlDeclaration.toList ++ ['>']) ++ ['\n']) ++
        ('<' :: (docType.toList ++ ['>']) ++ ['\n']) := by
    decide +kernel
  refine nodes?_of_reads ?_
  rw [render, String.toList_append, prologue_eq]
  refine ((declared xmlDeclaration ?_ ?_ ?_).append (declared docType ?_ ?_ ?_)).append
    (reads_items article lang)
  all_goals decide +kernel

/-! ### What is read -/

@[simp] private theorem named_blanks (name : String) (level : Nat) :
    named name (blanks level) = [] :=
  named_chars ..

@[simp] private theorem named_present {α : Type} (name : String) (value : Option α)
    (nodes : α → List Node) :
    named name (present value nodes) = present value fun v => named name (nodes v) := by
  cases value <;> rfl

@[simp] private theorem named_flatMap {α : Type} (name : String) (values : List α)
    (nodes : α → List Node) :
    named name (values.flatMap nodes) = values.flatMap fun v => named name (nodes v) :=
  List.filter_flatMap ..

@[simp] private theorem present_none {α : Type} (nodes : α → List Node) :
    present none nodes = [] := rfl

@[simp] private theorem present_some {α : Type} (v : α) (nodes : α → List Node) :
    present (some v) nodes = nodes v := rfl

@[simp] private theorem present_nothing {α : Type} (value : Option α) :
    present value (fun _ => []) = [] := by
  cases value <;> rfl

@[simp] private theorem present_singleton {α : Type} (value : Option α) (node : α → Node) :
    present value (fun v => [node v]) = (value.map node).toList := by
  cases value <;> rfl

private theorem map_toList {α β : Type} (value : Option α) (f : α → β) :
    value.toList.map f = (value.map f).toList := by
  cases value <;> rfl

private theorem named_keywordNodes (name : String) (other : "kwd-group" ≠ name)
    (keywords : List String) : named name (keywordNodes keywords) = [] := by
  unfold keywordNodes
  split <;> simp [other]

variable (r : Record)

private theorem within_meta : within ["front", "article-meta"] r.content = r.metaNodes := by
  have back : named "front" r.backNodes = [] := by
    unfold Record.backNodes
    split <;> simp
  simp [within, Record.content, Record.frontNodes, Record.bodyNodes, back]

private theorem texts_doi :
    texts ["front", "article-meta"] "article-id" r.content = r.doi.toList := by
  rw [texts, within_meta]
  simp [Record.metaNodes, named_keywordNodes, map_toList, Function.comp_def]

private theorem texts_firstPage :
    texts ["front", "article-meta"] "fpage" r.content = (r.firstPage.map Nat.repr).toList := by
  rw [texts, within_meta]
  simp [Record.metaNodes, named_keywordNodes, map_toList, Function.comp_def]

private theorem texts_lastPage :
    texts ["front", "article-meta"] "lpage" r.content = (r.lastPage.map Nat.repr).toList := by
  rw [texts, within_meta]
  simp [Record.metaNodes, named_keywordNodes, map_toList, Function.comp_def]

private theorem within_more (name : String) :
    within ["front", "article-meta", name] r.content =
      (named name r.metaNodes).flatMap Node.content := by
  rw [← within_meta]
  rfl

private theorem texts_title :
    texts ["front", "article-meta", "title-group"] "article-title" r.content = [r.title] := by
  rw [texts, within_more]
  simp [Record.metaNodes, named_keywordNodes]

private theorem texts_abstract :
    texts ["front", "article-meta", "abstract"] "p" r.content = r.abstract.toList := by
  rw [texts, within_more]
  cases abstract : r.abstract <;>
    simp [Record.metaNodes, named_keywordNodes, abstract]

private theorem texts_keywords :
    texts ["front", "article-meta", "kwd-group"] "kwd" r.content = r.keywords := by
  rw [texts, within_more]
  unfold Record.metaNodes keywordNodes
  cases r.keywords with
  | nil => simp
  | cons first rest => simp [← List.map_eq_flatMap, Function.comp_def]

private theorem texts_paragraphs : texts ["body"] "p" r.content = r.paragraphs := by
  have front : named "body" r.frontNodes = [] := by simp [Record.frontNodes]
  have back : named "body" r.backNodes = [] := by
    unfold Record.backNodes
    split <;> simp
  simp [texts, within, Record.content, Record.bodyNodes, front, back, ← List.map_eq_flatMap,
    Function.comp_def]

private theorem named_ref :
    named "ref" (within ["back", "ref-list"] r.content) = r.references.map Entry.node := by
  have front : named "back" r.frontNodes = [] := by simp [Record.frontNodes]
  have body : named "back" r.bodyNodes = [] := by simp [Record.bodyNodes]
  have one (entry : Entry) (rest : List Node) :
      named "ref" (entry.node :: rest) = entry.node :: named "ref" rest := by
    simp [Entry.node]
  unfold Record.content Record.backNodes
  cases r.references with
  | nil => simp [within, front, body]
  | cons first rest => simp [within, front, body, one, ← List.map_eq_flatMap]

private theorem leading_chars (text : String) (rest : List Node) :
    leading (chars text ++ rest) = text.toList ++ leading rest := by
  unfold chars
  induction text.toList with
  | nil => rfl
  | cons c chars ih => exact congrArg (c :: ·) ih

private theorem citationText?_chars (text : String) : citationText? (chars text) = some text := by
  have all : leading (chars text) = text.toList := by
    simpa [leading] using leading_chars text []
  rw [citationText?, all, if_pos (by simp [chars]), String.ofList_toList]

private theorem citationText?_element (text name : String) (attributes : List (String × String))
    (content rest : List Node) :
    citationText? (chars text ++ (chars " " ++ .element name attributes content :: rest)) =
      some text := by
  have upTo : leading (chars text ++ (chars " " ++ .element name attributes content :: rest)) =
      text.toList ++ [' '] := by
    rw [leading_chars, leading_chars]
    rfl
  rw [citationText?, upTo, if_neg (by simp [chars]), if_pos (by simp), List.dropLast_concat,
    String.ofList_toList]

/-- A reference is read back from its node. -/
theorem Entry.read?_node (entry : Entry) : Entry.read? entry.node = some entry := by
  have inside : within ["mixed-citation"] entry.node.content = entry.citationNodes := by
    simp [within, Entry.node]
  have text : citationText? entry.citationNodes = some entry.text := by
    -- the text ends at the first element, and what sets that off is not of it
    unfold Entry.citationNodes
    cases entry.doi with
    | some doi => simpa using citationText?_element ..
    | none =>
      cases entry.url with
      | some url => simpa using citationText?_element ..
      | none => simpa using citationText?_chars entry.text
  have doi : texts ["mixed-citation"] "pub-id" entry.node.content = entry.doi.toList := by
    rw [texts, inside]
    simp [Entry.citationNodes, map_toList, Function.comp_def]
  have links : named "ext-link" entry.citationNodes = (entry.url.map fun url =>
      leafNode "ext-link" [("ext-link-type", "uri"), ("xlink:href", url)] url).toList := by
    simp [Entry.citationNodes]
  have url : texts ["mixed-citation"] "ext-link" entry.node.content = entry.url.toList := by
    rw [texts, inside, links]
    simp [map_toList, Function.comp_def]
  have link : (named "ext-link" entry.citationNodes).head?.bind (·.attribute? "xlink:href") =
      entry.url := by
    rw [links]
    cases entry.url <;> rfl
  have id : entry.node.attribute? "id" = some entry.id := rfl
  simp [Entry.read?, id, inside, text, doi, url, link]

/-- A record is read back from its nodes. -/
theorem Record.read?_nodes (r : Record) : Record.read? r.nodes = some r := by
  have article : (named "article" r.nodes).head? = some r.articleNode := rfl
  have lang : r.articleNode.attribute? "xml:lang" = some r.lang := rfl
  have references : (r.references.map Entry.node).mapM Entry.read? = some r.references := by
    induction r.references with
    | nil => rfl
    | cons entry rest ih => simp [Entry.read?_node, ih]
  have pages (page : Option Nat) :
      ((page.map Nat.repr).bind fun text => Text.number? text.toList) = page := by
    cases page with
    | none => rfl
    | some page => exact Text.number?_repr page
  have content : r.articleNode.content = r.content := rfl
  simp [Record.read?, article, lang, content, texts_doi, texts_title, texts_firstPage,
    texts_lastPage, texts_abstract, texts_keywords, texts_paragraphs, named_ref, references, pages]

/-! ### Known tags -/

/-- The tags of records with the keys of their attributes, and with the values that never
change. -/
def template : List (String × List (String × Option String)) :=
  [("article", [("xmlns:xlink", some "http://www.w3.org/1999/xlink"),
      ("article-type", some "research-article"), ("xml:lang", none)]),
    ("front", []), ("article-meta", []), ("article-id", [("pub-id-type", some "doi")]),
    ("title-group", []), ("article-title", []), ("fpage", []), ("lpage", []), ("abstract", []),
    ("p", []), ("kwd-group", []), ("kwd", []), ("body", []), ("back", []), ("ref-list", []),
    ("ref", [("id", none)]), ("mixed-citation", []), ("pub-id", [("pub-id-type", some "doi")]),
    ("ext-link", [("ext-link-type", some "uri"), ("xlink:href", none)])]

/-- Whether attributes have these keys in this order, and the fixed values. -/
def agrees : List (String × Option String) → List (String × String) → Bool
  | [], [] => true
  | (key, fixed) :: pattern, (found, value) :: attributes =>
    key == found && fixed.all (· == value) && agrees pattern attributes
  | _, _ => false

def isKnown : Tag → Bool
  | .opening name attributes =>
    template.any fun known => known.1 == name && agrees known.2 attributes
  | .closing _ => false
  | .declaration inside => inside == xmlDeclaration || inside == docType

/-- Nodes with no other tags than those of records. -/
def Known (nodes : List Node) : Prop := ∀ tag ∈ tagsOf nodes, isKnown tag = true

/-- An opening tag of the template. -/
def IsElementTag : Tag → Prop
  | .opening name attributes =>
    template.any (fun known => known.1 == name && agrees known.2 attributes) = true
  | .closing _ | .declaration _ => False

private def Elements (nodes : List Node) : Prop := ∀ tag ∈ tagsOf nodes, IsElementTag tag

@[simp] private theorem elements_chars (text : String) : Elements (chars text) := by
  simp [Elements]

@[simp] private theorem elements_blanks (level : Nat) : Elements (blanks level) :=
  elements_chars _

@[simp] private theorem elements_nil : Elements [] := by
  simp [Elements]

@[simp] private theorem elements_append (first second : List Node) :
    Elements (first ++ second) ↔ Elements first ∧ Elements second := by
  simp [Elements, or_imp, forall_and]

@[simp] private theorem elements_cons_element (name : String)
    (attributes : List (String × String)) (content rest : List Node) :
    Elements (.element name attributes content :: rest) ↔
      IsElementTag (.opening name attributes) ∧ Elements content ∧ Elements rest := by
  simp [Elements, or_imp, forall_and]

@[simp] private theorem elements_present {α : Type} (value : Option α) (nodes : α → List Node) :
    Elements (present value nodes) ↔ ∀ v ∈ value, Elements (nodes v) := by
  cases value <;> simp

@[simp] private theorem elements_flatMap {α : Type} (values : List α) (nodes : α → List Node) :
    Elements (values.flatMap nodes) ↔ ∀ v ∈ values, Elements (nodes v) := by
  induction values with
  | nil => simp
  | cons v rest ih => simp [ih]

@[simp] private theorem isElementTag_opening (name : String) (attributes : List (String × String)) :
    IsElementTag (.opening name attributes) ↔
      template.any (fun known => known.1 == name && agrees known.2 attributes) = true :=
  Iff.rfl

private theorem elements_keywordNodes (keywords : List String) :
    Elements (keywordNodes keywords) := by
  unfold keywordNodes
  split <;> simp [template, agrees]

private theorem elements_frontNodes : Elements r.frontNodes := by
  simp [Record.frontNodes, Record.metaNodes, elements_keywordNodes, template, agrees]

private theorem elements_bodyNodes : Elements r.bodyNodes := by
  simp [Record.bodyNodes, template, agrees]

private theorem elements_node (entry : Entry) : Elements [entry.node] := by
  simp [Entry.node, Entry.citationNodes, template, agrees]

private theorem elements_backNodes : Elements r.backNodes := by
  unfold Record.backNodes
  split <;> simp [elements_node, template, agrees]

/-- Inside the declarations a record has tags of the template only. -/
theorem isElementTag_articleNode : ∀ tag ∈ tagsOf [r.articleNode], IsElementTag tag := by
  have elements : Elements [r.articleNode] := by
    simp [Record.articleNode, Record.content, elements_frontNodes, elements_bodyNodes,
      elements_backNodes, template, agrees]
  exact elements

theorem known_nodes : Known r.nodes := by
  intro tag member
  have stands : tag ∈ [.declaration xmlDeclaration, .declaration docType] ∨
      tag ∈ tagsOf [r.articleNode] := by
    simpa [Record.nodes, or_assoc] using member
  rcases stands with declared | inside
  · have declarations : ∀ tag ∈ [Tag.declaration xmlDeclaration, .declaration docType],
        isKnown tag = true := by
      simp [isKnown]
    exact declarations tag declared
  · have element := isElementTag_articleNode r tag inside
    cases tag with
    | opening name attributes => exact element
    | closing | declaration => exact element.elim

/-- The text of a record is made of elements with the known tags, and says of the article what the
record is to say, which is the same of articles with the same text. -/
theorem render_readsBack (article : Article) (lang : String) :
    (∃ nodes, nodes? numericReferences (render article lang) = some nodes ∧ Known nodes ∧
      Record.read? nodes = some (Record.of article lang)) ∧
    ∀ other tongue, render other tongue = render article lang →
      Record.of other tongue = Record.of article lang := by
  have reads (article : Article) (lang : String) :
      (nodes? numericReferences (render article lang)).bind Record.read? =
        some (Record.of article lang) := by
    rw [nodes?_render, Option.bind_some, Record.read?_nodes]
  refine ⟨⟨_, nodes?_render article lang, known_nodes _, Record.read?_nodes _⟩, ?_⟩
  -- one text cannot read as two records
  intro other tongue same
  rw [← Option.some_inj, ← reads, same, reads]

/-- Every part of a record comes out, also where texts look like markup. -/
theorem render_readsBack_filled :
    ∃ nodes,
      nodes? numericReferences (render
        { id := "a", metadata := [("en", ⟨some "A <b> & \"B\"", some "&#60;p&#62; ",
            some "x, ,a&b;, y z "⟩), ("ru", ⟨some "B", some " ", none⟩)],
          content := some (.paragraph [.text "'1' < 2" []]), doi := some " 10.1/<x> ",
          firstPage := some 3, lastPage := some 14,
          references := [
            { id := none, text := ⟨[("ru", "R & <S>"), ("en", "T ")], by decide⟩,
              doi := some "10.2/\"y\"", url := none },
            { id := some "k", text := ⟨[("ru", "only")], by decide⟩, doi := some "",
              url := some "http://z?a&b" }] } "en") = some nodes ∧ Known nodes ∧
      Record.read? nodes = some
        { lang := "en", doi := some " 10.1/<x> ", title := "A <b> & \"B\"", firstPage := some 3,
          lastPage := some 14, abstract := some "&#60;p&#62; ", keywords := ["x", "a&b;", "y z"],
          paragraphs := ["'1' < 2"],
          references := [{ id := "ref1", text := "T ", doi := some "10.2/\"y\"", url := none },
            { id := "ref2", text := "only", doi := none, url := some "http://z?a&b" }] } := by
  obtain ⟨nodes, made, known, reads⟩ := (render_readsBack _ _).1
  exact ⟨nodes, made, known, reads.trans (by decide)⟩

end Galley.Rendition.Jats
