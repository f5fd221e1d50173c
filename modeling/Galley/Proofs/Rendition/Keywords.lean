import Galley.FrontMatter
import Galley.Proofs.Article.Keywords
import Galley.Proofs.Rendition.Paragraphs
import Galley.Rendition.Page
/-!
# Keywords in renditions

Preambles, pages and records show the keywords of an article each in one part, and get them all from
the same list. What is shown of a keyword line is thus settled by the text that its keywords are
joined to.

## Main result

`keywords_determined`: the keyword line determines the keywords, and their joined text does as well.
-/
namespace Galley

open Galley.Article (IsKeyword Metadata)
open Galley.Markup (Escaping Item)
open Galley.Text (isAllBlank joinWith trim visible)

/-! ### Articles that differ in keywords -/

namespace Article

/-- Articles that are the same but for the keywords, as far as one language shows. -/
structure SameButKeywords (lang : String) (article other : Article) : Prop where
  content : other.content = article.content
  title : other.titleFor? lang = article.titleFor? lang
  abstract : other.abstractFor? lang = article.abstractFor? lang
  doi : other.doi? = article.doi?
  firstPage : other.firstPage = article.firstPage
  lastPage : other.lastPage = article.lastPage
  references : other.references = article.references

theorem SameButKeywords.refl (article : Article) (lang : String) :
    article.SameButKeywords lang article :=
  ⟨rfl, rfl, rfl, rfl, rfl, rfl, rfl⟩

theorem isKeyword_of_mem_keywordsFor (article : Article) (lang : String) :
    ∀ keyword ∈ article.keywordsFor lang, IsKeyword keyword := by
  unfold keywordsFor
  cases article.metadataFor? lang with
  | none => exact List.forall_mem_nil _
  | some metadata => exact Metadata.isKeyword_of_mem_keywordList

end Article

namespace Rendition

/-! ### Where keywords are shown -/

/-- The renditions that show keywords. -/
inductive Format where
  | preamble (builder : FrontMatter)
  | page (style : PageStyle)
  | jats
  | plainText

namespace Format

def render (format : Format) (article : Article) (lang : String) : String :=
  match format with
  | .preamble builder =>
    builder.build (article.metadataFor? lang) article.doi? article.firstPage article.lastPage lang
  | .page style => Page.render article lang style
  | .jats => Jats.render article lang
  | .plainText => PlainText.render article lang

/-- The part of a rendition that shows the keywords. -/
def keywordPart (format : Format) (keywords : List String) : String :=
  if keywords.isEmpty then ""
  else
    match format with
    | .preamble _ => "keywords: [" ++ joinWith ", " (keywords.map FrontMatter.quoted) ++ "]\n"
    | .page _ =>
      "\n      <div class=\"article-keywords\"><strong>Keywords:</strong> " ++
        Escaping.numeric.apply (joinWith ", " keywords) ++ "</div>"
    | .jats =>
      "\n      <kwd-group>" ++
        String.join (keywords.map fun keyword =>
          "\n        <kwd>" ++ Escaping.numeric.apply keyword ++ "</kwd>") ++
        "\n      </kwd-group>"
    | .plainText => "\n\nKeywords: " ++ joinWith ", " keywords

/-- The keywords are shown in one part, and the rest of the rendition does not depend on them. -/
def ShowsKeywords (format : Format) (article : Article) (lang : String) : Prop :=
  ∃ before after, ∀ other, article.SameButKeywords lang other →
    format.render other lang = before ++ format.keywordPart (other.keywordsFor lang) ++ after

variable (article : Article) (lang : String)

/-! ### Preambles -/

/-- The line of a preamble with the keywords. -/
def keywordLines (keywords : List String) : List String :=
  if keywords.isEmpty then []
  else
    [FrontMatter.pair "keywords"
      ("[" ++ joinWith ", " (keywords.map FrontMatter.quoted) ++ "]")]

theorem join_keywordLines (builder : FrontMatter) (keywords : List String) :
    String.join ((keywordLines keywords).map (· ++ "\n")) =
      (preamble builder).keywordPart keywords := by
  have start : "keywords: [" = "keywords" ++ ": " ++ "[" := by decide
  have ending : "]\n" = "]" ++ "\n" := by decide
  unfold keywordLines keywordPart
  split
  · rfl
  · rw [start, ending]
    simp only [FrontMatter.pair, List.map_cons, List.map_nil, String.join_cons, String.join_nil,
      String.append_empty, String.append_assoc]

/-- What a preamble says of the metadata is what the article has in its language. -/
theorem metadataLines_eq :
    (article.metadataFor? lang).elim [] FrontMatter.metadataLines =
      FrontMatter.optionalPair "title" ((article.titleFor? lang).map FrontMatter.quoted) ++
        (article.abstractFor? lang).elim [] (fun text =>
          FrontMatter.pair "abstract" "|2" :: (Text.lines text).map ("  " ++ ·)) ++
        keywordLines (article.keywordsFor lang) := by
  unfold Article.titleFor? Article.abstractFor? Article.keywordsFor
  cases article.metadataFor? lang with
  | none => rfl
  | some metadata =>
    cases abstract : metadata.abstract? <;>
      simp [FrontMatter.metadataLines, FrontMatter.titleLines, FrontMatter.abstractLines,
        FrontMatter.keywordLines, keywordLines, abstract]

theorem preamble_shows (builder : FrontMatter) :
    (preamble builder).ShowsKeywords article lang := by
  have shape (metadata : Option Metadata) (doi : Option String)
      (firstPage lastPage : Option UInt32) :
      builder.lines metadata doi firstPage lastPage lang =
        FrontMatter.fence :: (metadata.elim [] FrontMatter.metadataLines ++
          (builder.lines none doi firstPage lastPage lang).tail) := by
    cases metadata <;> simp [FrontMatter.lines]
  obtain ⟨first, last, lines⟩ : ∃ first last, ∀ other, article.SameButKeywords lang other →
      builder.lines (other.metadataFor? lang) other.doi? other.firstPage other.lastPage lang =
        first ++ keywordLines (other.keywordsFor lang) ++ last :=
    ⟨_, _, fun other same => by
      rw [shape, metadataLines_eq, same.title, same.abstract, same.doi, same.firstPage,
        same.lastPage, ← List.cons_append, ← List.cons_append]⟩
  refine ⟨String.join (first.map (· ++ "\n")), String.join (last.map (· ++ "\n")),
    fun other same => ?_⟩
  rw [render, FrontMatter.build, lines other same, List.map_append, List.map_append,
    String.join_append, String.join_append, join_keywordLines]

/-! ### Pages and records -/

theorem print_numbered (before : List Item) (text : String) (after : List Item) :
    Markup.print (before ++ .numbered text :: after) =
      Markup.print before ++ Escaping.numeric.apply text ++ Markup.print after := by
  rw [Markup.print_append, String.append_assoc, Markup.print, Markup.print, Markup.print]
  simp [Item.numbered, Item.print, Markup.Data.print]

/-- What stands in front of the keywords on a page. -/
def keywordStart : List Item :=
  [indent 3, Page.classed "div" "article-keywords", .start "strong", .raw "Keywords:",
    .closing "strong", .raw " "]

/-- The line of a page with the keywords. -/
def keywordItems (keywords : List String) : List Item :=
  if keywords.isEmpty then []
  else keywordStart ++ [.numbered (joinWith ", " keywords), .closing "div"]

theorem print_keywordItems (style : PageStyle) (keywords : List String) :
    Markup.print (keywordItems keywords) = (page style).keywordPart keywords := by
  have start : Markup.print keywordStart =
      "\n      <div class=\"article-keywords\"><strong>Keywords:</strong> " := by
    decide +kernel
  have ending : Markup.print [.closing "div"] = "</div>" := by decide +kernel
  unfold keywordItems keywordPart
  split
  · rfl
  · rw [print_numbered, start, ending]

theorem page_shows (style : PageStyle) : (page style).ShowsKeywords article lang := by
  obtain ⟨first, last, items⟩ : ∃ first last, ∀ other, article.SameButKeywords lang other →
      Page.items other lang style = first ++ Page.header other lang ++ last :=
    ⟨_, _, fun other same => by
      have head : Page.head other lang style = Page.head article lang style := by
        unfold Page.head
        rw [same.title]
      rw [Page.items, head, Page.body, same.content, citations, same.references,
        List.append_assoc, List.append_assoc, List.append_assoc, List.append_assoc]⟩
  obtain ⟨before, after, header⟩ : ∃ before after, ∀ other, article.SameButKeywords lang other →
      Page.header other lang = before ++ keywordItems (other.keywordsFor lang) ++ after :=
    ⟨_, _, fun other same => by
      rw [Page.header, same.title, same.doi, same.abstract]
      rfl⟩
  refine ⟨"<!DOCTYPE html>\n" ++ Markup.print (first ++ before), Markup.print (after ++ last),
    fun other same => ?_⟩
  change "<!DOCTYPE html>\n" ++ Markup.print (Page.items other lang style) = _
  rw [items other same, header other same, ← print_keywordItems style]
  simp [String.append_assoc]

theorem print_keywordGroup (keywords : List String) :
    Markup.print (Jats.keywordGroup keywords) = jats.keywordPart keywords := by
  have start : Markup.print [indent 3, .start "kwd-group"] = "\n      <kwd-group>" := by
    decide +kernel
  have ending : Markup.print [indent 3, .closing "kwd-group"] = "\n      </kwd-group>" := by
    decide +kernel
  have opened : Markup.print [indent 4, .start "kwd"] = "\n        <kwd>" := by decide +kernel
  have closed : Markup.print [.closing "kwd"] = "</kwd>" := by decide +kernel
  have each : Markup.print (keywords.flatMap fun keyword =>
        indent 4 :: leaf (.start "kwd") "kwd" keyword) =
      String.join (keywords.map fun keyword =>
        "\n        <kwd>" ++ Escaping.numeric.apply keyword ++ "</kwd>") := by
    induction keywords with
    | nil => rfl
    | cons keyword rest ih =>
      have here := print_numbered [indent 4, .start "kwd"] keyword [.closing "kwd"]
      rw [opened, closed] at here
      rw [List.flatMap_cons, Markup.print_append, ih, List.map_cons, String.join_cons]
      exact congrArg (· ++ _) here
  unfold Jats.keywordGroup keywordPart
  split
  · rfl
  · rw [Markup.print_append, Markup.print_append, start, ending, each]

theorem jats_shows : jats.ShowsKeywords article lang := by
  obtain ⟨first, last, items⟩ : ∃ first last, ∀ other, article.SameButKeywords lang other →
      Jats.items other lang = first ++ Jats.front other lang ++ last :=
    ⟨_, _, fun other same => by
      rw [Jats.items, Jats.body, paragraphs, same.content, citations, same.references,
        List.append_assoc, List.append_assoc]⟩
  obtain ⟨before, after, front⟩ : ∃ before after, ∀ other, article.SameButKeywords lang other →
      Jats.front other lang = before ++ Jats.keywordGroup (other.keywordsFor lang) ++ after :=
    ⟨_, _, fun other same => by
      rw [Jats.front, same.doi, same.title, same.firstPage, same.lastPage, same.abstract,
        List.append_assoc]⟩
  refine ⟨Jats.prologue ++ Markup.print (first ++ before), Markup.print (after ++ last),
    fun other same => ?_⟩
  rw [render, Jats.render, items other same, front other same, ← print_keywordGroup]
  simp [String.append_assoc]

theorem plainText_shows : plainText.ShowsKeywords article lang := by
  obtain ⟨title, doi, rest, sections⟩ : ∃ title doi rest, ∀ other,
      article.SameButKeywords lang other → PlainText.sections other lang =
        title :: doi :: rest ++ (if (other.keywordsFor lang).isEmpty then []
          else ["Keywords: " ++ joinWith ", " (other.keywordsFor lang)]) ++ paragraphs article :=
    ⟨_, _, _, fun other same => by
      rw [PlainText.sections, same.title, same.doi, same.abstract, paragraphs, same.content]
      rfl⟩
  have part (keywords : List String) :
      String.join ((if keywords.isEmpty then []
        else ["Keywords: " ++ joinWith ", " keywords]).map ("\n\n" ++ ·)) =
        plainText.keywordPart keywords := by
    unfold keywordPart
    split
    · rfl
    · simp [← String.append_assoc]
  refine ⟨joinWith "\n\n" (title :: doi :: rest),
    String.join ((paragraphs article).map ("\n\n" ++ ·)), fun other same => ?_⟩
  rw [render, PlainText.render, sections other same, List.append_assoc,
    joinWith_append (List.cons_ne_nil _ _), List.map_append, String.join_append, part,
    String.append_assoc]

theorem shows (format : Format) : format.ShowsKeywords article lang := by
  cases format with
  | preamble builder => exact preamble_shows article lang builder
  | page style => exact page_shows article lang style
  | jats => exact jats_shows article lang
  | plainText => exact plainText_shows article lang

theorem render_eq_of_keywordsFor_eq (format : Format) {article other : Article} {lang : String}
    (same : article.SameButKeywords lang other)
    (keywords : other.keywordsFor lang = article.keywordsFor lang) :
    format.render other lang = format.render article lang := by
  obtain ⟨before, after, shown⟩ := format.shows article lang
  rw [shown other same, keywords, ← shown article (.refl article lang)]

end Format

/-! ### Main theorem -/

/-- **A keyword line determines the keywords.** Commas alone cut it, and what stands between two of
them is one keyword without the blanks around it, unless it is blank. So keywords are not empty,
have no comma and no blank at either end, show what the line shows in its order, and come back from
the text that they are joined to: metadata with the same text has the same keywords. Every rendition
shows the keywords in one part of it, and nothing else in it depends on the line. -/
theorem keywords_determined :
    (∀ first rest : String, Metadata.splitKeywords (first ++ "," ++ rest) =
      Metadata.splitKeywords first ++ Metadata.splitKeywords rest) ∧
    (∀ piece : String, ',' ∉ piece.toList →
      Metadata.splitKeywords piece = if isAllBlank piece then [] else [trim piece]) ∧
    (∀ metadata : Metadata,
      (∀ keyword ∈ metadata.keywordList, IsKeyword keyword) ∧
      visible (String.join metadata.keywordList) =
        (visible (metadata.keywords.getD "")).filter (· != ',') ∧
      Metadata.splitKeywords metadata.keywordText = metadata.keywordList) ∧
    (∀ first second : Metadata, first.keywordText = second.keywordText →
      first.keywordList = second.keywordList) ∧
    ∀ (format : Format) (article : Article) (lang : String),
      format.ShowsKeywords article lang ∧
      ∀ other : Article, article.SameButKeywords lang other →
        joinWith ", " (other.keywordsFor lang) = joinWith ", " (article.keywordsFor lang) →
        format.render other lang = format.render article lang := by
  refine ⟨Metadata.splitKeywords_append, fun _ => Metadata.splitKeywords_of_not_mem,
    fun metadata => ⟨Metadata.isKeyword_of_mem_keywordList,
      Metadata.visible_keywordList metadata, Metadata.splitKeywords_keywordText metadata⟩, ?_, ?_⟩
  · intro first second same
    rw [← Metadata.splitKeywords_keywordText first, same, Metadata.splitKeywords_keywordText]
  · intro format article lang
    refine ⟨format.shows article lang, fun other same text => ?_⟩
    apply format.render_eq_of_keywordsFor_eq same
    rw [← Metadata.splitKeywords_joinWith (other.isKeyword_of_mem_keywordsFor lang), text,
      Metadata.splitKeywords_joinWith (article.isKeyword_of_mem_keywordsFor lang)]

/-- Two lines with the same keywords; the first has blanks of several kinds, and empty entries. -/
def looseLine : String := "\u2003a  b,,\u00a0,\nц,"

def tightLine : String := "a  b,ц"

def keywordArticle (line : String) : Article :=
  ⟨"a", none, [("en", ⟨some "T", none, some line⟩)], none, none, none, []⟩

theorem keywords_determined_loose :
    ',' ∉ "\u2003a  b".toList ∧ Metadata.splitKeywords "\u2003a  b" = ["a  b"] ∧
      Metadata.keywordText ⟨none, none, some looseLine⟩ =
        Metadata.keywordText ⟨none, none, some tightLine⟩ ∧
      Metadata.keywordList ⟨none, none, some looseLine⟩ =
        Metadata.keywordList ⟨none, none, some tightLine⟩ ∧
      Format.jats.render (keywordArticle looseLine) "en" =
        Format.jats.render (keywordArticle tightLine) "en" := by
  obtain ⟨_, pieces, _, lists, formats⟩ := keywords_determined
  have single : ',' ∉ "\u2003a  b".toList := by decide
  have text : Metadata.keywordText ⟨none, none, some looseLine⟩ =
      Metadata.keywordText ⟨none, none, some tightLine⟩ := by
    decide +kernel
  have same : (keywordArticle tightLine).SameButKeywords "en" (keywordArticle looseLine) :=
    ⟨rfl, rfl, rfl, rfl, rfl, rfl, rfl⟩
  refine ⟨single, ?_, text, lists _ _ text, (formats .jats _ "en").2 _ same text⟩
  rw [pieces _ single]
  decide +kernel

end Rendition
end Galley
