import Galley.Proofs.Markup.WellFormed
import Galley.Proofs.Rendition.JatsRecord
/-!
# JATS records as documents

Escaping keeps a text out of the markup of a record, whatever its characters are. It does not keep
characters out that no document may have, since these cannot be referred to either.

## Main result

`render_wellFormed_iff`: the text of a record is a well-formed document if and only if the texts
that it shows of the article have no such characters.

That it has the form of a document follows from how it reads (`document_render`): it is the spelling
of its nodes, and their tags are those of the template.
-/
namespace Galley.Rendition.Jats

open Galley.Markup
open Galley.Markup.Xml (IsChar WellFormed Allowed Legal)

/-! ### The form of a document -/

private theorem keys_of_agrees {pattern : List (String × Option String)}
    {attributes : List (String × String)} (agree : agrees pattern attributes = true) :
    attributes.map Prod.fst = pattern.map Prod.fst := by
  induction pattern, attributes using agrees.induct with
  | case1 => rfl
  | case2 key fixed pattern found value attributes ih =>
    simp only [agrees, Bool.and_eq_true, beq_iff_eq] at agree
    simp [agree.1.1, ih agree.2]
  | case3 pattern attributes other none =>
    rw [agrees] at agree
    · cases agree
    · exact other
    · exact none

private theorem isStart_of_isElementTag {tag : Tag} (element : IsElementTag tag) :
    Xml.IsStart tag := by
  cases tag with
  | closing | declaration => exact element.elim
  | opening name attributes =>
    obtain ⟨known, listed, same⟩ := List.any_eq_true.mp element
    rw [Bool.and_eq_true, beq_iff_eq] at same
    obtain ⟨rfl, agree⟩ := same
    have names : ∀ known ∈ template, Xml.isName known.1 = true ∧
        (∀ key ∈ known.2.map Prod.fst, Xml.isName key = true) ∧
          (known.2.map Prod.fst).Nodup := by
      decide +kernel
    obtain ⟨named, keys, distinct⟩ := names known listed
    rw [← keys_of_agrees agree] at keys distinct
    exact ⟨named, fun a member => keys a.1 (List.mem_map_of_mem member), distinct⟩

/-- A record has the form of a document, whatever the texts of the article are. -/
theorem document_render (article : Article) (lang : String) :
    Xml.Document (render article lang).toList := by
  have root : Xml.Element (Record.of article lang).articleNode.spelling :=
    Xml.element_spelling fun tag member =>
      isStart_of_isElementTag (isElementTag_articleNode (Record.of article lang) tag member)
  have version : Xml.VersionDeclaration (bracketed xmlDeclaration.toList) :=
    @Xml.VersionDeclaration.mk "0".toList "UTF-8".toList (by decide) (by decide) (by decide)
  have type : Xml.TypeDeclaration (bracketed docType.toList) := by
    have parts : docType.toList = "!DOCTYPE ".toList ++ "article".toList ++ " PUBLIC \"".toList ++
        ("-//NLM//DTD JATS (Z39.96) Journal Archiving and Interchange DTD v1.2 " ++
          "20190208//EN").toList ++ "\" \"".toList ++ "JATS-archivearticle1.dtd".toList ++
            ['"'] := by
      decide +kernel
    rw [parts]
    exact .mk (by decide) (by decide +kernel) (by decide)
  have line : spelling (chars "\n") = ['\n'] := by decide
  have blank : ['\n'].all Xml.isSpace = true := by decide
  have whole := Xml.Document.mk version blank type blank root
  rw [eq_spelling_of_nodes? (nodes?_render article lang), Record.nodes]
  simpa [line, spelling, Node.spelling] using whole

/-! ### Characters -/

/-- The texts of the article that a record shows. -/
def shownTexts (article : Article) (lang : String) : List String :=
  lang :: article.doi?.toList ++ (article.titleFor? lang).getD untitled ::
    (article.abstractFor? lang).toList ++ article.keywordsFor lang ++ paragraphs article ++
    (citations article lang).flatMap fun shown =>
      shown.text :: (shown.doi.toList ++ shown.url.toList)

@[simp] private theorem legal_whenPresent {α : Type} (value : Option α) (items : α → List Item) :
    Legal (whenPresent value items) ↔ ∀ v ∈ value, Legal (items v) := by
  cases value <;> simp [whenPresent]

@[simp] private theorem allowed_indent (level : Nat) : Allowed (indent level).print := by
  have printed : (indent level).print.toList = '\n' :: List.replicate (2 * level) ' ' := by
    simp [indent, Item.raw, Item.print, Data.print, flatMap_verbatim, Escaping.char]
  intro c member
  rw [printed, List.mem_cons, List.mem_replicate] at member
  rcases member with rfl | ⟨-, rfl⟩ <;> decide

/-- The characters of a leaf are those of its tags and of its text. -/
@[simp] private theorem legal_leaf (opening : Item) (name text : String) :
    Legal (leaf opening name text) ↔
      Allowed opening.print ∧ Allowed text ∧ Allowed name := by
  simp [leaf]

private theorem legal_keywordGroup (keywords : List String) :
    Legal (keywordGroup keywords) ↔ ∀ keyword ∈ keywords, Allowed keyword := by
  unfold keywordGroup
  split
  next empty => simp [List.isEmpty_iff.mp empty]
  next => simp +decide

private theorem legal_front (article : Article) (lang : String) :
    Legal (front article lang) ↔
      (∀ doi ∈ article.doi?, Allowed doi) ∧ Allowed ((article.titleFor? lang).getD untitled) ∧
        (∀ text ∈ article.abstractFor? lang, Allowed text) ∧
          ∀ keyword ∈ article.keywordsFor lang, Allowed keyword := by
  -- digits are allowed, so the pages have no say in it
  have page (name : String) (named : Allowed name) (number : UInt32) :
      Legal (indent 3 :: leaf (.start name) name (toString number.toNat)) := by
    simp [named]
  have fpage := page "fpage" (by decide)
  have lpage := page "lpage" (by decide)
  simp +decide only [front, Xml.legal_append, Xml.legal_cons, Xml.legal_nil, legal_whenPresent,
    legal_leaf, legal_keywordGroup, true_and, and_true]
  constructor
  · rintro ⟨⟨⟨⟨⟨doi, title⟩, -⟩, -⟩, abstract⟩, keywords⟩
    exact ⟨doi, title, abstract, keywords⟩
  · rintro ⟨doi, title, abstract, keywords⟩
    exact ⟨⟨⟨⟨⟨doi, title⟩, fun v _ => fpage v⟩, fun v _ => lpage v⟩, abstract⟩, keywords⟩

private theorem legal_body (article : Article) :
    Legal (body article) ↔ ∀ text ∈ paragraphs article, Allowed text := by
  simp +decide [body]

private theorem legal_citation (number : Nat) (shown : Citation) :
    Legal (citation number shown) ↔
      Allowed shown.text ∧ (∀ doi ∈ shown.doi, Allowed doi) ∧ ∀ url ∈ shown.url, Allowed url := by
  simp +decide [citation]

private theorem legal_citationsFrom (number : Nat) (shown : List Citation) :
    Legal (citationsFrom number shown) ↔ ∀ one ∈ shown,
      Allowed one.text ∧ (∀ doi ∈ one.doi, Allowed doi) ∧ ∀ url ∈ one.url, Allowed url := by
  induction shown generalizing number with
  | nil => simp [citationsFrom]
  | cons first rest ih => simp [citationsFrom, legal_citation, ih]

private theorem legal_back (article : Article) (lang : String) :
    Legal (back (citations article lang)) ↔ ∀ one ∈ citations article lang,
      Allowed one.text ∧ (∀ doi ∈ one.doi, Allowed doi) ∧ ∀ url ∈ one.url, Allowed url := by
  unfold back
  split
  next empty => simp [List.isEmpty_iff.mp empty]
  next => simp +decide [legal_citationsFrom]

/-- The characters of a record are allowed if those of the texts are. -/
theorem chars_render (article : Article) (lang : String) :
    (∀ c ∈ (render article lang).toList, IsChar c) ↔
      ∀ text ∈ shownTexts article lang, Allowed text := by
  have fixed : Allowed prologue := by decide +kernel
  have written : Legal (items article lang) ↔ ∀ text ∈ shownTexts article lang, Allowed text := by
    simp +decide only [items, articleStart, Xml.legal_append, Xml.legal_cons, Xml.legal_nil,
      legal_front, legal_body, legal_back, Xml.allowed_opening, Xml.allowed_valued,
      List.forall_mem_cons, shownTexts, List.forall_mem_append, List.forall_mem_flatMap,
      Option.mem_toList, Option.mem_def, true_and, and_true, and_assoc]
  rw [← written, render, String.toList_append, List.forall_mem_append]
  exact and_iff_right fixed

/-- **Records are documents**: the text of a record is well-formed unless a text of the article has
a character that no document may have. -/
theorem render_wellFormed_iff (article : Article) (lang : String) :
    WellFormed (render article lang).toList ↔
      ∀ text ∈ shownTexts article lang, ∀ c ∈ text.toList, IsChar c := by
  constructor
  · intro formed
    exact (chars_render article lang).mp formed.chars
  · intro allowed
    exact ⟨(chars_render article lang).mpr allowed, document_render article lang⟩

/-- An article whose title has a control character. -/
def controlTitle : String :=
  "\x7b\"id\":\"a\",\"metadata\":\x7b\"en\":\x7b\"title\":\"a\\u0001b\"\x7d\x7d\x7d"

/-- An article can be spelled whose record is no document. -/
theorem render_not_wellFormed :
    ∃ article, Article.ofText controlTitle = .ok article ∧
      ¬ WellFormed (render article "en").toList := by
  have title : (Article.ofText controlTitle).toOption.bind (·.titleFor? "en") = some "a\x01b" := by
    decide +kernel
  cases spelled : Article.ofText controlTitle with
  | error fault =>
    rw [spelled] at title
    cases title
  | ok article =>
    refine ⟨article, rfl, fun formed => ?_⟩
    rw [spelled] at title
    have named : article.titleFor? "en" = some "a\x01b" := title
    have shown : "a\x01b" ∈ shownTexts article "en" := by simp [shownTexts, named]
    have allowed := (chars_render article "en").mp formed.chars "a\x01b" shown
    exact absurd allowed (by decide)

end Galley.Rendition.Jats
