import Galley.Rendition.Shared
/-!
# Articles as JATS records

The record for archives: front matter, one paragraph per block of the document, and the references
numbered in order.
-/
namespace Galley.Rendition.Jats

open Galley.Markup (Item)

/-- The declarations before the record's element. -/
def prologue : String :=
  "<?xml version=\"1.0\" encoding=\"UTF-8\"?>\n<!DOCTYPE article PUBLIC " ++
    "\"-//NLM//DTD JATS (Z39.96) Journal Archiving and Interchange DTD v1.2 20190208//EN\" " ++
    "\"JATS-archivearticle1.dtd\">\n"

def articleStart (lang : String) : Item :=
  .opening "article"
    [.fixed "xmlns:xlink" "http://www.w3.org/1999/xlink",
      .fixed "article-type" "research-article", .valued "xml:lang" .numeric lang]

def keywordGroup (keywords : List String) : List Item :=
  if keywords.isEmpty then []
  else
    [indent 3, .start "kwd-group"] ++
      keywords.flatMap (fun keyword => indent 4 :: leaf (.start "kwd") "kwd" keyword) ++
      [indent 3, .closing "kwd-group"]

/-- The number of a page between its tags. -/
private def page (name : String) (number : UInt32) : List Item :=
  indent 3 :: leaf (.start name) name (toString number.toNat)

def front (article : Article) (lang : String) : List Item :=
  [indent 1, .start "front", indent 2, .start "article-meta"] ++
    whenPresent article.doi? (fun doi =>
      indent 3 :: leaf (.opening "article-id" [.fixed "pub-id-type" "doi"]) "article-id" doi) ++
    [indent 3, .start "title-group", indent 4] ++
    leaf (.start "article-title") "article-title" ((article.titleFor? lang).getD untitled) ++
    [indent 3, .closing "title-group"] ++
    whenPresent article.firstPage (page "fpage") ++
    whenPresent article.lastPage (page "lpage") ++
    whenPresent (article.abstractFor? lang) (fun text =>
      [indent 3, .start "abstract", indent 4] ++ leaf (.start "p") "p" text ++
        [indent 3, .closing "abstract"]) ++
    keywordGroup (article.keywordsFor lang) ++
    [indent 2, .closing "article-meta", indent 1, .closing "front"]

def body (article : Article) : List Item :=
  [indent 1, .start "body"] ++
    (paragraphs article).flatMap (fun text => indent 2 :: leaf (.start "p") "p" text) ++
    [indent 1, .closing "body"]

/-- A reference with its number. -/
def citation (number : Nat) (shown : Citation) : List Item :=
  [indent 3, .opening "ref" [.fixed "id" ("ref" ++ toString number)],
    indent 4, .start "mixed-citation", .numbered shown.text] ++
    whenPresent shown.doi (fun doi =>
      .raw " " :: leaf (.opening "pub-id" [.fixed "pub-id-type" "doi"]) "pub-id" doi) ++
    whenPresent shown.url (fun url =>
      .raw " " ::
        leaf (.opening "ext-link" [.fixed "ext-link-type" "uri", .valued "xlink:href" .numeric url])
          "ext-link" url) ++
    [.closing "mixed-citation", indent 3, .closing "ref"]

/-- References numbered from `number` on. -/
def citationsFrom (number : Nat) : List Citation → List Item
  | [] => []
  | shown :: rest => citation number shown ++ citationsFrom (number + 1) rest

def back (shown : List Citation) : List Item :=
  if shown.isEmpty then []
  else
    [indent 1, .start "back", indent 2, .start "ref-list"] ++ citationsFrom 1 shown ++
      [indent 2, .closing "ref-list", indent 1, .closing "back"]

/-- The record after its declarations. -/
def items (article : Article) (lang : String) : List Item :=
  [articleStart lang] ++ front article lang ++ body article ++ back (citations article lang) ++
    [indent 0, .closing "article"]

/-- An article in a language as a JATS record. -/
def render (article : Article) (lang : String) : String :=
  prologue ++ Markup.print (items article lang)

end Galley.Rendition.Jats
