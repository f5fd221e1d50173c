import Galley.Rendition.Shared
import Galley.Rendition.Stylesheet
import Galley.Render.Html
import Galley.Text.Lines
/-!
# The article page

A standalone HTML document: it is the HTML artifact, and what the paged-media engine lays out. The
stylesheet is inlined or linked.
-/
namespace Galley.Rendition

open Galley.Markup (Item Attribute)

/-- How the page gets its stylesheet. -/
inductive PageStyle where
  | inline (css : String)
  | linked (href : String)
deriving DecidableEq, Repr

/-- The built-in stylesheet, inlined. -/
def PageStyle.builtin : PageStyle := .inline Stylesheet.builtin

namespace Page

/-- Where the page loads the typesetting of formulas from. -/
def katexBase : String := "https://cdn.jsdelivr.net/npm/katex@0.16.9/dist"

/-- The body of an article without a document. -/
def emptyBody : List Item := Render.Html.element "p" [.raw noContent] ++ [.raw "\n"]

/-- An opening tag with a class of the stylesheet. -/
def classed (name style : String) : Item := .opening name [.fixed "class" style]

def stylesheetLink (href : Attribute) : Item :=
  .opening "link" [.fixed "rel" "stylesheet", href]

def deferredScript (path : String) : List Item :=
  [.opening "script" [.flag "defer", .fixed "src" (katexBase ++ path)], .closing "script"]

def head (article : Article) (lang : String) (style : PageStyle) : List Item :=
  [.start "head", indent 1, .opening "meta" [.fixed "charset" "UTF-8"], indent 1,
    .opening "meta"
      [.fixed "name" "viewport", .fixed "content" "width=device-width, initial-scale=1.0"]] ++
    whenPresent (article.titleFor? lang) (fun title =>
      indent 1 :: leaf (.start "title") "title" title) ++
    (match style with
      | .inline css =>
        [indent 1, .start "style", .raw "\n", .raw css, indent 1, .closing "style"]
      | .linked href => [indent 1, stylesheetLink (.valued "href" .numeric href)]) ++
    [indent 1, stylesheetLink (.fixed "href" (katexBase ++ "/katex.min.css")), indent 1] ++
    deferredScript "/katex.min.js" ++ [indent 1] ++
    deferredScript "/contrib/auto-render.min.js" ++
    [indent 0, .closing "head"]

/-- A DOI as a link to its resolver. -/
def doiLink (doi : String) : List Item :=
  leaf (.opening "a" [.valued "href" .numeric ("https://doi.org/" ++ doi)]) "a" doi

def header (article : Article) (lang : String) : List Item :=
  let keywords := article.keywordsFor lang
  [indent 2, classed "header" "article-header"] ++
    whenPresent (article.titleFor? lang) (fun title =>
      indent 3 :: leaf (classed "h1" "article-title") "h1" title) ++
    whenPresent article.doi? (fun doi =>
      [indent 3, classed "div" "article-doi", .raw "DOI: "] ++ doiLink doi ++ [.closing "div"]) ++
    whenPresent (article.abstractFor? lang) (fun text =>
      [indent 3, classed "div" "article-abstract", indent 4, .start "h2", .raw "Abstract",
        .closing "h2", indent 4] ++ leaf (.start "p") "p" text ++ [indent 3, .closing "div"]) ++
    (if keywords.isEmpty then []
      else
        [indent 3, classed "div" "article-keywords", .start "strong", .raw "Keywords:",
          .closing "strong", .raw " ", .numbered (Text.joinWith ", " keywords), .closing "div"]) ++
    [indent 2, .closing "header"]

def body (article : Article) : List Item :=
  match article.content with
  | some node => Render.Html.block node
  | none => emptyBody

def citation (shown : Citation) : List Item :=
  [indent 4, .start "li", .numbered shown.text] ++
    whenPresent shown.doi (fun doi => .raw " DOI: " :: doiLink doi) ++
    whenPresent shown.url (fun url =>
      .raw " " :: leaf (.opening "a" [.valued "href" .numeric url]) "a" url) ++
    [.closing "li"]

def references (shown : List Citation) : List Item :=
  if shown.isEmpty then []
  else
    [.raw "\n", indent 2, classed "section" "article-references", indent 3, .start "h2",
      .raw "References", .closing "h2", indent 3, classed "ol" "references-list"] ++
      shown.flatMap citation ++ [indent 3, .closing "ol", indent 2, .closing "section"]

/-- The script that typesets the formulas of the page. -/
def script : String :=
  "\n    document.addEventListener('DOMContentLoaded', function () \x7b\n" ++
    "      renderMathInElement(document.body, \x7b\n" ++
    "        delimiters: [\n" ++
    "          \x7b left: '$$', right: '$$', display: true \x7d,\n" ++
    "          \x7b left: '$', right: '$', display: false \x7d\n" ++
    "        ]\n" ++
    "      \x7d);\n" ++
    "    \x7d);\n" ++
    "  "

/-- The page after its document type. -/
def items (article : Article) (lang : String) (style : PageStyle) : List Item :=
  [.opening "html" [.valued "lang" .numeric lang], indent 0] ++ head article lang style ++
    [indent 0, .start "body", indent 1, .start "article"] ++ header article lang ++
    [.raw "\n", indent 2, classed "main" "article-content", .raw "\n"] ++ body article ++
    [indent 2, .closing "main"] ++ references (citations article lang) ++
    [indent 1, .closing "article", indent 1, .start "script", .raw script, .closing "script",
      indent 0, .closing "body", indent 0, .closing "html"]

/-- An article in a language as a standalone page. -/
def render (article : Article) (lang : String) (style : PageStyle) : String :=
  "<!DOCTYPE html>\n" ++ Markup.print (items article lang style)

end Page
end Galley.Rendition
