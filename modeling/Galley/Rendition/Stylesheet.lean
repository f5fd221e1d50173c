/-!
# The built-in stylesheet

The look of the article page: rules with their declarations, and how a sheet of them is written.
-/
namespace Galley.Rendition

/-- A rule of a stylesheet. Its selectors are grouped by line. A compact rule is written on one
line. -/
inductive Rule where
  | spread (selectors : List (List String)) (declarations : List (String × String))
      (nested : List Rule)
  | compact (selectors : List (List String)) (declarations : List (String × String))

namespace Rule

def selectorText (selectors : List (List String)) : String :=
  String.intercalate ",\n" (selectors.map (String.intercalate ", "))

def declarationText (declaration : String × String) : String :=
  declaration.1 ++ ": " ++ declaration.2 ++ ";"

def isCompact : Rule → Bool
  | .compact _ _ => true
  | .spread _ _ _ => false

mutual

/-- A rule as text, `margin` in from the left, with the line feed at its end. -/
def print (margin : String) : Rule → String
  | .compact selectors declarations =>
    margin ++ selectorText selectors ++ " \x7b " ++
      String.intercalate " " (declarations.map declarationText) ++ " \x7d\n"
  | .spread selectors declarations nested =>
    margin ++ selectorText selectors ++ " \x7b\n" ++
      String.join (declarations.map fun d => margin ++ "  " ++ declarationText d ++ "\n") ++
      printNested (margin ++ "  ") declarations.isEmpty nested ++ margin ++ "\x7d\n"

/-- Nested rules, an empty line before each but one that comes first. -/
def printNested (margin : String) (first : Bool) : List Rule → String
  | [] => ""
  | rule :: rest =>
    (if first then "" else "\n") ++ print margin rule ++ printNested margin false rest

end

/-- Rules in sequence. An empty line stands between two rules unless both are compact. -/
def printAll : List Rule → String
  | [] => ""
  | [rule] => print "" rule
  | rule :: next :: rest =>
    print "" rule ++ (if rule.isCompact && next.isCompact then "" else "\n") ++
      printAll (next :: rest)

end Rule

namespace Stylesheet

/-- A rule with selectors on one line and nothing nested in it. -/
private def rule (selectors : List String) (declarations : List (String × String)) : Rule :=
  .spread [selectors] declarations []

/-- The sheet of a printed page. -/
private def pageRules : List Rule :=
  [.spread [["@page"]] [("size", "A4"), ("margin", "25mm 20mm")]
      [rule ["@top-right"]
          [("content", "string(article-title, first)"), ("font-size", "9pt"), ("color", "#666")],
        rule ["@bottom-center"] [("content", "counter(page)"), ("font-size", "10pt")]],
    .spread [["@page:first"]] [] [.compact [["@top-right"]] [("content", "none")]]]

private def textRules : List Rule :=
  [rule ["html"]
      [("font-family", "'Times New Roman', 'Liberation Serif', serif"), ("font-size", "12pt"),
        ("line-height", "1.6"), ("color", "#000")],
    rule ["body"] [("margin", "0"), ("padding", "0")],
    rule ["article"] [("hyphens", "auto")],
    rule ["h1", "h2", "h3", "h4", "h5", "h6"]
      [("font-weight", "bold"), ("page-break-after", "avoid")],
    .compact [["h1"]] [("font-size", "18pt"), ("margin", "24pt 0 12pt"), ("line-height", "1.3")],
    .compact [["h2"]] [("font-size", "14pt"), ("margin", "18pt 0 9pt")],
    .compact [["h3"]] [("font-size", "12pt"), ("margin", "12pt 0 6pt")]]

private def headerRules : List Rule :=
  [rule [".article-header"]
      [("margin-bottom", "24pt"), ("padding-bottom", "12pt"), ("border-bottom", "2pt solid #333")],
    rule [".article-title"]
      [("string-set", "article-title content()"), ("font-size", "20pt"), ("text-align", "center")],
    rule [".article-doi"]
      [("text-align", "center"), ("font-size", "10pt"), ("color", "#666"),
        ("margin-bottom", "12pt")],
    rule [".article-abstract"]
      [("margin", "18pt 0"), ("padding", "12pt"), ("background", "#f5f5f5"),
        ("border-left", "3pt solid #333")],
    rule [".article-abstract h2"] [("font-size", "12pt"), ("margin-top", "0")],
    rule [".article-keywords"] [("font-size", "10pt"), ("margin-top", "12pt")]]

private def blockRules : List Rule :=
  [rule ["p"] [("margin", "0 0 12pt"), ("text-align", "justify"), ("text-indent", "1.5em")],
    .spread [["p:first-of-type"], ["h1 + p"], ["h2 + p"], ["h3 + p"]] [("text-indent", "0")] [],
    rule ["ul", "ol"] [("margin", "12pt 0"), ("padding-left", "24pt")],
    rule ["li"] [("margin-bottom", "6pt")],
    rule ["table"]
      [("width", "100%"), ("border-collapse", "collapse"), ("margin", "18pt 0"),
        ("page-break-inside", "avoid")],
    rule ["th", "td"] [("border", "1pt solid #333"), ("padding", "6pt"), ("text-align", "left")],
    rule ["th"] [("background", "#f0f0f0")],
    .spread [[".math-display"], [".katex-display"]]
      [("margin", "18pt 0"), ("text-align", "center")] [],
    rule ["code"]
      [("font-family", "'Courier New', monospace"), ("font-size", "10pt"),
        ("background", "#f5f5f5"), ("padding", "2pt 4pt"), ("border-radius", "2pt")],
    rule ["pre"]
      [("background", "#f5f5f5"), ("padding", "12pt"), ("border-radius", "4pt"),
        ("overflow-x", "auto"), ("margin", "12pt 0"), ("page-break-inside", "avoid")],
    rule ["pre code"] [("background", "none"), ("padding", "0")],
    rule ["blockquote"]
      [("margin", "18pt 24pt"), ("padding-left", "12pt"), ("border-left", "3pt solid #ccc"),
        ("font-style", "italic"), ("color", "#666")]]

private def referenceRules : List Rule :=
  [rule [".article-references"] [("margin-top", "24pt")],
    rule [".references-list"] [("list-style-type", "decimal"), ("padding-left", "24pt")],
    rule [".references-list li"]
      [("margin-bottom", "9pt"), ("font-size", "10pt"), ("line-height", "1.4")],
    rule ["a"] [("color", "#0066cc"), ("text-decoration", "none")]]

/-- The rules of the article page. -/
def rules : List Rule := pageRules ++ textRules ++ headerRules ++ blockRules ++ referenceRules

/-- The built-in stylesheet. -/
def builtin : String := Rule.printAll rules

end Stylesheet
end Galley.Rendition
