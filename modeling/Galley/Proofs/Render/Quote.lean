import Galley.Proofs.Render.Numbers
import Galley.Proofs.Text.Split
import Mathlib.Data.List.DropRight
/-!
# Block quotes in Markdown

A block quote puts a marker in front of every line that it quotes, an empty line included, so
nothing that is quoted starts a line of its own. Taking the markers away again gives the quoted
lines, whatever they are; they may have markers in front already (`unquote?_quote`), and so quotes
in quotes are taken apart one by one.

## Main result

`blockquote_unquotes`: a block quote reads back, at any depth, as the Markdown of its content
without the line feeds at its end.
-/
namespace Galley.Render

open Galley.Document (Node)

/-! ### Reading quotes -/

def withoutBreaks (text : List Char) : List Char := Text.dropEndWhile (· == '\n') text

/-- A line without the marker in front of it. -/
def unquoteLine? : List Char → Option (List Char)
  | '>' :: ' ' :: line => some line
  | ['>'] => some []
  | _ => none

/-- The text that the lines of a text quote. Line feeds at the end of the text do not count. -/
def unquote? (text : List Char) : Option (List Char) :=
  ((Text.splitAt '\n' (withoutBreaks text)).mapM unquoteLine?).map (['\n'].intercalate ·)

/-- Markers are taken away so many times. -/
def unquoteTimes? : Nat → List Char → Option (List Char)
  | 0, text => some text
  | depth + 1, text => (unquote? text).bind (unquoteTimes? depth)

/-- Lines with a marker each, and one blank line behind them. -/
def IsQuoteOf (lines : List (List Char)) (text : List Char) : Prop :=
  lines ≠ [] ∧ (∀ line ∈ lines, line.head? = some '>' ∧ '\n' ∉ line) ∧
    text = lines.flatMap (· ++ ['\n']) ++ ['\n']

/-! ### Markers -/

theorem withoutBreaks_append (text : List Char) (count : Nat) :
    withoutBreaks (text ++ List.replicate count '\n') = withoutBreaks text := by
  induction count with
  | zero => rw [List.replicate_zero, List.append_nil]
  | succ count ih =>
    rw [List.replicate_succ', ← List.append_assoc]
    exact (List.rdropWhile_concat_pos _ _ _ (by decide)).trans ih

theorem withoutBreaks_of_last {text : List Char} {last : Char} (other : last ≠ '\n') :
    withoutBreaks (text ++ [last]) = text ++ [last] :=
  List.rdropWhile_concat_neg _ _ _ (by simpa using other)

theorem withoutBreaks_withoutBreaks (text : List Char) :
    withoutBreaks (withoutBreaks text) = withoutBreaks text :=
  List.rdropWhile_idempotent _ _

/-- A line with its marker. -/
def marked (line : List Char) : List Char := if line.isEmpty then ['>'] else '>' :: ' ' :: line

theorem unquoteLine?_marked (line : List Char) : unquoteLine? (marked line) = some line := by
  cases line <;> rfl

theorem head?_marked (line : List Char) : (marked line).head? = some '>' := by
  cases line <;> rfl

theorem not_mem_marked {line : List Char} (clean : '\n' ∉ line) : '\n' ∉ marked line := by
  cases line with
  | nil => decide
  | cons c line => simpa [marked] using clean

theorem mapM_unquoteLine?_marked (lines : List (List Char)) :
    (lines.map marked).mapM unquoteLine? = some lines := by
  induction lines with
  | nil => rfl
  | cons line rest ih => simp [unquoteLine?_marked, ih]

theorem toList_quoteLine (line : List Char) :
    (Markdown.quoteLine (String.ofList line)).toList = marked line ++ ['\n'] := by
  cases line with
  | nil => rfl
  | cons c line => simp [Markdown.quoteLine, marked]

/-- A quote is written line by line. -/
theorem isQuoteOf_quote (inner : String) :
    IsQuoteOf ((Text.splitAt '\n' (withoutBreaks inner.toList)).map marked)
      (Markdown.quote inner).toList := by
  refine ⟨by simpa using Text.splitAt_ne_nil '\n' _, ?_, ?_⟩
  · rw [List.forall_mem_map]
    exact fun line member =>
      ⟨head?_marked line, not_mem_marked (Text.not_mem_of_mem_splitAt line member)⟩
  · rw [Markdown.quote, String.toList_append, String.toList_join, Text.splitOnChar,
      String.toList_ofList, List.flatMap_map, List.flatMap_map, List.flatMap_map]
    simp only [toList_quoteLine]
    rfl

/-! ### Taking markers away -/

/-- Lines that are not empty do not end in a line feed when one stands between them. -/
theorem exists_last_intercalate {lines : List (List Char)} (nonempty : lines ≠ [])
    (solid : ∀ line ∈ lines, line ≠ [] ∧ '\n' ∉ line) :
    ∃ text last, ['\n'].intercalate lines = text ++ [last] ∧ last ≠ '\n' := by
  induction lines with
  | nil => exact absurd rfl nonempty
  | cons line rest ih =>
    rw [List.forall_mem_cons] at solid
    cases rest with
    | nil =>
      obtain ⟨⟨filled, clean⟩, -⟩ := solid
      rcases List.eq_nil_or_concat' line with rfl | ⟨text, last, rfl⟩
      · exact absurd rfl filled
      · refine ⟨text, last, List.intercalate_singleton, ?_⟩
        rintro rfl
        exact clean (by simp)
    | cons next rest =>
      obtain ⟨text, last, ends, other⟩ := ih (List.cons_ne_nil next rest) solid.2
      refine ⟨line ++ '\n' :: text, last, ?_, other⟩
      rw [List.intercalate_cons_cons, ends]
      simp

/-- The lines of a quote are found again. -/
theorem IsQuoteOf.splitAt {lines : List (List Char)} {text : List Char}
    (quotes : IsQuoteOf lines text) : Text.splitAt '\n' (withoutBreaks text) = lines := by
  obtain ⟨nonempty, marks, rfl⟩ := quotes
  have clean : ∀ line ∈ lines, '\n' ∉ line := fun line member => (marks line member).2
  -- the last line has a marker, so it is not dropped with the line feeds behind it
  have kept : withoutBreaks (['\n'].intercalate lines) = ['\n'].intercalate lines := by
    have solid : ∀ line ∈ lines, line ≠ [] ∧ '\n' ∉ line := by
      refine fun line member => ⟨?_, clean line member⟩
      rintro rfl
      cases (marks [] member).1
    obtain ⟨front, last, ends, other⟩ := exists_last_intercalate nonempty solid
    rw [ends, withoutBreaks_of_last other]
  have ends : lines.flatMap (· ++ ['\n']) ++ ['\n'] =
      ['\n'].intercalate lines ++ List.replicate 2 '\n' := by
    rw [Text.flatMap_append_separator nonempty, List.append_assoc]
    rfl
  rw [ends, withoutBreaks_append, kept, Text.splitAt_intercalate nonempty clean]

theorem unquote?_quote (inner : String) :
    unquote? (Markdown.quote inner).toList = some (withoutBreaks inner.toList) := by
  rw [unquote?, (isQuoteOf_quote inner).splitAt, mapM_unquoteLine?_marked, Option.map_some,
    Text.intercalate_splitAt]

theorem unquote?_withoutBreaks (text : List Char) :
    unquote? (withoutBreaks text) = unquote? text := by
  rw [unquote?, unquote?, withoutBreaks_withoutBreaks]

theorem unquoteTimes?_withoutBreaks (depth : Nat) (text : List Char) :
    (unquoteTimes? depth (withoutBreaks text)).map withoutBreaks =
      (unquoteTimes? depth text).map withoutBreaks := by
  cases depth with
  | zero => exact congrArg some (withoutBreaks_withoutBreaks text)
  | succ depth => rw [unquoteTimes?, unquoteTimes?, unquote?_withoutBreaks]

/-! ### Quotes in quotes -/

/-- Nodes inside of so many block quotes. -/
def quotedNodes : Nat → List Node → List Node
  | 0, nodes => nodes
  | depth + 1, nodes => [.blockquote (quotedNodes depth nodes)]

theorem unquoteTimes?_quotedNodes (depth : Nat) (nodes : List Node) :
    (unquoteTimes? depth (Markdown.blocks (quotedNodes depth nodes)).toList).map withoutBreaks =
      some (withoutBreaks (Markdown.blocks nodes).toList) := by
  induction depth with
  | zero => rfl
  | succ depth ih =>
    have outermost : Markdown.blocks (quotedNodes (depth + 1) nodes) =
        Markdown.quote (Markdown.blocks (quotedNodes depth nodes)) := by
      simp [quotedNodes, Markdown.blocks, Markdown.block]
    rw [outermost, unquoteTimes?, unquote?_quote, Option.bind_some, unquoteTimes?_withoutBreaks, ih]

/-- **Block quotes are invertible**: the Markdown of a block quote is lines with a marker and a
blank line, and without the markers the lines are the Markdown of its content, but for line feeds at
the end. Of quotes in quotes the innermost content comes back when the markers of each are taken
away. All this is so whatever the numbers of the lists in a quote; a build that checks them writes
the same Markdown if they fit, and else breaks off. -/
theorem blockquote_unquotes (children : List Node) (lang : String) :
    let renderer : Renderer := ⟨.markdown, lang⟩
    let markdown (node : Node) := (renderer.render node).toList
    (∃ lines, IsQuoteOf lines (markdown (.blockquote children)) ∧
      (lines.mapM unquoteLine?).map (['\n'].intercalate ·) =
        some (withoutBreaks (markdown (.document children)))) ∧
    (∀ depth, (unquoteTimes? depth (markdown (.document (quotedNodes depth children)))).map
      withoutBreaks = some (withoutBreaks (markdown (.document children)))) ∧
    ∀ node text, renderer.render? node = some text ↔
      Markdown.NumbersFit node ∧ renderer.render node = text := by
  refine ⟨⟨_, isQuoteOf_quote (Markdown.blocks children), ?_⟩, fun depth => ?_,
    Markdown.block?_eq_some_iff⟩
  · rw [mapM_unquoteLine?_marked, Option.map_some, Text.intercalate_splitAt]
    rfl
  · exact unquoteTimes?_quotedNodes depth children

/-- Behind the last number of 64 bits comes zero, unless numbers are checked. -/
example :
    let last : Node := .blockquote
      [.orderedList 18446744073709551615 [.text "a" [], .text "b" []]]
    render .markdown last = "> 18446744073709551615. a\n> 0. b\n\n" ∧
      render? .markdown last = none := by
  decide

end Galley.Render
