import Galley.Proofs.Markup.Reading
import Galley.Proofs.Text.Split
/-!
# Reading elements

A reader of whole elements. A tag has a name up to its first blank, and then attributes with their
values in double quotes, in which references are decoded as they are outside of tags. An element
goes from an opening tag to the closing tag of the same name; declarations stand for themselves.
Where tags do not match, there is nothing to be read.

`Reads` tells of a part of a text that, in front of anything else, it is read as certain nodes.
Printed elements are: `reads_element`.
-/
namespace Galley.Markup

inductive Node where
  | element (name : String) (attributes : List (String × String)) (content : List Node)
  | char (c : Char)
  | declaration (inside : String)

inductive Tag where
  | opening (name : String) (attributes : List (String × String))
  | closing (name : String)
  | declaration (inside : String)
deriving DecidableEq

/-- The references of the five characters by their numbers. -/
def numericReferences : References :=
  [("#38".toList, '&'), ("#60".toList, '<'), ("#62".toList, '>'), ("#34".toList, '"'),
    ("#39".toList, '\x27')]

theorem fits_numeric : Fits numericReferences .numeric := by
  refine fits_of_table (by decide) (by decide) (by decide) fun c other => ?_
  simp only [numericReferences, List.map_cons, List.map_nil, List.mem_cons, List.not_mem_nil,
    or_false, not_or] at other
  simp [Escaping.char, numericReference, other]

theorem not_mem_written_numeric (text : List Char) :
    ∀ c ∈ ['<', '>', '"'], c ∉ text.flatMap Escaping.numeric.char := by
  intro c markup
  simp only [List.mem_cons, List.not_mem_nil, or_false] at markup
  rcases markup with rfl | rfl | rfl
  all_goals exact not_mem_written fits_numeric (by decide) (by decide) text

/-! ### The reader -/

section

variable (references : References)

/-- The key of an attribute, from what is before its value. -/
def key? : List Char → Option String
  | ' ' :: rest => if rest.getLast? = some '=' then some (String.ofList rest.dropLast) else none
  | _ => none

/-- The attributes of a tag that is cut at its quotes. -/
def attributes? : List (List Char) → Option (List (String × String))
  | [] => none
  | [rest] => if rest.isEmpty then some [] else none
  | before :: written :: rest => do
    let key ← key? before
    let value ← shownText references (String.ofList written)
    let others ← attributes? rest
    return (key, String.ofList value) :: others

/-- The tag that has this between its brackets. -/
def tag? (inside : List Char) : Option Tag :=
  match inside.head? with
  | some '/' => some (.closing (String.ofList inside.tail))
  | some '?' | some '!' => some (.declaration (String.ofList inside))
  | _ => do
    let attributes ← attributes? references (Text.splitAt '"' (inside.dropWhile (· ≠ ' ')))
    return .opening (String.ofList (inside.takeWhile (· ≠ ' '))) attributes

/-- An element that is still open, with the nodes before it. -/
structure Frame where
  name : String
  attributes : List (String × String)
  before : List Node

/-- Enters or leaves elements. The arguments are the open elements, the innermost first, and the
nodes that were read of its content. -/
def pass : Tag → List Frame → List Node → Option (List Frame × List Node)
  | .opening name attributes, stack, done => some (⟨name, attributes, done⟩ :: stack, [])
  | .closing name, frame :: stack, done =>
    if frame.name = name then
      some (stack, frame.before ++ [.element frame.name frame.attributes done])
    else none
  | .closing _, [], _ => none
  | .declaration inside, stack, done => some (stack, done ++ [.declaration inside])

/-- Puts the content of elements into them. -/
def nest : List Frame → List Node → List Piece → Option (List Node)
  | [], done, [] => some done
  | _ :: _, _, [] => none
  | stack, done, .char c :: rest => nest stack (done ++ [.char c]) rest
  | stack, done, .tag inside :: rest => do
    let tag ← tag? references inside
    let (stack, done) ← pass tag stack done
    nest stack done rest

/-- The nodes of a text. -/
def nodes? (text : String) : Option (List Node) :=
  (read references text).bind (nest references [] [])

/-! ### Parts of texts -/

/-- A part of a text that is read as certain nodes, whatever is around it. -/
def Reads (part : List Char) (nodes : List Node) : Prop :=
  ∃ pieces,
    (∀ rest, (cut none (part ++ rest)).bind (decode references none) =
      ((cut none rest).bind (decode references none)).map (pieces ++ ·)) ∧
    ∀ stack done rest,
      nest references stack done (pieces ++ rest) = nest references stack (done ++ nodes) rest

end

variable {references : References} {escaping : Escaping}

theorem nodes?_of_reads {text : String} {nodes : List Node}
    (reads : Reads references text.toList nodes) : nodes? references text = some nodes := by
  obtain ⟨pieces, cuts, nests⟩ := reads
  have whole := cuts []
  rw [List.append_nil] at whole
  rw [nodes?, read, whole]
  exact nests [] [] []

theorem reads_nil : Reads references [] [] :=
  ⟨[], by simp, by simp⟩

theorem Reads.append {first second : List Char} {before after : List Node}
    (one : Reads references first before) (other : Reads references second after) :
    Reads references (first ++ second) (before ++ after) := by
  obtain ⟨pieces, cuts, nests⟩ := one
  obtain ⟨more, cuts', nests'⟩ := other
  refine ⟨pieces ++ more, fun rest => ?_, fun stack done rest => ?_⟩
  · rw [List.append_assoc, cuts, cuts', Option.map_map]
    exact congrArg (Option.map · _) (funext fun _ => (List.append_assoc ..).symm)
  · rw [List.append_assoc, nests, nests', List.append_assoc]

/-- Text that is written with an escaping. -/
theorem reads_written (fits : Fits references escaping) (text : List Char) :
    Reads references (text.flatMap escaping.char) (text.map .char) := by
  refine ⟨text.map .char, fun rest => ?_, fun stack done rest => ?_⟩
  · rw [cut_text (bracket_not_mem_written fits text)]
    cases cut none rest with
    | none => rfl
    | some following => exact decode_written fits text following
  · induction text generalizing done with
    | nil => simp
    | cons c text ih =>
      rw [List.map_cons, List.cons_append, nest, ih, List.append_assoc]
      rfl

/-- A tag is a piece of its own. -/
private theorem cut_decode_tag {inside : List Char} (opens : '<' ∉ inside) (closes : '>' ∉ inside)
    (rest : List Char) :
    (cut none ('<' :: (inside ++ ['>']) ++ rest)).bind (decode references none) =
      ((cut none rest).bind (decode references none)).map ([.tag inside] ++ ·) := by
  rw [List.cons_append, List.append_assoc, List.singleton_append, cut_tag opens closes]
  cases cut none rest <;> rfl

private theorem nest_tag {inside : List Char} {tag : Tag}
    (known : tag? references inside = some tag) {stack next : List Frame} {done content : List Node}
    (passed : pass tag stack done = some (next, content)) (rest : List Piece) :
    nest references stack done (.tag inside :: rest) = nest references next content rest := by
  rw [nest, known, Option.bind_eq_bind, Option.bind_some, passed]
  rfl

theorem reads_declaration {inside : String} (opens : '<' ∉ inside.toList)
    (closes : '>' ∉ inside.toList) (marked : inside.toList.head? ∈ [some '?', some '!']) :
    Reads references ('<' :: (inside.toList ++ ['>'])) [.declaration inside] := by
  refine ⟨[.tag inside.toList], cut_decode_tag opens closes, fun stack done rest => ?_⟩
  have declares : tag? references inside.toList = some (.declaration inside) := by
    rcases List.mem_cons.mp marked with question | exclamation
    · simp [tag?, question]
    · simp [tag?, List.mem_singleton.mp exclamation]
  exact nest_tag declares rfl rest

/-- The nodes of a text. -/
def chars (text : String) : List Node := text.toList.map .char

theorem Reads.print_append {first second : List Item} {before after : List Node}
    (one : Reads references (print first).toList before)
    (other : Reads references (print second).toList after) :
    Reads references (print (first ++ second)).toList (before ++ after) := by
  rw [Markup.print_append, String.toList_append]
  exact one.append other

theorem reads_print_nil : Reads references (print []).toList [] :=
  reads_nil

theorem reads_numbered (text : String) :
    Reads numericReferences (print [.numbered text]).toList (chars text) := by
  have printed : (print [.numbered text]).toList = text.toList.flatMap Escaping.numeric.char := by
    simp [toList_print, Item.print, Item.numbered, Data.print]
  rw [printed]
  exact reads_written fits_numeric text.toList

/-- A text that is the same with its characters numbered. -/
def IsPlain (text : String) : Prop := ∀ c ∈ text.toList, numericReference c = [c]

instance (text : String) : Decidable (IsPlain text) := List.decidableBAll _ _

private theorem verbatim_of_plain {text : String} (plain : IsPlain text) :
    text.toList.flatMap Escaping.verbatim.char = text.toList.flatMap Escaping.numeric.char := by
  rw [List.flatMap_def, List.flatMap_def]
  exact congrArg List.flatten (List.map_congr_left fun c member => (plain c member).symm)

theorem reads_raw {text : String} (plain : IsPlain text) :
    Reads numericReferences (print [.raw text]).toList (chars text) := by
  have printed : (print [.raw text]).toList = text.toList.flatMap Escaping.numeric.char := by
    simp [toList_print, Item.print, Item.raw, Data.print, verbatim_of_plain plain]
  rw [printed]
  exact reads_written fits_numeric text.toList

/-! ### Printed elements -/

/-- A name that a reader can tell from what is around it in a tag. -/
def IsTagName (name : String) : Prop := ∀ c ∈ ['<', '>', '"', ' ', '/', '?', '!'], c ∉ name.toList

instance (name : String) : Decidable (IsTagName name) := List.decidableBAll _ _

/-- What an attribute says. -/
def Attribute.shown (a : Attribute) : String × String := (a.name, (a.value.map Data.text).getD "")

/-- An attribute whose value is written by numbers, or needs none. -/
structure Attribute.Legible (a : Attribute) : Prop where
  name : IsTagName a.name
  value : ∃ data, a.value = some data ∧
    data.print.toList = data.text.toList.flatMap Escaping.numeric.char

theorem legible_valued {name : String} (named : IsTagName name) (text : String) :
    (Attribute.valued name .numeric text).Legible :=
  ⟨named, _, rfl, toList_apply ..⟩

theorem legible_fixed {name text : String} (named : IsTagName name) (plain : IsPlain text) :
    (Attribute.fixed name text).Legible :=
  ⟨named, _, rfl, by rw [Data.print, toList_apply, verbatim_of_plain plain]⟩

private theorem shownText_written (text : List Char) :
    shownText numericReferences (String.ofList (text.flatMap Escaping.numeric.char)) =
      some text := by
  have written := decode_written fits_numeric text []
  have plain := cut_text (bracket_not_mem_written fits_numeric text) []
  rw [List.append_nil] at written plain
  rw [shownText, read, String.toList_ofList, plain]
  simp only [cut, Option.map_some, Option.bind_some, List.append_nil, written, decode]
  exact congrArg some (by simp [List.filterMap_map, Function.comp_def, Piece.char?])

section

variable {name : String} {attributes : List Attribute} (legible : ∀ a ∈ attributes, a.Legible)
include legible

theorem attributes?_print :
    attributes? numericReferences (Text.splitAt '"' (attributes.flatMap (·.print.toList))) =
      some (attributes.map Attribute.shown) := by
  induction attributes with
  | nil => rfl
  | cons a rest ih =>
    rw [List.forall_mem_cons] at legible
    obtain ⟨⟨named, data, value, written⟩, legible⟩ := legible
    have printed (more : List Char) : a.print.toList ++ more =
        (' ' :: (a.name.toList ++ ['='])) ++
          '"' :: (data.text.toList.flatMap Escaping.numeric.char ++ '"' :: more) := by
      simp [Attribute.print, value, written]
    have keyed : key? (' ' :: (a.name.toList ++ ['='])) = some a.name := by simp [key?]
    have closed : '"' ∉ ' ' :: (a.name.toList ++ ['=']) := by
      have clean := named '"' (by decide)
      simp [clean]
    -- the two quotes cut off the key and the value
    rw [List.flatMap_cons, printed, Text.splitAt_append closed,
      Text.splitAt_append (not_mem_written_numeric _ '"' (by decide)), attributes?, keyed,
      shownText_written, ih legible]
    simp [Attribute.shown, value]

/-- The opening tag that an element is printed with. -/
theorem tag?_opening (named : IsTagName name) :
    tag? numericReferences (name.toList ++ attributes.flatMap (·.print.toList)) =
      some (.opening name (attributes.map Attribute.shown)) := by
  have starts : attributes.flatMap (·.print.toList) = [] ∨
      ∃ rest, attributes.flatMap (·.print.toList) = ' ' :: rest := by
    cases attributes with
    | nil => exact Or.inl rfl
    | cons a rest =>
      obtain ⟨-, data, value, -⟩ := legible a List.mem_cons_self
      exact Or.inr ⟨_, by simp [Attribute.print, value]; rfl⟩
  have read := attributes?_print legible
  generalize attributes.flatMap (·.print.toList) = printed at starts read ⊢
  have ahead : ∀ c ∈ name.toList, decide (c ≠ ' ') = true := by
    intro c member
    rw [decide_eq_true_iff]
    rintro rfl
    exact named ' ' (by decide) member
  have whole : (name.toList ++ printed).takeWhile (· ≠ ' ') = name.toList ∧
      (name.toList ++ printed).dropWhile (· ≠ ' ') = printed := by
    rw [List.takeWhile_append_of_pos ahead, List.dropWhile_append_of_pos ahead]
    rcases starts with rfl | ⟨rest, rfl⟩ <;> simp
  -- none of the marks of other tags starts a name
  have unmarked : ∀ c ∈ ['/', '?', '!'], (name.toList ++ printed).head? ≠ some c := by
    intro c mark found
    cases chars : name.toList with
    | nil =>
      rw [chars] at found
      rcases starts with rfl | ⟨rest, rfl⟩
      · cases found
      · cases found
        revert mark
        decide
    | cons d rest =>
      rw [chars] at found
      cases found
      have absent : c ∉ name.toList := named c (List.mem_of_mem_drop (i := 4) mark)
      exact absent (by simp [chars])
  unfold tag?
  split
  next slash => exact absurd slash (unmarked '/' (by decide))
  next question => exact absurd question (unmarked '?' (by decide))
  next exclamation => exact absurd exclamation (unmarked '!' (by decide))
  · rw [whole.1, whole.2, read, String.ofList_toList]
    rfl

private theorem not_mem_opening (named : IsTagName name) {c : Char} (bracket : c ∈ ['<', '>']) :
    c ∉ name.toList ++ attributes.flatMap (·.print.toList) := by
  have markup : c ∈ ['<', '>', '"', ' ', '/', '?', '!'] := List.mem_append_left _ bracket
  have other : c ≠ ' ' ∧ c ≠ '=' ∧ c ≠ '"' := by
    simp only [List.mem_cons, List.not_mem_nil, or_false] at bracket
    rcases bracket with rfl | rfl <;> decide
  rw [List.mem_append, not_or, List.mem_flatMap]
  refine ⟨named c markup, ?_⟩
  rintro ⟨a, member, inside⟩
  obtain ⟨keyed, data, value, written⟩ := legible a member
  have absent := not_mem_written_numeric data.text.toList c (List.mem_append_left ['"'] bracket)
  simp [Attribute.print, value, written, absent, keyed c markup, other] at inside

/-- A printed element with a content that is read. -/
theorem reads_element (named : IsTagName name) {items : List Item} {content : List Node}
    (inner : Reads numericReferences (print items).toList content) :
    Reads numericReferences (print ([.opening name attributes] ++ items ++ [.closing name])).toList
      [.element name (attributes.map Attribute.shown) content] := by
  obtain ⟨pieces, cuts, nests⟩ := inner
  have opens := tag?_opening legible named
  have closes : tag? numericReferences ('/' :: name.toList) = some (.closing name) := by
    simp [tag?]
  have clean (c : Char) (bracket : c ∈ ['<', '>']) := not_mem_opening legible named bracket
  have printed : (print ([.opening name attributes] ++ items ++ [.closing name])).toList =
      '<' :: ((name.toList ++ attributes.flatMap (·.print.toList)) ++ ['>']) ++
        ((print items).toList ++ '<' :: ('/' :: name.toList ++ ['>'])) := by
    simp [toList_print, Item.print, String.toList_join, List.flatMap_map]
  rw [printed]
  generalize name.toList ++ attributes.flatMap (·.print.toList) = inside at opens clean ⊢
  -- the opening tag puts a frame on the stack, and the closing one takes it off again
  refine ⟨[.tag inside] ++ (pieces ++ [.tag ('/' :: name.toList)]), fun rest => ?_,
    fun stack done rest => ?_⟩
  · rw [List.append_assoc, cut_decode_tag (clean '<' (by decide)) (clean '>' (by decide)),
      List.append_assoc, cuts, cut_decode_tag (by simp [named '<' (by decide)])
        (by simp [named '>' (by decide)]), Option.map_map, Option.map_map]
    simp [Function.comp_def]
  · rw [List.append_assoc, List.singleton_append, nest_tag opens rfl, List.append_assoc, nests]
    exact nest_tag closes (by simp [pass]) rest

end

/-! ### Looking into elements -/

namespace Node

def content : Node → List Node
  | .element _ _ content => content
  | .char _ | .declaration _ => []

def attribute? (key : String) : Node → Option String
  | .element _ attributes _ => attributes.lookup key
  | _ => none

def char? : Node → Option Char
  | .char c => some c
  | _ => none

/-- The text of an element outside of the elements in it. -/
def text (node : Node) : String := String.ofList (node.content.filterMap char?)

def isElement (name : String) : Node → Bool
  | .element found _ _ => found == name
  | _ => false

end Node

/-- The elements with a name. -/
def named (name : String) (nodes : List Node) : List Node := nodes.filter (Node.isElement name)

/-- What is inside the elements that names lead to. -/
def within : List String → List Node → List Node
  | [], nodes => nodes
  | name :: path, nodes => within path ((named name nodes).flatMap Node.content)

/-- The texts of the elements with a name that are inside the elements that names lead to. -/
def texts (path : List String) (name : String) (nodes : List Node) : List String :=
  (named name (within path nodes)).map Node.text

mutual

/-- The tags of a node, without the closing ones. -/
def Node.tags : Node → List Tag
  | .element name attributes content => .opening name attributes :: tagsOf content
  | .char _ => []
  | .declaration inside => [.declaration inside]

def tagsOf : List Node → List Tag
  | [] => []
  | node :: rest => node.tags ++ tagsOf rest

end

@[simp] theorem named_nil (name : String) : named name [] = [] := rfl

@[simp] theorem named_append (name : String) (first second : List Node) :
    named name (first ++ second) = named name first ++ named name second :=
  List.filter_append ..

@[simp] theorem named_chars (name text : String) : named name (chars text) = [] := by
  simp [named, chars, Node.isElement]

@[simp] theorem named_cons_element (name found : String) (attributes : List (String × String))
    (content rest : List Node) :
    named name (.element found attributes content :: rest) =
      if found = name then .element found attributes content :: named name rest
      else named name rest := by
  by_cases same : found = name <;> simp [named, Node.isElement, same]

@[simp] theorem content_element (name : String) (attributes : List (String × String))
    (content : List Node) : (Node.element name attributes content).content = content := rfl

@[simp] theorem text_element (name : String) (attributes : List (String × String)) (text : String) :
    (Node.element name attributes (chars text)).text = text := by
  simp [Node.text, Node.content, chars, List.filterMap_map, Function.comp_def, Node.char?]

@[simp] theorem tagsOf_nil : tagsOf [] = [] := by
  simp [tagsOf]

@[simp] theorem tagsOf_append (first second : List Node) :
    tagsOf (first ++ second) = tagsOf first ++ tagsOf second := by
  induction first with
  | nil => rfl
  | cons node rest ih => simp [tagsOf, ih]

@[simp] theorem tagsOf_chars (text : String) : tagsOf (chars text) = [] := by
  unfold chars
  induction text.toList with
  | nil => rfl
  | cons c rest ih => exact ih

@[simp] theorem tagsOf_cons_element (name : String) (attributes : List (String × String))
    (content rest : List Node) :
    tagsOf (.element name attributes content :: rest) =
      .opening name attributes :: (tagsOf content ++ tagsOf rest) := by
  simp [tagsOf, Node.tags]

@[simp] theorem tagsOf_cons_declaration (inside : String) (rest : List Node) :
    tagsOf (.declaration inside :: rest) = .declaration inside :: tagsOf rest := by
  simp [tagsOf, Node.tags]

end Galley.Markup
