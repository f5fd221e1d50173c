import Galley.Proofs.Markup.Elements
import Mathlib.Data.List.Basic
/-!
# Spelling elements

What a reader takes for nodes can only have been written in one way: a text that reads as nodes is
the spelling of these nodes. The reader has three steps, and each of them is taken back, from the
nodes to the decoded pieces, from there to the pieces of the text, and to the text.

## Main result

`eq_spelling_of_nodes?`: the text of nodes that were read, with the five characters of markup
written by their numbers, is the text that was read.
-/
namespace Galley.Markup

/-! ### Spellings -/

/-- An attribute as it is written. -/
def attributeSpelling (a : String × String) : List Char :=
  ' ' :: (a.1.toList ++ '=' :: '"' :: (a.2.toList.flatMap numericReference ++ ['"']))

/-- What a tag has between its brackets. -/
def Tag.spelling : Tag → List Char
  | .opening name attributes => name.toList ++ attributes.flatMap attributeSpelling
  | .closing name => '/' :: name.toList
  | .declaration inside => inside.toList

/-- A tag with its brackets. -/
def bracketed (inside : List Char) : List Char := '<' :: (inside ++ ['>'])

mutual

def Node.spelling : Node → List Char
  | .element name attributes content =>
    bracketed (Tag.opening name attributes).spelling ++ spelling content ++
      bracketed (Tag.closing name).spelling
  | .char c => numericReference c
  | .declaration inside => bracketed inside.toList

/-- Nodes as they are written. -/
def spelling : List Node → List Char
  | [] => []
  | node :: rest => node.spelling ++ spelling rest

end

@[simp] theorem spelling_append (first second : List Node) :
    spelling (first ++ second) = spelling first ++ spelling second := by
  induction first with
  | nil => rfl
  | cons node rest ih => simp [spelling, ih]

/-! ### Pieces -/

namespace Piece

/-- A piece as it was cut. -/
def cutFrom : Piece → List Char
  | .tag inside => bracketed inside
  | .char c => [c]

/-- A decoded piece as it was before decoding. -/
def decodedFrom : Piece → List Piece
  | .tag inside => [.tag inside]
  | .char c => (numericReference c).map .char

/-- A decoded piece as it was written. -/
def spelling : Piece → List Char
  | .tag inside => bracketed inside
  | .char c => numericReference c

theorem flatMap_decodedFrom (decoded : List Piece) :
    (decoded.flatMap decodedFrom).flatMap cutFrom = decoded.flatMap spelling := by
  rw [List.flatMap_assoc]
  refine congrArg (decoded.flatMap ·) (funext fun piece => ?_)
  cases piece with
  | tag inside => simp [decodedFrom, cutFrom, spelling]
  | char c => simp [decodedFrom, cutFrom, spelling, List.flatMap_map]

/-- A piece that a reader can have cut: no bracket opens inside a tag. -/
def IsCut : Piece → Prop
  | .tag inside => '<' ∉ inside
  | .char _ => True

end Piece

/-- What has been read of a tag. -/
def openedTag : Option (List Char) → List Char
  | none => []
  | some inside => '<' :: inside.reverse

private theorem eq_of_cut {state : Option (List Char)} {text : List Char} {pieces : List Piece}
    (found : cut state text = some pieces) (inside : ∀ read ∈ state, '<' ∉ read) :
    openedTag state ++ text = pieces.flatMap Piece.cutFrom ∧ ∀ piece ∈ pieces, piece.IsCut := by
  -- what has been read of a tag stands, with its bracket, in front of what is still to be cut
  induction state, text using cut.induct generalizing pieces with
  | case1 =>
    obtain rfl : [] = pieces := by simpa [cut] using found
    simp [openedTag]
  | case2 read => simp [cut] at found
  | case3 rest ih =>
    rw [cut, if_pos rfl] at found
    exact ih found (by simp)
  | case4 c rest plain ih =>
    rw [cut, if_neg plain] at found
    obtain ⟨others, below, rfl⟩ := Option.map_eq_some_iff.mp found
    obtain ⟨same, cuts⟩ := ih below (by simp)
    exact ⟨congrArg (c :: ·) same, List.forall_mem_cons.mpr ⟨trivial, cuts⟩⟩
  | case5 read rest ih =>
    -- the tag is closed here
    rw [cut, if_pos rfl] at found
    obtain ⟨others, below, rfl⟩ := Option.map_eq_some_iff.mp found
    obtain ⟨same, cuts⟩ := ih below (by simp)
    have clean : '<' ∉ read.reverse := by simpa using inside read rfl
    refine ⟨?_, List.forall_mem_cons.mpr ⟨clean, cuts⟩⟩
    rw [List.flatMap_cons, ← same]
    simp [openedTag, Piece.cutFrom, bracketed]
  | case6 read rest => simp [cut] at found
  | case7 read c rest closes opens ih =>
    rw [cut, if_neg closes, if_neg opens] at found
    have clean : '<' ∉ c :: read := by simpa [Ne.symm opens] using inside read rfl
    have later := ih found (by simpa using clean)
    simpa [openedTag] using later

/-! ### References -/

/-- What has been read of a reference. -/
def openedReference : Option (List Char) → List Char
  | none => []
  | some name => '&' :: name.reverse

private theorem numericReference_of_lookup {name : List Char} {shown : Char}
    (known : numericReferences.lookup name = some shown) :
    numericReference shown = '&' :: (name ++ [';']) := by
  have listed : ∀ entry ∈ numericReferences,
      numericReference entry.2 = '&' :: (entry.1 ++ [';']) := by
    decide
  obtain ⟨before, after, same, -⟩ := List.lookup_eq_some_iff.mp known
  exact listed (name, shown) (by simp [same])

private theorem numericReference_of_unlisted {c : Char}
    (other : ¬ (numericReferences.any fun entry => entry.2 == c) = true) :
    numericReference c = [c] := by
  simp only [numericReferences, List.any_cons, List.any_nil, Bool.or_false, Bool.or_eq_true,
    beq_iff_eq, not_or] at other
  simp [numericReference, Ne.symm other.1, Ne.symm other.2.1, Ne.symm other.2.2.1,
    Ne.symm other.2.2.2.1, Ne.symm other.2.2.2.2]

private theorem eq_of_decode {state : Option (List Char)} {pieces decoded : List Piece}
    (found : decode numericReferences state pieces = some decoded) :
    (openedReference state).map .char ++ pieces = decoded.flatMap Piece.decodedFrom := by
  -- as for tags, what has been read of a reference stands in front of the rest
  induction state, pieces using decode.induct numericReferences generalizing decoded with
  | case1 =>
    obtain rfl : [] = decoded := by simpa [decode] using found
    rfl
  | case2 read => simp [decode] at found
  | case3 inside rest ih =>
    rw [decode] at found
    obtain ⟨others, below, rfl⟩ := Option.map_eq_some_iff.mp found
    exact congrArg (Piece.tag inside :: ·) (ih below)
  | case4 read inside rest => simp [decode] at found
  | case5 rest ih =>
    rw [decode, if_pos rfl] at found
    exact ih found
  | case6 c rest plain listed =>
    rw [decode, if_neg plain, if_pos listed] at found
    cases found
  | case7 c rest plain unlisted ih =>
    -- a character that the table does not have stands for itself
    rw [decode, if_neg plain, if_neg unlisted] at found
    obtain ⟨others, below, rfl⟩ := Option.map_eq_some_iff.mp found
    rw [List.flatMap_cons, ← ih below, Piece.decodedFrom, numericReference_of_unlisted unlisted]
    rfl
  | case8 read rest shown known ih =>
    -- the table has one reference for each of its characters
    rw [decode, if_pos rfl, known] at found
    obtain ⟨others, below, rfl⟩ := Option.map_eq_some_iff.mp found
    rw [List.flatMap_cons, ← ih below, Piece.decodedFrom, numericReference_of_lookup known]
    simp [openedReference]
  | case9 read rest unknown =>
    rw [decode, if_pos rfl, unknown] at found
    cases found
  | case10 read c rest ends ih =>
    rw [decode, if_neg ends] at found
    rw [← ih found]
    simp [openedReference]

/-! ### Tags -/

/-- A value is written as its text with the characters numbered. -/
private theorem eq_of_shownText {written value : List Char} (plain : '<' ∉ written)
    (found : shownText numericReferences (String.ofList written) = some value) :
    written = value.flatMap numericReference := by
  have cuts := cut_text plain []
  rw [List.append_nil] at cuts
  simp only [shownText, read, String.toList_ofList, cuts, cut, Option.map_some, Option.bind_some,
    List.append_nil] at found
  obtain ⟨decoded, below, rfl⟩ := Option.map_eq_some_iff.mp found
  have same : written = decoded.flatMap Piece.spelling := by
    have pieces := congrArg (·.flatMap Piece.cutFrom) (eq_of_decode below)
    simpa [openedReference, Piece.flatMap_decodedFrom, List.flatMap_map, Piece.cutFrom] using pieces
  rw [same] at plain ⊢
  clear cuts found below same
  -- a bracket opens in every tag, so there are only characters
  induction decoded with
  | nil => rfl
  | cons piece rest ih =>
    rw [List.flatMap_cons, List.mem_append, not_or] at plain
    cases piece with
    | tag inside => exact absurd List.mem_cons_self plain.1
    | char c => exact congrArg (numericReference c ++ ·) (ih plain.2)

private theorem eq_of_key? {before : List Char} {key : String} (found : key? before = some key) :
    before = ' ' :: (key.toList ++ ['=']) := by
  unfold key? at found
  split at found
  next rest =>
    split at found
    next ends =>
      obtain rfl := Option.some.inj found
      rw [String.toList_ofList, List.dropLast_append_getLast? _ ends]
    · cases found
  · cases found

private theorem eq_of_attributes? {parts : List (List Char)} {attributes : List (String × String)}
    (plain : ∀ part ∈ parts, '<' ∉ part)
    (found : attributes? numericReferences parts = some attributes) :
    ['"'].intercalate parts = attributes.flatMap attributeSpelling := by
  induction parts using attributes?.induct generalizing attributes with
  | case1 => cases found
  | case2 rest empty =>
    rw [attributes?, if_pos empty] at found
    obtain rfl := Option.some.inj found
    simpa using empty
  | case3 rest nonempty =>
    rw [attributes?, if_neg nonempty] at found
    cases found
  | case4 before written rest ih =>
    simp only [attributes?, Option.bind_eq_bind, Option.bind_eq_some_iff] at found
    obtain ⟨key, keyed, value, valued, others, below, same⟩ := found
    obtain rfl := Option.some.inj same
    simp only [List.forall_mem_cons] at plain
    have later := ih plain.2.2 below
    cases rest with
    | nil => cases below
    | cons next more =>
      rw [List.intercalate_cons_cons, List.intercalate_cons_cons, later, eq_of_key? keyed,
        eq_of_shownText plain.2.1 valued]
      simp [attributeSpelling]

private theorem eq_of_tag? {inside : List Char} {tag : Tag} (plain : '<' ∉ inside)
    (found : tag? numericReferences inside = some tag) : inside = tag.spelling := by
  unfold tag? at found
  split at found
  next slash =>
    obtain rfl := Option.some.inj found
    obtain ⟨rest, rfl⟩ := List.head?_eq_some_iff.mp slash
    simp [Tag.spelling]
  next =>
    obtain rfl := Option.some.inj found
    simp [Tag.spelling]
  next =>
    obtain rfl := Option.some.inj found
    simp [Tag.spelling]
  next =>
    simp only [Option.bind_eq_bind, Option.bind_eq_some_iff] at found
    obtain ⟨attributes, read, same⟩ := found
    obtain rfl := Option.some.inj same
    have clean : ∀ part ∈ Text.splitAt '"' (inside.dropWhile (· ≠ ' ')), '<' ∉ part := by
      intro part member inside'
      exact plain ((List.dropWhile_sublist _).mem (Text.mem_of_mem_splitAt member inside'))
    -- the name goes up to the first blank, and the attributes were cut at their quotes
    have spelled := eq_of_attributes? clean read
    rw [Text.intercalate_splitAt] at spelled
    rw [Tag.spelling, String.toList_ofList, ← spelled, List.takeWhile_append_dropWhile]

/-! ### Nodes -/

/-- Open elements as they are written, up to where the content of the innermost starts. -/
def openedElements : List Frame → List Char
  | [] => []
  | frame :: rest =>
    openedElements rest ++ spelling frame.before ++
      bracketed (Tag.opening frame.name frame.attributes).spelling

private theorem eq_of_pass {tag : Tag} {stack next : List Frame} {done content : List Node}
    (passed : pass tag stack done = some (next, content)) :
    openedElements stack ++ spelling done ++ bracketed tag.spelling =
      openedElements next ++ spelling content := by
  cases tag with
  | opening name attributes =>
    obtain ⟨rfl, rfl⟩ := Prod.mk.inj (Option.some.inj passed)
    simp [openedElements, spelling]
  | declaration inside =>
    obtain ⟨rfl, rfl⟩ := Prod.mk.inj (Option.some.inj passed)
    simp [Tag.spelling, spelling, Node.spelling]
  | closing name =>
    cases stack with
    | nil => cases passed
    | cons frame stack =>
      rw [pass] at passed
      split at passed
      next same =>
        obtain ⟨rfl, rfl⟩ := Prod.mk.inj (Option.some.inj passed)
        simp [openedElements, spelling, Node.spelling, same]
      · cases passed

private theorem eq_of_nest {stack : List Frame} {done nodes : List Node} {pieces : List Piece}
    (cuts : ∀ piece ∈ pieces, piece.IsCut)
    (found : nest numericReferences stack done pieces = some nodes) :
    openedElements stack ++ spelling done ++ pieces.flatMap Piece.spelling = spelling nodes := by
  -- entering an element moves what was read before it below its opening tag
  induction pieces generalizing stack done with
  | nil =>
    cases stack with
    | nil =>
      obtain rfl := Option.some.inj found
      simp [openedElements]
    | cons frame stack => cases found
  | cons piece rest ih =>
    rw [List.forall_mem_cons] at cuts
    cases piece with
    | char c =>
      have later := ih cuts.2 (by simpa only [nest] using found)
      simpa [spelling, Node.spelling, Piece.spelling] using later
    | tag inside =>
      simp only [nest, Option.bind_eq_bind, Option.bind_eq_some_iff] at found
      obtain ⟨tag, read, ⟨next, content⟩, passed, below⟩ := found
      rw [← ih cuts.2 below, ← eq_of_pass passed, ← eq_of_tag? cuts.1 read]
      simp [Piece.spelling]

/-- A text is the spelling of the nodes that are read of it. -/
theorem eq_spelling_of_nodes? {text : String} {nodes : List Node}
    (found : nodes? numericReferences text = some nodes) : text.toList = spelling nodes := by
  obtain ⟨decoded, readAs, nested⟩ := Option.bind_eq_some_iff.mp found
  obtain ⟨pieces, cutAs, decodedAs⟩ := Option.bind_eq_some_iff.mp readAs
  obtain ⟨same, cuts⟩ := eq_of_cut cutAs (by simp)
  have shown := eq_of_decode decodedAs
  have written : text.toList = decoded.flatMap Piece.spelling := by
    rw [← Piece.flatMap_decodedFrom, ← shown]
    exact same
  have cutToo : ∀ piece ∈ decoded, piece.IsCut := by
    intro piece member
    cases piece with
    | char c => trivial
    | tag inside =>
      have kept : Piece.tag inside ∈ pieces := by
        have stands : Piece.tag inside ∈ decoded.flatMap Piece.decodedFrom :=
          List.mem_flatMap.mpr ⟨_, member, List.mem_singleton_self _⟩
        rw [← shown] at stands
        exact stands
      exact cuts _ kept
  rw [written, ← eq_of_nest cutToo nested]
  rfl

end Galley.Markup
