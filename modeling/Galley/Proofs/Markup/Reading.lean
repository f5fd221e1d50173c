import Galley.Markup.Item
/-!
# Reading markup

A reader that knows nothing about how markup was made. It cuts a text at its tags: a tag goes from
an opening bracket to the next closing one, without another opening bracket inside. Outside of tags,
an ampersand starts a reference that is looked up in a table up to its semicolon, and the characters
of the table stand nowhere else.

Markup that was printed from items reads back as the items' tags and texts: `read_print`.
-/
namespace Galley.Markup

/-- What a reader meets: the inside of a tag, or a character outside of tags. -/
inductive Piece where
  | tag (inside : List Char)
  | char (c : Char)
deriving DecidableEq, Repr

namespace Piece

def inside? : Piece → Option (List Char)
  | .tag inside => some inside
  | .char _ => none

def char? : Piece → Option Char
  | .tag _ => none
  | .char c => some c

end Piece

/-! ### The reader -/

/-- Cuts a text at its tags. The first argument holds the inside of the tag that is being read,
backwards. -/
def cut : Option (List Char) → List Char → Option (List Piece)
  | none, [] => some []
  | some _, [] => none
  | none, c :: rest =>
    if c = '<' then cut (some []) rest else (cut none rest).map (.char c :: ·)
  | some inside, c :: rest =>
    if c = '>' then (cut none rest).map (.tag inside.reverse :: ·)
    else if c = '<' then none
    else cut (some (c :: inside)) rest

/-- The characters that mean something in markup, by the names of their references. -/
abbrev References := List (List Char × Char)

/-- The references that fragments use. -/
def namedReferences : References :=
  [("amp".toList, '&'), ("lt".toList, '<'), ("gt".toList, '>'), ("quot".toList, '"'),
    ("#39".toList, '\x27')]

/-- Replaces the references between tags by the characters they stand for. The first argument holds
the name of the reference that is being read, backwards. -/
def decode (references : References) : Option (List Char) → List Piece → Option (List Piece)
  | none, [] => some []
  | some _, [] => none
  | none, .tag inside :: rest => (decode references none rest).map (.tag inside :: ·)
  | some _, .tag _ :: _ => none
  | none, .char c :: rest =>
    if c = '&' then decode references (some []) rest
    else if references.any fun entry => entry.2 == c then none
    else (decode references none rest).map (.char c :: ·)
  | some name, .char c :: rest =>
    if c = ';' then
      match references.lookup name.reverse with
      | some shown => (decode references none rest).map (.char shown :: ·)
      | none => none
    else decode references (some (c :: name)) rest

/-- The tags and the text of a markup text. -/
def read (references : References) (text : String) : Option (List Piece) :=
  (cut none text.toList).bind (decode references none)

/-- What a text shows: its tags are deleted and its references decoded. -/
def shownText (references : References) (text : String) : Option (List Char) :=
  (read references text).map fun pieces => pieces.filterMap Piece.char?

/-! ### Cutting -/

theorem cut_text {written : List Char} (plain : '<' ∉ written) (rest : List Char) :
    cut none (written ++ rest) = (cut none rest).map (written.map .char ++ ·) := by
  induction written with
  | nil => simp
  | cons c written ih =>
    simp only [List.mem_cons, not_or] at plain
    rw [List.cons_append, cut, if_neg (Ne.symm plain.1), ih plain.2, Option.map_map]
    rfl

private theorem cut_inside {inside : List Char} (opens : '<' ∉ inside) (closes : '>' ∉ inside)
    (read rest : List Char) :
    cut (some read) (inside ++ '>' :: rest) =
      (cut none rest).map (.tag (read.reverse ++ inside) :: ·) := by
  -- every character of the inside goes on top of what has been read of it
  induction inside generalizing read with
  | nil => simp [cut]
  | cons c inside ih =>
    simp only [List.mem_cons, not_or] at opens closes
    rw [List.cons_append, cut, if_neg (Ne.symm closes.1), if_neg (Ne.symm opens.1),
      ih opens.2 closes.2]
    simp

theorem cut_tag {inside : List Char} (opens : '<' ∉ inside) (closes : '>' ∉ inside)
    (rest : List Char) :
    cut none ('<' :: (inside ++ '>' :: rest)) = (cut none rest).map (.tag inside :: ·) := by
  rw [cut, if_pos rfl, cut_inside opens closes]
  rfl

/-! ### Decoding -/

/-- A table of references fits an escaping when every character is either written by a reference
that the table knows, or stands for itself and is neither a bracket nor in the table. -/
def Fits (references : References) (escaping : Escaping) : Prop :=
  ∀ c, (∃ name, escaping.char c = '&' :: (name ++ [';']) ∧ '<' ∉ name ∧ ';' ∉ name ∧
      references.lookup name = some c) ∨
    (escaping.char c = [c] ∧ c ≠ '&' ∧ c ≠ '<' ∧
      references.any (fun entry => entry.2 == c) = false)

/-- An escaping that writes the characters of a table by references, and others as they are. -/
theorem fits_of_table {references : References} {escaping : Escaping}
    (listed : ∀ entry ∈ references, escaping.char entry.2 = '&' :: (entry.1 ++ [';']) ∧
      '<' ∉ entry.1 ∧ ';' ∉ entry.1 ∧ references.lookup entry.1 = some entry.2)
    (ampersand : '&' ∈ references.map Prod.snd) (bracket : '<' ∈ references.map Prod.snd)
    (others : ∀ c, c ∉ references.map Prod.snd → escaping.char c = [c]) :
    Fits references escaping := by
  intro c
  by_cases member : c ∈ references.map Prod.snd
  · obtain ⟨entry, inside, rfl⟩ := List.mem_map.mp member
    exact Or.inl ⟨entry.1, listed entry inside⟩
  · refine Or.inr ⟨others c member, ?_, ?_, ?_⟩
    · rintro rfl
      exact member ampersand
    · rintro rfl
      exact member bracket
    · rw [List.any_eq_false]
      intro entry inside same
      exact member (List.mem_map.mpr ⟨entry, inside, by simpa using same⟩)

theorem fits_named : Fits namedReferences .named := by
  refine fits_of_table (by decide) (by decide) (by decide) fun c other => ?_
  simp only [namedReferences, List.map_cons, List.map_nil, List.mem_cons, List.not_mem_nil,
    or_false, not_or] at other
  simp [Escaping.char, namedReference, other]

/-- What is in the table of an escaping, and not in its references, is never written. -/
theorem not_mem_written {references : References} {escaping : Escaping}
    (fits : Fits references escaping) {c : Char} (listed : c ∈ references.map Prod.snd)
    (foreign : ∀ entry ∈ references, c ∉ '&' :: (entry.1 ++ [';'])) (text : List Char) :
    c ∉ text.flatMap escaping.char := by
  intro member
  obtain ⟨d, -, member⟩ := List.mem_flatMap.mp member
  rcases fits d with ⟨name, written, -, -, known⟩ | ⟨written, -, -, unlisted⟩
  · obtain ⟨before, after, same, -⟩ := List.lookup_eq_some_iff.mp known
    rw [written] at member
    exact foreign (name, d) (by simp [same]) member
  · rw [written, List.mem_singleton] at member
    obtain ⟨entry, inside, rfl⟩ := List.mem_map.mp listed
    simpa [member] using List.any_eq_false.mp unlisted entry inside

/-- Named references keep quotes and brackets out of what is written. -/
theorem not_mem_written_named (text : List Char) :
    ∀ c ∈ ['<', '>', '"'], c ∉ text.flatMap Escaping.named.char := by
  intro c markup
  simp only [List.mem_cons, List.not_mem_nil, or_false] at markup
  rcases markup with rfl | rfl | rfl
  all_goals exact not_mem_written fits_named (by decide) (by decide) text

private theorem decode_reference {references : References} {name : List Char} {shown : Char}
    (ends : ';' ∉ name) (read : List Char)
    (known : references.lookup (read.reverse ++ name) = some shown) (rest : List Piece) :
    decode references (some read) ((name ++ [';']).map .char ++ rest) =
      (decode references none rest).map (.char shown :: ·) := by
  induction name generalizing read with
  | nil =>
    simp only [List.append_nil] at known
    simp [decode, known]
  | cons c name ih =>
    simp only [List.mem_cons, not_or] at ends
    rw [List.cons_append, List.map_cons, List.cons_append, decode, if_neg (Ne.symm ends.1)]
    exact ih ends.2 (c :: read) (by simpa using known)

/-- Text that was written with an escaping decodes to itself, whatever follows it. -/
theorem decode_written {references : References} {escaping : Escaping}
    (fits : Fits references escaping) (text : List Char) (rest : List Piece) :
    decode references none ((text.flatMap escaping.char).map .char ++ rest) =
      (decode references none rest).map (text.map .char ++ ·) := by
  induction text with
  | nil => simp
  | cons c text ih =>
    rw [List.flatMap_cons, List.map_append, List.append_assoc]
    rcases fits c with ⟨name, written, -, ends, known⟩ | ⟨written, plain, -, unlisted⟩
    · -- the ampersand opens the reference, which is looked up at its semicolon
      rw [written, List.map_cons, List.cons_append, decode, if_pos rfl,
        decode_reference ends [] known, ih, Option.map_map]
      rfl
    · rw [written, List.map_singleton, List.singleton_append, decode, if_neg plain, unlisted,
        if_neg Bool.false_ne_true, ih, Option.map_map]
      rfl

theorem bracket_not_mem_written {references : References} {escaping : Escaping}
    (fits : Fits references escaping) (text : List Char) : '<' ∉ text.flatMap escaping.char := by
  intro member
  obtain ⟨c, -, member⟩ := List.mem_flatMap.mp member
  rcases fits c with ⟨name, written, plain, -, -⟩ | ⟨written, -, plain, -⟩
  · rw [written] at member
    simp [plain] at member
  · rw [written, List.mem_singleton] at member
    exact plain member.symm

/-! ### Printed items -/

theorem flatMap_verbatim (text : List Char) : text.flatMap Escaping.verbatim.char = text :=
  List.flatMap_singleton' text

namespace Item

/-- What an item's tag has between its brackets. -/
def inside? : Item → Option (List Char)
  | .opening name attributes =>
    some (name.toList ++ attributes.flatMap fun a => a.print.toList)
  | .closing name => some ('/' :: name.toList)
  | .void name => some (name.toList ++ [' ', '/'])
  | .text _ => none

theorem inside?_opening_valued (name key : String) (escaping : Escaping) (text : String) :
    inside? (.opening name [.valued key escaping text]) =
      some (name.toList ++ ' ' :: (key.toList ++ '=' :: '"' ::
        (text.toList.flatMap escaping.char ++ ['"']))) := by
  simp [inside?, Attribute.valued, Attribute.print, Data.print]

/-- What a reader gets from an item. -/
def pieces (item : Item) : List Piece :=
  match item with
  | .text data => data.text.toList.map .char
  | tag => tag.inside?.toList.map .tag

theorem filterMap_inside?_flatMap {shown : Item → List Piece}
    (each : ∀ item, (shown item).filterMap Piece.inside? = item.inside?.toList)
    (items : List Item) :
    (items.flatMap shown).filterMap Piece.inside? = items.filterMap inside? := by
  induction items with
  | nil => rfl
  | cons item rest ih =>
    rw [List.flatMap_cons, List.filterMap_append, each, ih]
    cases found : item.inside? with
    | none => rw [List.filterMap_cons_none found]; rfl
    | some inside => rw [List.filterMap_cons_some found]; rfl

private theorem filterMap_inside?_chars (chars : List Char) :
    (chars.map Piece.char).filterMap Piece.inside? = [] := by
  rw [List.filterMap_map]
  exact List.filterMap_eq_nil_iff.mpr fun _ _ => rfl

theorem filterMap_inside?_pieces (items : List Item) :
    (items.flatMap pieces).filterMap Piece.inside? = items.filterMap inside? := by
  refine filterMap_inside?_flatMap (fun item => ?_) items
  cases item with
  | text data => exact filterMap_inside?_chars data.text.toList
  | opening | closing | void => rfl

/-- The text that an item shows. -/
def shown : Item → List Char
  | .text data => data.text.toList
  | _ => []

theorem filterMap_char?_pieces (items : List Item) :
    (items.flatMap pieces).filterMap Piece.char? = items.flatMap shown := by
  induction items with
  | nil => rfl
  | cons item rest ih =>
    rw [List.flatMap_cons, List.filterMap_append, ih, List.flatMap_cons]
    cases item with
    | text data =>
      have chars : (data.text.toList.map Piece.char).filterMap Piece.char? = data.text.toList := by
        rw [List.filterMap_map]
        exact List.filterMap_some
      exact congrArg (· ++ rest.flatMap shown) chars
    | opening | closing | void => rfl

/-- What an item is cut into. -/
def written (item : Item) : List Piece :=
  match item with
  | .text data => data.print.toList.map .char
  | tag => tag.inside?.toList.map .tag

/-- An item that is cut from what surrounds it: no bracket opens in its text, and there is none
inside its tag. -/
structure Separate (item : Item) : Prop where
  text : ∀ data, item = .text data → '<' ∉ data.print.toList
  tag : ∀ inside, item.inside? = some inside → '<' ∉ inside ∧ '>' ∉ inside

private theorem toList_print_of_inside? {item : Item} {inside : List Char}
    (found : item.inside? = some inside) : item.print.toList = '<' :: (inside ++ ['>']) := by
  cases item with
  | opening name attributes =>
    cases found
    simp [print, String.toList_join, List.flatMap_map]
  | closing name => cases found; simp [print]
  | void name => cases found; simp [print]
  | text data => cases found

private theorem tag_of_inside? {item : Item} {inside : List Char}
    (found : item.inside? = some inside) :
    item.written = [.tag inside] ∧ item.pieces = [.tag inside] := by
  cases item with
  | text data => cases found
  | opening | closing | void => simp [written, pieces, found]

theorem filterMap_inside?_written (items : List Item) :
    (items.flatMap written).filterMap Piece.inside? = items.filterMap inside? := by
  refine filterMap_inside?_flatMap (fun item => ?_) items
  cases item with
  | text data => exact filterMap_inside?_chars data.print.toList
  | opening | closing | void => rfl

/-- Cutting an item in front of anything else. -/
theorem cut_print_append {item : Item} (separate : item.Separate) (rest : List Char) :
    cut none (item.print.toList ++ rest) = (cut none rest).map (item.written ++ ·) := by
  cases found : item.inside? with
  | some inside =>
    obtain ⟨opens, closes⟩ := separate.tag inside found
    rw [toList_print_of_inside? found, (tag_of_inside? found).1, List.cons_append,
      List.append_assoc, List.singleton_append, cut_tag opens closes]
    rfl
  | none =>
    cases item with
    | opening | closing | void => cases found
    | text data => exact cut_text (separate.text data rfl) rest

/-- An item that a reader can tell from what surrounds it: its text is escaped, and its tag has no
bracket inside. -/
structure Readable (escaping : Escaping) (item : Item) : Prop where
  text : ∀ data, item = .text data → data.escaping = escaping
  tag : ∀ inside, item.inside? = some inside → '<' ∉ inside ∧ '>' ∉ inside

variable {references : References} {escaping : Escaping}

theorem separate_of_readable (fits : Fits references escaping) {item : Item}
    (readable : item.Readable escaping) : item.Separate := by
  refine ⟨fun data same => ?_, readable.tag⟩
  rw [Data.print, readable.text data same, toList_apply]
  exact bracket_not_mem_written fits data.text.toList

/-- Reading an item in front of anything else. -/
private theorem read_print_append (fits : Fits references escaping) {item : Item}
    (readable : item.Readable escaping) (rest : List Char) :
    (cut none (item.print.toList ++ rest)).bind (decode references none) =
      ((cut none rest).bind (decode references none)).map (item.pieces ++ ·) := by
  rw [cut_print_append (separate_of_readable fits readable)]
  cases cut none rest with
  | none => rfl
  | some following =>
    cases found : item.inside? with
    | some inside =>
      rw [Option.map_some, (tag_of_inside? found).1, (tag_of_inside? found).2]
      rfl
    | none =>
      cases item with
      | opening | closing | void => cases found
      | text data =>
        have escaped : data.print.toList = data.text.toList.flatMap escaping.char := by
          rw [Data.print, readable.text data rfl, toList_apply]
        rw [Option.map_some, written, escaped]
        exact decode_written fits data.text.toList following

end Item

theorem toList_print (items : List Item) :
    (print items).toList = items.flatMap fun item => item.print.toList := by
  simp [print, String.toList_join, List.flatMap_map]

/-- Printed items are cut item by item. -/
theorem cut_print {items : List Item} (separate : ∀ item ∈ items, item.Separate) :
    cut none (print items).toList = some (items.flatMap Item.written) := by
  rw [toList_print]
  induction items with
  | nil => rfl
  | cons item rest ih =>
    rw [List.forall_mem_cons] at separate
    rw [List.flatMap_cons, Item.cut_print_append separate.1, ih separate.2]
    rfl

/-- Printed items read back as what they are made of. -/
theorem read_print {references : References} {escaping : Escaping}
    (fits : Fits references escaping) {items : List Item}
    (readable : ∀ item ∈ items, item.Readable escaping) :
    read references (print items) = some (items.flatMap Item.pieces) := by
  rw [read, toList_print]
  induction items with
  | nil => rfl
  | cons item rest ih =>
    simp only [List.forall_mem_cons] at readable
    rw [List.flatMap_cons, Item.read_print_append fits readable.1, ih readable.2]
    rfl

end Galley.Markup
