import Galley.Proofs.FrontMatter.ReadBack
/-!
# Texts stay in their fields

A reader of preambles may know more line breaks than the line feed that ends each line of one: a
carriage return ends a line for it as well. No quoted value has either of them. The abstract is cut
at its line feeds alone, so a carriage return between its words starts a line that is not indented.

## Main result

`build_contained_iff`: whatever the texts of an article are, a preamble has its own lines and no
others in column zero, if and only if what follows a lone carriage return in the abstract is
indented by two blanks itself.

In one direction the preamble is read as the same entries with longer blocks (`entries?_piecesOf`).
In the other an unindented piece would be one entry more than there are keys
(`quiet_of_entries?`).
-/
namespace Galley.FrontMatter

open Galley.Article (Metadata)

/-! ### Containment -/

/-- Cut at all its line breaks, a text is entries with these keys between two lines of dashes. No
other line is one of dashes, and no key stands twice. -/
def Contained (text : String) (keys : List String) : Prop :=
  ∃ body entries, Text.breakLines text.toList = fence.toList :: (body ++ [fence.toList, []]) ∧
    fence.toList ∉ body ∧ entries? body = some entries ∧ entries.map Prod.fst = keys ∧ keys.Nodup

/-- A line that starts in column zero is one of dashes or the line of a key. -/
theorem Contained.line {text : String} {keys : List String} (contained : Contained text keys)
    {line : List Char} (member : line ∈ Text.breakLines text.toList) :
    line = [] ∨ line = fence.toList ∨ "  ".toList <+: line ∨
      ∃ key ∈ keys, ∃ value, pair? line = some (key, value) := by
  obtain ⟨body, entries, cut, -, read, rfl, -⟩ := contained
  rw [cut, List.mem_cons, List.mem_append, List.mem_cons, List.mem_singleton] at member
  rcases member with fenced | inside | fenced | empty
  · exact Or.inr (Or.inl fenced)
  · by_cases indented : "  ".toList <+: line
    · exact Or.inr (Or.inr (Or.inl indented))
    · obtain ⟨entry, listed, shown⟩ := pair?_of_entries? read inside indented
      exact Or.inr (Or.inr (Or.inr ⟨entry.1, List.mem_map_of_mem listed, entry.2.value, shown⟩))
  · exact Or.inr (Or.inl fenced)
  · exact Or.inl empty

/-- A configuration whose settings are single lines for every reader. -/
def SingleLine (config : Config) : Prop :=
  ∀ setting ∈ [config.fontSize, config.paperSize, config.margin, config.citationStyle],
    '\n' ∉ setting.toList ∧ '\r' ∉ setting.toList

instance (config : Config) : Decidable (SingleLine config) :=
  inferInstanceAs (Decidable (∀ setting ∈ _, '\n' ∉ String.toList setting ∧ _))

/-! ### Pieces of an entry -/

/-- The pieces of a block that start behind a carriage return. -/
def loose (block : List (List Char)) : List (List Char) :=
  block.flatMap fun line => (Text.pieces line).tail

/-- A block without unindented pieces. -/
def Quiet (block : List (List Char)) : Prop := ∀ part ∈ loose block, "  ".toList <+: part

instance (block : List (List Char)) : Decidable (Quiet block) :=
  inferInstanceAs (Decidable (∀ part ∈ loose block, _))

/-- The content for a reader that also ends the lines of a block at carriage returns. -/
def Content.recut (content : Content) : Content where
  value := content.value
  block := content.block.flatMap fun line =>
    (Text.pieces line).headD [] :: (Text.pieces line).tail.map (·.drop 2)

theorem Content.Formed.recut {key : String} {content : Content} (formed : content.Formed key) :
    content.recut.Formed key := by
  refine ⟨formed.named, formed.chars, fun nonempty => formed.announced fun empty => nonempty ?_⟩
  rw [Content.recut, empty, List.flatMap_nil]

private theorem unindented_append (first second : List (List Char)) :
    unindented (first ++ second) = unindented first + unindented second :=
  List.countP_append

private theorem pieces_indented (line : List Char) :
    Text.pieces ("  ".toList ++ line) =
      ("  ".toList ++ (Text.pieces line).headD []) :: (Text.pieces line).tail :=
  Text.pieces_append (by decide) line

private theorem pieces_first {key : String} {content : Content} (formed : content.Formed key)
    (clean : '\r' ∉ content.value) :
    Text.pieces (key.toList ++ ':' :: ' ' :: content.value) =
      [key.toList ++ ':' :: ' ' :: content.value] := by
  have key : '\r' ∉ key.toList := fun member =>
    absurd (List.all_eq_true.mp formed.chars _ member) (by decide)
  exact Text.pieces_of_not_mem (by simp [key, clean])

/-- The pieces of an entry with a quiet block are the lines of an entry. -/
theorem pieces_lines {key : String} {content : Content} (formed : content.Formed key)
    (clean : '\r' ∉ content.value) (quiet : Quiet content.block) :
    (content.lines key).flatMap Text.pieces = content.recut.lines key := by
  have restored (part : List Char) (indented : "  ".toList <+: part) :
      "  ".toList ++ part.drop 2 = part := by
    obtain ⟨rest, rfl⟩ := indented
    rfl
  have block : (content.block.map ("  ".toList ++ ·)).flatMap Text.pieces =
      content.recut.block.map ("  ".toList ++ ·) := by
    rw [Content.recut, List.map_flatMap, List.flatMap_map]
    refine List.flatMap_congr fun line member => ?_
    have others : ((Text.pieces line).tail.map (·.drop 2)).map ("  ".toList ++ ·) =
        (Text.pieces line).tail := by
      rw [List.map_map]
      refine (List.map_congr_left fun part inside => ?_).trans (List.map_id _)
      exact restored part (quiet part (List.mem_flatMap.mpr ⟨line, member, inside⟩))
    rw [pieces_indented, List.map_cons, others]
  rw [Content.lines, List.flatMap_cons, pieces_first formed clean, block]
  rfl

/-- An entry has one unindented line, and one for each unindented piece of its block. -/
theorem unindented_pieces_lines {key : String} {content : Content} (formed : content.Formed key)
    (clean : '\r' ∉ content.value) :
    unindented ((content.lines key).flatMap Text.pieces) =
      unindented (loose content.block) + 1 := by
  have block : unindented ((content.block.map ("  ".toList ++ ·)).flatMap Text.pieces) =
      unindented (loose content.block) := by
    rw [unindented, unindented, loose, List.flatMap_map, List.countP_flatMap, List.countP_flatMap]
    refine congrArg List.sum (List.map_congr_left fun line _ => ?_)
    rw [Function.comp_apply, Function.comp_apply, pieces_indented,
      List.countP_cons_of_neg (by simp)]
  have first : unindented [key.toList ++ ':' :: ' ' :: content.value] = 1 := by
    rw [unindented, List.countP_singleton, if_pos (by simpa using formed.unindented)]
  rw [Content.lines, List.flatMap_cons, pieces_first formed clean, unindented_append, block, first,
    Nat.add_comm]

/-! ### Pieces of all entries -/

/-- The lines of entries for a reader that also ends lines at carriage returns. -/
def piecesOf (entries : List (String × Content)) : List (List Char) :=
  (entries.flatMap fun entry => entry.2.lines entry.1).flatMap Text.pieces

section

variable {entries : List (String × Content)}
  (formed : ∀ entry ∈ entries, entry.2.Formed entry.1 ∧ '\r' ∉ entry.2.value)
include formed

/-- Quiet entries are read with the same keys. -/
theorem entries?_piecesOf (quiet : ∀ entry ∈ entries, Quiet entry.2.block) :
    ∃ found, entries? (piecesOf entries) = some found ∧
      found.map Prod.fst = entries.map Prod.fst := by
  have cut : piecesOf entries = (entries.map fun entry => (entry.1, entry.2.recut)).flatMap
      fun entry => entry.2.lines entry.1 := by
    rw [piecesOf, List.flatMap_assoc, List.flatMap_map]
    refine List.flatMap_congr fun entry member => ?_
    exact pieces_lines (formed entry member).1 (formed entry member).2 (quiet entry member)
  refine ⟨entries.map fun entry => (entry.1, entry.2.recut), ?_, by rw [List.map_map]; rfl⟩
  rw [cut]
  refine entries?_lines fun entry member => ?_
  obtain ⟨source, inside, rfl⟩ := List.mem_map.mp member
  exact (formed source inside).1.recut

private theorem unindented_piecesOf :
    unindented (piecesOf entries) =
      unindented (entries.flatMap fun entry => loose entry.2.block) + entries.length := by
  induction entries with
  | nil => rfl
  | cons entry rest ih =>
    rw [List.forall_mem_cons] at formed
    have here := unindented_pieces_lines formed.1.1 formed.1.2
    have later := ih formed.2
    rw [piecesOf] at later ⊢
    rw [List.flatMap_cons, List.flatMap_append, unindented_append, List.flatMap_cons,
      unindented_append, List.length_cons]
    omega

/-- Entries that are read with the same keys are quiet. -/
theorem quiet_of_entries? {found : List (String × Content)}
    (read : entries? (piecesOf entries) = some found)
    (same : found.map Prod.fst = entries.map Prod.fst) :
    ∀ entry ∈ entries, Quiet entry.2.block := by
  have length : found.length = entries.length := by
    simpa using congrArg List.length same
  -- each key has an unindented line already, so there are no others
  have counted := length_of_entries? read
  rw [unindented_piecesOf formed, length] at counted
  have others : unindented (entries.flatMap fun entry => loose entry.2.block) = 0 := by
    omega
  intro entry member part inside
  have indented := List.countP_eq_zero.mp others part
    (List.mem_flatMap.mpr ⟨entry, member, inside⟩)
  simpa using indented

end

/-! ### Preambles -/

variable (metadata : Option Metadata) (doi : Option String)
  (firstPage lastPage : Option UInt32) (lang : String)

private theorem settings_ofConfig {config : Config} (single : SingleLine config) {c : Char}
    (broken : c = '\n' ∨ c = '\r') :
    ∀ setting ∈ [(ofConfig config).documentClass, (ofConfig config).fontSize,
      (ofConfig config).paperSize, (ofConfig config).margin, (ofConfig config).bibliography,
      (ofConfig config).citationStyle], c ∉ setting.toList := by
  simp only [SingleLine, List.forall_mem_cons, List.not_mem_nil, false_imp_iff, implies_true,
    and_true] at single
  have fixed : c ∉ "article".toList ∧ c ∉ bibliographyFile.toList := by
    rcases broken with rfl | rfl <;> decide
  rcases broken with rfl | rfl <;> simp [ofConfig, fixed, single]

/-- Only the abstract has a block that may not be quiet. -/
private theorem quiet_filled_iff (builder : FrontMatter) :
    (∀ entry ∈ filled (slots builder metadata doi firstPage lastPage lang), Quiet entry.2.block) ↔
      ∀ text ∈ metadata.bind Metadata.abstract?, Quiet ((Text.lines text).map String.toList) := by
  constructor
  · intro quiet text present
    have stands : ("abstract", some ⟨"|2".toList, (Text.lines text).map String.toList⟩) ∈
        slots builder metadata doi firstPage lastPage lang := by
      rw [slots, Option.mem_def.mp present]
      exact List.mem_cons_of_mem _ List.mem_cons_self
    have member : ("abstract", ⟨"|2".toList, (Text.lines text).map String.toList⟩) ∈
        filled (slots builder metadata doi firstPage lastPage lang) :=
      List.mem_filterMap.mpr ⟨_, stands, rfl⟩
    exact quiet _ member
  · intro quiet entry member
    obtain ⟨slot, listed, found⟩ := List.mem_filterMap.mp member
    obtain ⟨content, contains, rfl⟩ := Option.map_eq_some_iff.mp found
    rcases block_slots builder metadata doi firstPage lastPage lang slot listed content contains
      with empty | ⟨-, -, text, present, block⟩
    · intro part inside
      simp [empty, loose] at inside
    · simpa only [block] using quiet text present

private theorem formed_single {config : Config} (single : SingleLine config) :
    ∀ entry ∈ filled (slots (ofConfig config) metadata doi firstPage lastPage lang),
      entry.2.Formed entry.1 ∧ '\r' ∉ entry.2.value := by
  intro entry member
  obtain ⟨slot, listed, found⟩ := List.mem_filterMap.mp member
  obtain ⟨content, contains, rfl⟩ := Option.map_eq_some_iff.mp found
  have formed := formed_slots (ofConfig config) metadata doi firstPage lastPage lang
    (settings_ofConfig single (Or.inl rfl)) slot listed content contains
  exact ⟨formed.1, not_mem_value_slots (ofConfig config) metadata doi firstPage lastPage lang
    (Or.inr rfl) (settings_ofConfig single (Or.inr rfl)) slot listed content contains⟩

/-- The lines of a preamble for a reader that knows all line breaks. -/
theorem breakLines_build {config : Config} (single : SingleLine config) :
    Text.breakLines (build (ofConfig config) metadata doi firstPage lastPage lang).toList =
      fence.toList ::
        (piecesOf (filled (slots (ofConfig config) metadata doi firstPage lastPage lang)) ++
          [fence.toList, []]) := by
  have clean := not_mem_lines_build (ofConfig config) metadata doi firstPage lastPage lang
    (settings_ofConfig single (Or.inl rfl))
  have dashes : Text.pieces fence.toList = [fence.toList] := by decide
  rw [toList_build, Text.breakLines_flatMap clean, lines_eq_filled, List.flatMap_cons, dashes,
    List.flatMap_append, List.flatMap_singleton, dashes, piecesOf]
  simp

/-- **Texts stay in their fields**: if the settings are single lines, a preamble shows its own keys
and nothing else to a reader that knows all line breaks, unless a carriage return in the abstract
starts an unindented line. -/
theorem build_contained_iff (config : Config) (single : SingleLine config) :
    Contained (build (ofConfig config) metadata doi firstPage lastPage lang)
        (ownKeys metadata doi firstPage lastPage) ↔
      ∀ text ∈ metadata.bind Metadata.abstract?, Quiet ((Text.lines text).map String.toList) := by
  have formed := formed_single metadata doi firstPage lastPage lang single
  have cut := breakLines_build metadata doi firstPage lastPage lang single
  have keys := keys_filled (ofConfig config) metadata doi firstPage lastPage lang
  constructor
  · rintro ⟨body, found, same, -, read, named, -⟩
    obtain rfl := List.append_cancel_right (List.cons.inj (same.symm.trans cut)).2
    have quiet := quiet_of_entries? formed read (named.trans keys.symm)
    exact (quiet_filled_iff metadata doi firstPage lastPage lang (ofConfig config)).mp quiet
  · intro quiet
    have distinct : (ownKeys metadata doi firstPage lastPage).Nodup := by
      rw [← keys]
      exact (keys_filled_sublist _).nodup
        (nodup_keys_slots (ofConfig config) metadata doi firstPage lastPage lang)
    obtain ⟨found, read, same⟩ := entries?_piecesOf formed
      ((quiet_filled_iff metadata doi firstPage lastPage lang (ofConfig config)).mpr quiet)
    exact ⟨_, found, cut, fence_not_mem_of_entries? read, read, same.trans keys, distinct⟩

/-- An abstract with line breaks of all kinds, and blanks behind the lone carriage return. -/
theorem build_contained_indented :
    SingleLine .default ∧
      Contained (build (ofConfig .default)
        (some ⟨some "A\rlang: x", some "a\r\nb\r  c\n---", some "\r---\n"⟩) (some "\rdoi: y") none
        (some 9) "de")
        ["title", "abstract", "keywords", "doi", "last-page", "lang", "documentclass",
          "classoption", "geometry", "bibliography", "citation-style"] := by
  have single : SingleLine .default := by decide
  have quiet : ∀ text ∈ some "a\r\nb\r  c\n---",
      Quiet ((Text.lines text).map String.toList) := by
    decide
  exact ⟨single, (build_contained_iff (some ⟨some "A\rlang: x", some "a\r\nb\r  c\n---",
    some "\r---\n"⟩) (some "\rdoi: y") none (some 9) "de" .default single).mpr quiet⟩

/-- A carriage return in the abstract makes a key of its own out of what follows. -/
theorem build_not_contained :
    "nocite: x".toList ∈ Text.breakLines (build (ofConfig .default)
        (some ⟨none, some "a\rnocite: x", none⟩) none none none "en").toList ∧
      ¬ Contained (build (ofConfig .default) (some ⟨none, some "a\rnocite: x", none⟩) none none none
          "en")
        (ownKeys (some ⟨none, some "a\rnocite: x", none⟩) none none none) := by
  have member : "nocite: x".toList ∈ Text.breakLines (build (ofConfig .default)
      (some ⟨none, some "a\rnocite: x", none⟩) none none none "en").toList := by
    decide +kernel
  have cut : pair? "nocite: x".toList = some ("nocite", ['x']) := by decide
  have foreign : "nocite" ∉ ownKeys (some ⟨none, some "a\rnocite: x", none⟩) none none none := by
    decide
  refine ⟨member, fun contained => ?_⟩
  rcases contained.line member with empty | dashes | indented | ⟨key, own, value, read⟩
  · exact absurd empty (by decide)
  · exact absurd dashes (by decide)
  · exact absurd indented (by decide)
  · obtain ⟨rfl, -⟩ := Prod.mk.inj (Option.some.inj (read.symm.trans cut))
    exact foreign own

end Galley.FrontMatter
