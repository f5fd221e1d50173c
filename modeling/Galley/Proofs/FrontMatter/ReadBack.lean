import Galley.Proofs.FrontMatter.Reading
import Galley.Proofs.Text.Split
import Mathlib.Data.List.Nodup
/-!
# Front matter reads back

A preamble says what it was made from, and nothing in an article can end it early or pass for
another key.

## Main result

`build_readsAs`: the lines of a preamble are entries between two lines of dashes, and a reader gets
the article's data back from them.

The lines are laid out in twelve slots, of which six are always filled (`slots`). What a line must
not contain is checked once for each slot.
-/
namespace Galley.FrontMatter

open Galley.Article (Metadata)

variable (builder : FrontMatter) (metadata : Option Metadata) (doi : Option String)
  (firstPage lastPage : Option UInt32) (lang : String)

/-! ### What a preamble has to say -/

/-- The keywords of an article, unless there are none. -/
def keywords? : Option (List String) :=
  (metadata.map Metadata.keywordList).filter fun keywords => !keywords.isEmpty

/-- The data of an article as a preamble gives it. -/
def said : Preamble where
  title := (metadata.bind Metadata.title?).map oneLine
  abstract := (metadata.bind Metadata.abstract?).map Text.lines
  keywords := (keywords? metadata).map fun keywords => keywords.map oneLine
  doi := (Text.nonBlank? doi).map fun text => oneLine (Text.trim text)
  firstPage := firstPage.map UInt32.toNat
  lastPage := lastPage.map UInt32.toNat
  lang := languageName lang

/-- The keys that may be missing, with whether there is something to say for them. -/
def optionalKeys : List (String × Bool) :=
  [("title", (metadata.bind Metadata.title).any fun text => !Text.isAllBlank text),
    ("abstract", (metadata.bind Metadata.abstract).any fun text => !Text.isAllBlank text),
    ("keywords", (metadata.map Metadata.keywordList).any fun keywords => !keywords.isEmpty),
    ("doi", doi.any fun text => !Text.isAllBlank text),
    ("first-page", firstPage.isSome), ("last-page", lastPage.isSome)]

/-- A text whose lines, each ended by a line feed, are these entries between two lines of dashes. No
other line is one of dashes, and no key stands twice. -/
def ReadsAs (text : String) (entries : List (String × Content)) : Prop :=
  ∃ body, Text.splitAt '\n' text.toList = fence.toList :: (body ++ [fence.toList, []]) ∧
    fence.toList ∉ body ∧ entries? body = some entries ∧ (entries.map Prod.fst).Nodup

/-! ### Slots -/

/-- A list of texts in quotes. -/
def listed (items : List String) : String := "[" ++ Text.joinWith ", " (items.map quoted) ++ "]"

/-- The keys of a preamble in their order, with their contents. -/
def slots : List (String × Option Content) :=
  [("title", (metadata.bind Metadata.title?).map fun text => ⟨(quoted text).toList, []⟩),
    ("abstract", (metadata.bind Metadata.abstract?).map fun text =>
      ⟨"|2".toList, (Text.lines text).map String.toList⟩),
    ("keywords", (keywords? metadata).map fun keywords => ⟨(listed keywords).toList, []⟩),
    ("doi", (Text.nonBlank? doi).map fun text => ⟨(quoted (Text.trim text)).toList, []⟩),
    ("first-page", firstPage.map fun page => ⟨page.toNat.repr.toList, []⟩),
    ("last-page", lastPage.map fun page => ⟨page.toNat.repr.toList, []⟩),
    ("lang", some ⟨(languageName lang).toList, []⟩),
    ("documentclass", some ⟨builder.documentClass.toList, []⟩),
    ("classoption",
      some ⟨("[" ++ builder.fontSize ++ ", " ++ builder.paperSize ++ "]").toList, []⟩),
    ("geometry", some ⟨("margin=" ++ builder.margin).toList, []⟩),
    ("bibliography", some ⟨builder.bibliography.toList, []⟩),
    ("citation-style", some ⟨builder.citationStyle.toList, []⟩)]

/-- The slots that are filled. -/
def filled (slots : List (String × Option Content)) : List (String × Content) :=
  slots.filterMap fun slot => slot.2.map (slot.1, ·)

theorem keys_slots : (slots builder metadata doi firstPage lastPage lang).map Prod.fst =
    ["title", "abstract", "keywords", "doi", "first-page", "last-page", "lang", "documentclass",
      "classoption", "geometry", "bibliography", "citation-style"] := rfl

theorem keys_filled_sublist (slots : List (String × Option Content)) :
    ((filled slots).map Prod.fst).Sublist (slots.map Prod.fst) := by
  induction slots with
  | nil => exact List.Sublist.refl _
  | cons slot rest ih =>
    obtain ⟨key, content⟩ := slot
    cases content with
    | none => exact ih.cons key
    | some content => exact ih.cons_cons key

theorem lookup_filled {slots : List (String × Option Content)}
    (distinct : (slots.map Prod.fst).Nodup) (key : String) :
    (filled slots).lookup key = (slots.lookup key).join := by
  induction slots with
  | nil => rfl
  | cons slot rest ih =>
    obtain ⟨first, content⟩ := slot
    rw [List.map_cons, List.nodup_cons] at distinct
    have later := ih distinct.2
    by_cases same : key = first
    · -- no later slot has the key, so an empty slot is the end of the search
      subst same
      have absent : (filled rest).lookup key = none := by
        rw [List.lookup_eq_none_iff]
        intro entry member
        have listed : entry.1 ∈ (filled rest).map Prod.fst := List.mem_map_of_mem member
        rw [bne_iff_ne]
        rintro rfl
        exact distinct.1 ((keys_filled_sublist rest).mem listed)
      cases content with
      | none => simpa [filled] using absent
      | some content => simp [filled]
    · have other : (key == first) = false := by simpa using same
      rw [List.lookup_cons, other]
      cases content with
      | none => exact later
      | some content =>
        change List.lookup key ((first, content) :: filled rest) = _
        rw [List.lookup_cons, other]
        exact later

theorem mem_keys_filled {slots : List (String × Option Content)}
    (distinct : (slots.map Prod.fst).Nodup) {slot : String × Option Content}
    (member : slot ∈ slots) : slot.1 ∈ (filled slots).map Prod.fst ↔ slot.2.isSome = true := by
  constructor
  · intro inside
    obtain ⟨entry, stands, same⟩ := List.mem_map.mp inside
    obtain ⟨other, listed, found⟩ := List.mem_filterMap.mp stands
    obtain ⟨content, contains, rfl⟩ := Option.map_eq_some_iff.mp found
    obtain rfl := List.inj_on_of_nodup_map distinct listed member same
    rw [contains, Option.isSome_some]
  · intro present
    obtain ⟨content, contains⟩ := Option.isSome_iff_exists.mp present
    have stands : (slot.1, content) ∈ filled slots :=
      List.mem_filterMap.mpr ⟨slot, member, by rw [contains, Option.map_some]⟩
    exact List.mem_map_of_mem stands

/-- The keys that always stand in a preamble. -/
def fixedKeys : List String :=
  ["lang", "documentclass", "classoption", "geometry", "bibliography", "citation-style"]

/-- The keys of a preamble. -/
def ownKeys : List String :=
  ((optionalKeys metadata doi firstPage lastPage).filter (·.2)).map Prod.fst ++ fixedKeys

private theorem isSome_slots :
    (slots builder metadata doi firstPage lastPage lang).map
        (fun slot => (slot.1, slot.2.isSome)) =
      optionalKeys metadata doi firstPage lastPage ++ fixedKeys.map (·, true) := by
  have title : (metadata.bind Metadata.title?).isSome =
      (metadata.bind Metadata.title).any fun text => !Text.isAllBlank text := by
    cases metadata <;> simp [Metadata.title?, Text.nonBlank?]
  have abstract : (metadata.bind Metadata.abstract?).isSome =
      (metadata.bind Metadata.abstract).any fun text => !Text.isAllBlank text := by
    cases metadata <;> simp [Metadata.abstract?, Text.nonBlank?]
  simp only [slots, optionalKeys, fixedKeys, List.map_cons, List.map_nil, Option.isSome_map, title,
    abstract, keywords?, Text.nonBlank?, Option.isSome_filter, Option.isSome_some,
    List.cons_append, List.nil_append]

theorem keys_filled : (filled (slots builder metadata doi firstPage lastPage lang)).map Prod.fst =
    ownKeys metadata doi firstPage lastPage := by
  have general (slots : List (String × Option Content)) : (filled slots).map Prod.fst =
      ((slots.map fun slot => (slot.1, slot.2.isSome)).filter (·.2)).map Prod.fst := by
    induction slots with
    | nil => rfl
    | cons slot rest ih =>
      obtain ⟨key, content⟩ := slot
      cases content with
      | none => exact ih
      | some content => exact congrArg (key :: ·) ih
  rw [general, isSome_slots, List.filter_append, List.map_append]
  rfl

/-! ### Lines -/

private def slotLines (slot : String × Option Content) : List (List Char) :=
  slot.2.elim [] (Content.lines slot.1)

private theorem lines_filled (slots : List (String × Option Content)) :
    (filled slots).flatMap (fun entry => entry.2.lines entry.1) = slots.flatMap slotLines := by
  induction slots with
  | nil => rfl
  | cons slot rest ih =>
    obtain ⟨key, content⟩ := slot
    rw [List.flatMap_cons, ← ih]
    cases content <;> rfl

private theorem toList_pair (key value : String) :
    (pair key value).toList = key.toList ++ ':' :: ' ' :: value.toList := by
  simp [pair]

private theorem toList_optionalPair (key : String) (value : Option String) :
    (optionalPair key value).map String.toList =
      slotLines (key, value.map fun text => ⟨text.toList, []⟩) := by
  cases value with
  | none => rfl
  | some text => simp [optionalPair, toList_pair, slotLines, Content.lines]

private theorem toList_metadataLines (metadata : Metadata) :
    (metadataLines metadata).map String.toList =
      slotLines ("title", metadata.title?.map fun text => ⟨(quoted text).toList, []⟩) ++
        slotLines ("abstract", metadata.abstract?.map fun text =>
          ⟨"|2".toList, (Text.lines text).map String.toList⟩) ++
        slotLines ("keywords", (keywords? metadata).map fun keywords =>
          ⟨(listed keywords).toList, []⟩) := by
  have title : (titleLines metadata).map String.toList =
      slotLines ("title", metadata.title?.map fun text => ⟨(quoted text).toList, []⟩) := by
    rw [titleLines, toList_optionalPair, Option.map_map]
    rfl
  have abstract : (abstractLines metadata).map String.toList =
      slotLines ("abstract", metadata.abstract?.map fun text =>
        ⟨"|2".toList, (Text.lines text).map String.toList⟩) := by
    unfold abstractLines
    cases metadata.abstract? with
    | none => rfl
    | some text => simp [toList_pair, slotLines, Content.lines, Function.comp_def]
  have keywords : (keywordLines metadata).map String.toList =
      slotLines ("keywords", (keywords? metadata).map fun keywords =>
        ⟨(listed keywords).toList, []⟩) := by
    rw [keywordLines, keywords?, Option.map_some, Option.filter_some]
    by_cases empty : metadata.keywordList.isEmpty
    · rw [if_pos empty, empty]
      rfl
    · rw [if_neg empty, if_pos (by simpa using empty)]
      simp [toList_pair, slotLines, Content.lines, listed]
  rw [metadataLines, List.map_append, List.map_append, title, abstract, keywords]

theorem lines_eq_filled : (builder.lines metadata doi firstPage lastPage lang).map String.toList =
    fence.toList :: ((filled (slots builder metadata doi firstPage lastPage lang)).flatMap
      (fun entry => entry.2.lines entry.1) ++ [fence.toList]) := by
  have fixed (key value : String) :
      slotLines (key, some ⟨value.toList, []⟩) = [(pair key value).toList] := by
    rw [toList_pair]
    rfl
  have empty (key : String) : slotLines (key, none) = [] := rfl
  rw [lines_filled, slots, FrontMatter.lines.eq_def]
  simp only [List.map_append, List.map_cons, List.map_nil, toList_optionalPair,
    Option.map_map, Function.comp_def, Nat.toString_eq_repr, fixed, List.flatMap_cons,
    List.flatMap_nil, List.append_assoc, List.cons_append, List.nil_append]
  cases metadata with
  | none =>
    have silent : keywords? none = none := rfl
    simp only [List.map_nil, Option.bind_none, Option.map_none, silent, empty, List.nil_append]
  | some metadata =>
    simp only [toList_metadataLines, List.append_assoc, Option.bind_some]

/-! ### No line ends early -/

/-- Values and lines of blocks without line feeds. -/
structure Content.Unbroken (content : Content) : Prop where
  value : '\n' ∉ content.value
  block : ∀ line ∈ content.block, '\n' ∉ line

theorem not_mem_lines {key : String} {content : Content} (formed : content.Formed key)
    (unbroken : content.Unbroken) : ∀ line ∈ content.lines key, '\n' ∉ line := by
  have key : '\n' ∉ key.toList := fun member =>
    absurd (List.all_eq_true.mp formed.chars _ member) (by decide)
  rw [Content.lines, List.forall_mem_cons]
  refine ⟨by simp [key, unbroken.value], ?_⟩
  intro line member
  obtain ⟨text, inBlock, rfl⟩ := List.mem_map.mp member
  simp [unbroken.block text inBlock]

private theorem mem_of_lookup {entries : List (String × String)} {key value : String}
    (found : entries.lookup key = some value) : (key, value) ∈ entries := by
  obtain ⟨before, after, rfl, -⟩ := List.lookup_eq_some_iff.mp found
  exact List.mem_append_right before List.mem_cons_self

section

variable {c : Char} (broken : c = '\n' ∨ c = '\r')
include broken

private theorem not_mem_escapeQuoted (text : List Char) : c ∉ escapeQuoted text := by
  have other : c ≠ ' ' ∧ c ≠ '\\' ∧ c ≠ '"' := by
    rcases broken with rfl | rfl <;> decide
  induction text using escapeQuoted.induct with
  | case1 => simp [escapeQuoted]
  | case2 text ih => simp [escapeQuoted, other, ih]
  | case3 text _ ih | case4 text _ _ ih => simp [escapeQuoted, other, ih]
  | case5 d text lone backslash quote brokenHere ih =>
    rw [escapeQuoted]
    · simp [backslash, quote, brokenHere, other, ih]
    · exact lone
  | case6 d text lone backslash quote whole ih =>
    have same : c ≠ d := by
      rintro rfl
      exact whole broken
    rw [escapeQuoted]
    · simp [backslash, quote, whole, same, ih]
    · exact lone

theorem not_mem_quoted (text : String) : c ∉ (quoted text).toList := by
  have quote : c ≠ '"' := by
    rcases broken with rfl | rfl <;> decide
  simp [quoted, quote, not_mem_escapeQuoted broken]

theorem not_mem_listed (items : List String) : c ∉ (listed items).toList := by
  have other : c ≠ '[' ∧ c ≠ ']' ∧ c ≠ ',' ∧ c ≠ ' ' := by
    rcases broken with rfl | rfl <;> decide
  suffices joined : c ∉ (Text.joinWith ", " (items.map quoted)).toList by
    simp [listed, joined, other]
  unfold Text.joinWith
  induction items with
  | nil => simp
  | cons first items ih =>
    cases items with
    | nil => simp [not_mem_quoted broken]
    | cons second items =>
      rw [List.map_cons, List.map_cons, String.intercalate_cons_cons, ← List.map_cons]
      rw [String.toList_append, String.toList_append]
      simp only [List.mem_append, not_or]
      exact ⟨⟨not_mem_quoted broken first, by simp [other]⟩, ih⟩

theorem not_mem_repr (n : Nat) : c ∉ n.repr.toList := by
  intro member
  have digit : c.isDigit = true := Text.isDigit_of_mem_repr member
  rcases broken with rfl | rfl <;> exact absurd digit (by decide)

theorem not_mem_languageName : c ∉ (languageName lang).toList := by
  have named : ∀ name ∈ "english" :: languageNames.map Prod.snd, c ∉ name.toList := by
    rcases broken with rfl | rfl <;> decide
  unfold languageName
  cases found : languageNames.lookup _ with
  | none => exact named _ List.mem_cons_self
  | some name =>
    have listed := List.mem_map_of_mem (f := Prod.snd) (mem_of_lookup found)
    exact named _ (List.mem_cons_of_mem _ listed)

/-- No value has a line break, if no setting has one. -/
theorem not_mem_value_slots (settings : ∀ setting ∈ [builder.documentClass, builder.fontSize,
      builder.paperSize, builder.margin, builder.bibliography, builder.citationStyle],
      c ∉ setting.toList) :
    ∀ slot ∈ slots builder metadata doi firstPage lastPage lang, ∀ content, slot.2 = some content →
      c ∉ content.value := by
  have other : c ∉ "|2".toList ∧ c ≠ '[' ∧ c ≠ ']' ∧ c ≠ ',' ∧ c ≠ ' ' ∧ c ∉ "margin=".toList := by
    rcases broken with rfl | rfl <;> decide
  simp only [List.forall_mem_cons, List.not_mem_nil, false_imp_iff, implies_true, and_true]
    at settings
  obtain ⟨documentClass, fontSize, paperSize, margin, bibliography, citationStyle⟩ := settings
  intro slot member content found
  simp only [slots, List.mem_cons, List.not_mem_nil, or_false] at member
  -- the value is a variable here, since a unifier would take a concrete text apart
  have always {value : List Char} {block : List (List Char)} (clean : c ∉ value)
      (filled : some ⟨value, block⟩ = some content) : c ∉ content.value := by
    obtain rfl := Option.some.inj filled
    exact clean
  have optional {α : Type} {source : Option α} {value : α → List Char}
      {block : α → List (List Char)} (clean : ∀ a, c ∉ value a)
      (filled : (source.map fun a => ⟨value a, block a⟩) = some content) : c ∉ content.value := by
    obtain ⟨a, -, rfl⟩ := Option.map_eq_some_iff.mp filled
    exact clean a
  have number (page : UInt32) : c ∉ page.toNat.repr.toList := not_mem_repr broken page.toNat
  rcases member with rfl | rfl | rfl | rfl | rfl | rfl | rfl | rfl | rfl | rfl | rfl | rfl
  · exact optional (not_mem_quoted broken) found
  · exact optional (fun _ => other.1) found
  · exact optional (not_mem_listed broken) found
  · exact optional (fun text => not_mem_quoted broken (Text.trim text)) found
  · exact optional number found
  · exact optional number found
  · exact always (not_mem_languageName lang broken) found
  · exact always documentClass found
  · exact always (by simp [other, fontSize, paperSize]) found
  · exact always (by simpa [margin] using other.2.2.2.2.2) found
  · exact always bibliography found
  · exact always citationStyle found

end

/-! ### Every slot can be read -/

/-- Only the abstract has a block. -/
theorem block_slots :
    ∀ slot ∈ slots builder metadata doi firstPage lastPage lang, ∀ content, slot.2 = some content →
      content.block = [] ∨ slot.1 = "abstract" ∧ content.value = "|2".toList ∧
        ∃ text ∈ metadata.bind Metadata.abstract?,
          content.block = (Text.lines text).map String.toList := by
  intro slot member content found
  have always {value : List Char} (filled : some ⟨value, []⟩ = some content) :
      content.block = [] := by
    obtain rfl := Option.some.inj filled
    rfl
  have optional {α : Type} {source : Option α} {value : α → List Char}
      (filled : (source.map fun a => ⟨value a, []⟩) = some content) : content.block = [] := by
    obtain ⟨a, -, rfl⟩ := Option.map_eq_some_iff.mp filled
    rfl
  simp only [slots, List.mem_cons, List.not_mem_nil, or_false] at member
  -- the slots in their order; the abstract is the second one
  rcases member with rfl | rfl | rfl | rfl | rfl | rfl | rfl | rfl | rfl | rfl | rfl | rfl
  · exact Or.inl (optional found)
  · obtain ⟨text, present, rfl⟩ := Option.map_eq_some_iff.mp found
    exact Or.inr ⟨rfl, rfl, text, present, rfl⟩
  · exact Or.inl (optional found)
  · exact Or.inl (optional found)
  · exact Or.inl (optional found)
  · exact Or.inl (optional found)
  · exact Or.inl (always found)
  · exact Or.inl (always found)
  · exact Or.inl (always found)
  · exact Or.inl (always found)
  · exact Or.inl (always found)
  · exact Or.inl (always found)

/-- Each slot has a key, announces its block, and holds no line feed. -/
theorem formed_slots (settings : ∀ setting ∈ [builder.documentClass, builder.fontSize,
      builder.paperSize, builder.margin, builder.bibliography, builder.citationStyle],
      '\n' ∉ setting.toList) :
    ∀ slot ∈ slots builder metadata doi firstPage lastPage lang, ∀ content, slot.2 = some content →
      content.Formed slot.1 ∧ content.Unbroken := by
  intro slot member content found
  have keyed : slot.1 ≠ "" ∧ slot.1.toList.all isKeyChar = true := by
    have keys : ∀ key ∈ (slots builder metadata doi firstPage lastPage lang).map Prod.fst,
        key ≠ "" ∧ key.toList.all isKeyChar = true := by
      rw [keys_slots]
      decide
    exact keys slot.1 (List.mem_map_of_mem member)
  have value : '\n' ∉ content.value := not_mem_value_slots builder metadata doi firstPage lastPage
    lang (Or.inl rfl) settings slot member content found
  rcases block_slots builder metadata doi firstPage lastPage lang slot member content found with
    empty | ⟨key, announced, text, -, block⟩
  · exact ⟨⟨keyed.1, keyed.2, fun nonempty => absurd empty nonempty⟩, ⟨value, by simp [empty]⟩⟩
  · refine ⟨⟨keyed.1, keyed.2, fun _ => ⟨key, announced⟩⟩, ⟨value, ?_⟩⟩
    rw [block]
    intro line member
    obtain ⟨shown, inText, rfl⟩ := List.mem_map.mp member
    exact Text.not_mem_of_mem_lines inText

theorem formed_filled {slots : List (String × Option Content)}
    (formed : ∀ slot ∈ slots, ∀ content, slot.2 = some content →
      content.Formed slot.1 ∧ content.Unbroken) :
    ∀ entry ∈ filled slots, entry.2.Formed entry.1 ∧ entry.2.Unbroken := by
  intro entry member
  obtain ⟨slot, listed, found⟩ := List.mem_filterMap.mp member
  obtain ⟨content, contains, rfl⟩ := Option.map_eq_some_iff.mp found
  exact formed slot listed content contains

/-! ### What a reader gets -/

theorem nodup_keys_slots :
    ((slots builder metadata doi firstPage lastPage lang).map Prod.fst).Nodup := by
  rw [keys_slots]
  decide

private theorem lookup_slots {found : List (String × Option Content)}
    (same : slots builder metadata doi firstPage lastPage lang = found) :
    found.lookup "title" = some ((metadata.bind Metadata.title?).map fun text =>
        ⟨(quoted text).toList, []⟩) ∧
      found.lookup "abstract" = some ((metadata.bind Metadata.abstract?).map fun text =>
        ⟨"|2".toList, (Text.lines text).map String.toList⟩) ∧
      found.lookup "keywords" = some ((keywords? metadata).map fun keywords =>
        ⟨(listed keywords).toList, []⟩) ∧
      found.lookup "doi" = some ((Text.nonBlank? doi).map fun text =>
        ⟨(quoted (Text.trim text)).toList, []⟩) ∧
      found.lookup "first-page" = some (firstPage.map fun page => ⟨page.toNat.repr.toList, []⟩) ∧
      found.lookup "last-page" = some (lastPage.map fun page => ⟨page.toNat.repr.toList, []⟩) ∧
      found.lookup "lang" = some (some ⟨(languageName lang).toList, []⟩) := by
  subst same
  simp only [slots, List.lookup_cons, String.reduceBEq, and_self]

private theorem block?_lines (text : String) :
    block? ⟨"|2".toList, (Text.lines text).map String.toList⟩ = some (Text.lines text) := by
  simp [block?]

/-- A key is read as what its slot was filled with. -/
private theorem optional?_filled {α β : Type} {slots : List (String × Option Content)}
    (distinct : (slots.map Prod.fst).Nodup) {key : String} {source : Option β}
    {content : β → Content} (stands : slots.lookup key = some (source.map content))
    (read : Content → Option α) (shown : β → α)
    (reads : ∀ b, source = some b → read (content b) = some (shown b)) :
    optional? (filled slots) key read = some (source.map shown) := by
  rw [optional?, lookup_filled distinct, stands, Option.join_some]
  cases source with
  | none => rfl
  | some b => exact congrArg (Option.map some) (reads b rfl)

private theorem optional?_plain {α β : Type} {slots : List (String × Option Content)}
    (distinct : (slots.map Prod.fst).Nodup) {key : String} {source : Option β}
    {value : β → List Char}
    (stands : slots.lookup key = some (source.map fun b => ⟨value b, []⟩))
    (read : List Char → Option α) (shown : β → α)
    (reads : ∀ b, source = some b → read (value b) = some (shown b)) :
    optional? (filled slots) key (read ·.value) = some (source.map shown) :=
  optional?_filled distinct stands (read ·.value) shown reads

/-- The reader gets back what a preamble has to say. -/
theorem read?_filled :
    Preamble.read? (filled (slots builder metadata doi firstPage lastPage lang)) =
      some (said metadata doi firstPage lastPage lang) := by
  have distinct := nodup_keys_slots builder metadata doi firstPage lastPage lang
  obtain ⟨title, abstract, keywords, identifier, first, last, language⟩ :=
    lookup_slots builder metadata doi firstPage lastPage lang rfl
  have listing (items : List String) (found : keywords? metadata = some items) :
      texts? (listed items).toList = some (items.map oneLine) := by
    have nonempty := (Option.filter_eq_some_iff.mp found).2
    exact texts?_joinWith (by simpa using nonempty)
  -- each key is looked up by itself, and read by what undoes the way it was written
  have titleRead := optional?_plain distinct title text? oneLine fun text _ => text?_quoted text
  have abstractRead := optional?_filled distinct abstract block? Text.lines
    fun text _ => block?_lines text
  have keywordsRead := optional?_plain distinct keywords texts? (List.map oneLine) listing
  have doiRead := optional?_plain distinct identifier text? (fun text => oneLine (Text.trim text))
    fun text _ => text?_quoted (Text.trim text)
  have firstRead := optional?_plain distinct first Text.number? UInt32.toNat
    fun page _ => Text.number?_repr page.toNat
  have lastRead := optional?_plain distinct last Text.number? UInt32.toNat
    fun page _ => Text.number?_repr page.toNat
  have langRead := (lookup_filled distinct "lang").trans (congrArg Option.join language)
  simp only [Preamble.read?, titleRead, abstractRead, keywordsRead, doiRead, firstRead, lastRead,
    langRead]
  have name : String.ofList (languageName lang).toList = languageName lang := String.ofList_toList
  simp only [Option.join_some, Option.bind_eq_bind, Option.bind_some, name]
  rfl

theorem mem_keys_iff : ∀ slot ∈ optionalKeys metadata doi firstPage lastPage,
    slot.1 ∈ (filled (slots builder metadata doi firstPage lastPage lang)).map Prod.fst ↔
      slot.2 = true := by
  intro slot member
  have stands : slot ∈ (slots builder metadata doi firstPage lastPage lang).map
      (fun slot => (slot.1, slot.2.isSome)) := by
    rw [isSome_slots]
    exact List.mem_append_left _ member
  obtain ⟨source, listed, rfl⟩ := List.mem_map.mp stands
  exact mem_keys_filled (nodup_keys_slots builder metadata doi firstPage lastPage lang) listed

theorem toList_build : (build builder metadata doi firstPage lastPage lang).toList =
    ((builder.lines metadata doi firstPage lastPage lang).map String.toList).flatMap
      (· ++ ['\n']) := by
  simp [build, String.toList_join, List.flatMap_map]

/-- No line of a preamble has a line feed, if no setting has one. -/
theorem not_mem_lines_build (settings : ∀ setting ∈ [builder.documentClass, builder.fontSize,
      builder.paperSize, builder.margin, builder.bibliography, builder.citationStyle],
      '\n' ∉ setting.toList) :
    ∀ line ∈ (builder.lines metadata doi firstPage lastPage lang).map String.toList,
      '\n' ∉ line := by
  have formed := formed_filled
    (formed_slots builder metadata doi firstPage lastPage lang settings)
  have dashes : '\n' ∉ fence.toList := by decide
  rw [lines_eq_filled, List.forall_mem_cons, List.forall_mem_append, List.forall_mem_singleton]
  refine ⟨dashes, ?_, dashes⟩
  intro line member
  obtain ⟨entry, inside, member⟩ := List.mem_flatMap.mp member
  exact not_mem_lines (formed entry inside).1 (formed entry inside).2 line member

/-- **Front matter reads back**: a preamble of a configuration whose settings have no line feeds is
a block of entries, with the data of the article under its keys and no other optional key. -/
theorem build_readsAs (config : Config) (fontSize : '\n' ∉ config.fontSize.toList)
    (paperSize : '\n' ∉ config.paperSize.toList) (margin : '\n' ∉ config.margin.toList)
    (citationStyle : '\n' ∉ config.citationStyle.toList) :
    ∃ entries,
      ReadsAs (build (ofConfig config) metadata doi firstPage lastPage lang) entries ∧
      Preamble.read? entries = some (said metadata doi firstPage lastPage lang) ∧
      ∀ slot ∈ optionalKeys metadata doi firstPage lastPage,
        slot.1 ∈ entries.map Prod.fst ↔ slot.2 = true := by
  have keys := (keys_filled_sublist _).nodup
    (nodup_keys_slots (ofConfig config) metadata doi firstPage lastPage lang)
  have settings : ∀ setting ∈ ["article", config.fontSize, config.paperSize, config.margin,
      bibliographyFile, config.citationStyle], '\n' ∉ setting.toList := by
    have fixed : '\n' ∉ "article".toList ∧ '\n' ∉ bibliographyFile.toList := by decide
    simp [fixed, fontSize, paperSize, margin, citationStyle]
  have formed := formed_filled
    (formed_slots (ofConfig config) metadata doi firstPage lastPage lang settings)
  have lined := lines_eq_filled (ofConfig config) metadata doi firstPage lastPage lang
  have clean := not_mem_lines_build (ofConfig config) metadata doi firstPage lastPage lang settings
  refine ⟨filled (slots (ofConfig config) metadata doi firstPage lastPage lang), ?_,
    read?_filled _ metadata doi firstPage lastPage lang,
    mem_keys_iff _ metadata doi firstPage lastPage lang⟩
  -- from here on only what was shown of the entries counts
  generalize filled (slots (ofConfig config) metadata doi firstPage lastPage lang) = entries
    at keys formed lined ⊢
  have read := entries?_lines fun entry member => (formed entry member).1
  refine ⟨entries.flatMap fun entry => entry.2.lines entry.1, ?_,
    fence_not_mem_of_entries? read, read, keys⟩
  rw [toList_build, Text.splitAt_flatMap clean, lined]
  simp

/-- An article whose texts look like other lines of a preamble. -/
theorem build_readsAs_default :
    ('\n' ∉ Config.default.fontSize.toList ∧ '\n' ∉ Config.default.paperSize.toList ∧
      '\n' ∉ Config.default.margin.toList ∧ '\n' ∉ Config.default.citationStyle.toList) ∧
    ∃ entries,
      ReadsAs (build (ofConfig .default)
        (some ⟨some "A \"title\"\r\ndoi: \\", some "---\n\n  lang: english\n", some "a\", \\b\\,"⟩)
        (some " 10.1/x ") (some 3) none "RU") entries ∧
      Preamble.read? entries = some
        { title := some "A \"title\" doi: \\", abstract := some ["---", "", "  lang: english"],
          keywords := some ["a\"", "\\b\\"], doi := some "10.1/x", firstPage := some 3,
          lastPage := none, lang := "russian" } := by
  have settings : '\n' ∉ Config.default.fontSize.toList ∧ '\n' ∉ Config.default.paperSize.toList ∧
      '\n' ∉ Config.default.margin.toList ∧ '\n' ∉ Config.default.citationStyle.toList := by
    decide
  obtain ⟨entries, reads, preamble, -⟩ := build_readsAs
    (some ⟨some "A \"title\"\r\ndoi: \\", some "---\n\n  lang: english\n", some "a\", \\b\\,"⟩)
    (some " 10.1/x ") (some 3) none "RU" .default settings.1 settings.2.1 settings.2.2.1
    settings.2.2.2
  refine ⟨settings, entries, reads, preamble.trans ?_⟩
  decide

end Galley.FrontMatter
