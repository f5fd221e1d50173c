import Galley.Bibliography.Entry
import Mathlib.Data.List.Infix
/-!
# The citation database reads back

A reader of databases that knows nothing about how they are made. It takes a key up to its comma,
and the value of a field up to the brace that matches its first one. It counts braces and nothing
else: no character keeps a brace from counting.

## Main result

`print_readsBack`: the database of references is read as one entry for each of them, in order, with
its key and the values that it has, as long as their braces match and no key has a comma.

A value with matching braces never closes the field that it stands in, whatever else it spells
(`readFrom_value`). From there on each part of an entry is read in front of anything else.
-/
namespace Galley.Bibliography

open Galley.Article (Reference LocalizedText)

/-! ### The reader -/

/-- What is read of an entry. -/
structure Reading where
  key : String
  fields : List (String × String)
deriving DecidableEq, Repr

/-- An entry with one more field. -/
def Reading.with (entry : Reading) (field : String × String) : Reading :=
  { entry with fields := entry.fields ++ [field] }

/-- Where the reader is. What it has read of a word or a value is kept backwards. -/
inductive Place where
  | between
  | kind (read : List Char)
  | key (read : List Char)
  /-- Before a field or the end of the entry. -/
  | name (entry : Reading) (read : List Char)
  /-- Behind the equals sign of a field. -/
  | opening (entry : Reading) (name : List Char)
  /-- In a value with `depth` open braces. -/
  | value (entry : Reading) (name : List Char) (depth : Nat) (read : List Char)
  /-- Behind the value of a field. -/
  | closed (entry : Reading)

def readFrom : Place → List Char → Option (List Reading)
  | .between, [] => some []
  | _, [] => none
  | .between, c :: rest =>
    if c = '@' then readFrom (.kind []) rest
    else if Text.isBlank c then readFrom .between rest else none
  | .kind read, c :: rest =>
    if c ≠ '{' then readFrom (.kind (c :: read)) rest
    else if read.reverse = "article".toList then readFrom (.key []) rest else none
  | .key read, c :: rest =>
    if c = ',' then readFrom (.name ⟨String.ofList read.reverse, []⟩ []) rest
    else readFrom (.key (c :: read)) rest
  | .name entry read, c :: rest =>
    if c = '=' then readFrom (.opening entry (read.dropWhile Text.isBlank).reverse) rest
    else if c = '}' then
      if read = [] then (readFrom .between rest).map (entry :: ·) else none
    else if read = [] ∧ Text.isBlank c then readFrom (.name entry []) rest
    else readFrom (.name entry (c :: read)) rest
  | .opening entry name, c :: rest =>
    if c = '{' then readFrom (.value entry name 0 []) rest
    else if Text.isBlank c then readFrom (.opening entry name) rest else none
  | .value entry name depth read, c :: rest =>
    if c = '{' then readFrom (.value entry name (depth + 1) (c :: read)) rest
    else if c = '}' then
      if depth = 0 then
        readFrom (.closed (entry.with (String.ofList name, String.ofList read.reverse))) rest
      else readFrom (.value entry name (depth - 1) (c :: read)) rest
    else readFrom (.value entry name depth (c :: read)) rest
  | .closed entry, c :: rest =>
    if c = ',' then readFrom (.name entry []) rest
    else if c = '}' then (readFrom .between rest).map (entry :: ·)
    else if Text.isBlank c then readFrom (.closed entry) rest else none

/-- The entries of a database. -/
def read? (text : String) : Option (List Reading) := readFrom .between text.toList

/-! ### Matching braces -/

/-- A text whose braces match: no part from its start closes more than it opens, and the whole
closes what it opens. -/
structure Balanced (text : List Char) : Prop where
  within : ∀ before, before <+: text → before.count '}' ≤ before.count '{'
  total : text.count '}' = text.count '{'

theorem balanced_iff {text : List Char} :
    Balanced text ↔ (∀ before ∈ text.inits, before.count '}' ≤ before.count '{') ∧
      text.count '}' = text.count '{' := by
  simp only [List.mem_inits]
  exact ⟨fun ⟨within, total⟩ => ⟨within, total⟩, fun ⟨within, total⟩ => ⟨within, total⟩⟩

instance (text : List Char) : Decidable (Balanced text) := decidable_of_iff _ balanced_iff.symm

/-- A value is read up to a depth that its braces tell, if none of them closes the field. -/
theorem readFrom_value (entry : Reading) (name : List Char) {depth : Nat} {text : List Char}
    (within : ∀ before, before <+: text → before.count '}' ≤ depth + before.count '{')
    (read rest : List Char) :
    readFrom (.value entry name depth read) (text ++ rest) =
      readFrom (.value entry name (depth + text.count '{' - text.count '}') (text.reverse ++ read))
        rest := by
  induction text generalizing depth read with
  | nil => simp
  | cons c text ih =>
    have later (before : List Char) (ahead : before <+: text) :=
      within (c :: before) (List.cons_prefix_cons.mpr ⟨rfl, ahead⟩)
    rw [List.cons_append, readFrom]
    by_cases opens : c = '{'
    · rw [if_pos opens]
      subst opens
      simp only [List.count_cons_self, List.count_cons_of_ne (by decide : '{' ≠ '}')] at later ⊢
      have deeper (before : List Char) (ahead : before <+: text) :
          before.count '}' ≤ depth + 1 + before.count '{' := by
        have bound := later before ahead
        omega
      have same : depth + 1 + text.count '{' = depth + (text.count '{' + 1) := by omega
      rw [ih deeper, same]
      simp
    · rw [if_neg opens]
      by_cases closes : c = '}'
      · rw [if_pos closes]
        subst closes
        simp only [List.count_cons_self, List.count_cons_of_ne (by decide : '}' ≠ '{')] at later ⊢
        -- a brace is open here, or the part up to this one would close too many
        have inside : 0 < depth := by
          have bound := later [] List.nil_prefix
          rw [List.count_nil, List.count_nil] at bound
          omega
        have shallower (before : List Char) (ahead : before <+: text) :
            before.count '}' ≤ depth - 1 + before.count '{' := by
          have bound := later before ahead
          omega
        have same : depth - 1 + text.count '{' - text.count '}' =
            depth + text.count '{' - (text.count '}' + 1) := by
          omega
        rw [if_neg inside.ne', ih shallower, same]
        simp
      · rw [if_neg closes]
        simp only [List.count_cons_of_ne opens, List.count_cons_of_ne closes] at later ⊢
        rw [ih later]
        simp

/-! ### Printed entries -/

theorem readFrom_key {key : List Char} (clean : ',' ∉ key) (read rest : List Char) :
    readFrom (.key read) (key ++ ',' :: rest) =
      readFrom (.name ⟨String.ofList (read.reverse ++ key), []⟩ []) rest := by
  induction key generalizing read with
  | nil => simp [readFrom]
  | cons c key ih =>
    simp only [List.mem_cons, not_or] at clean
    rw [List.cons_append, readFrom, if_neg (Ne.symm clean.1), ih clean.2]
    simp

/-- A name of a field that a reader can tell from what is around it. -/
def IsFieldName (name : String) : Prop :=
  name ≠ "" ∧ ∀ c ∈ name.toList, Text.isBlank c = false ∧ c ≠ '=' ∧ c ≠ '}'

instance (name : String) : Decidable (IsFieldName name) :=
  @instDecidableAnd _ _ _ (List.decidableBAll _ _)

theorem readFrom_name (entry : Reading) {name : List Char}
    (named : ∀ c ∈ name, Text.isBlank c = false ∧ c ≠ '=' ∧ c ≠ '}')
    (read rest : List Char) :
    readFrom (.name entry read) (name ++ rest) =
      readFrom (.name entry (name.reverse ++ read)) rest := by
  induction name generalizing read with
  | nil => rfl
  | cons c name ih =>
    obtain ⟨⟨solid, unequal, opened⟩, named⟩ := List.forall_mem_cons.mp named
    rw [List.cons_append, readFrom, if_neg unequal, if_neg opened, if_neg (by simp [solid]),
      ih named]
    simp

/-- A field on its line. -/
def fieldText (field : String × String) : List Char :=
  ' ' :: ' ' :: (field.1.toList ++ ' ' :: '=' :: ' ' :: '{' :: (field.2.toList ++ ['}', ',', '\n']))

/-- A field is read in front of anything else, up to the end of its line. -/
private theorem readFrom_field (entry : Reading) {field : String × String}
    (named : IsFieldName field.1) (balanced : Balanced field.2.toList) (rest : List Char) :
    readFrom (.name entry []) (fieldText field ++ rest) =
      readFrom (.name (entry.with field) []) rest := by
  obtain ⟨name, value⟩ := field
  have within (before : List Char) (ahead : before <+: value.toList) :
      before.count '}' ≤ 0 + before.count '{' := by
    rw [Nat.zero_add]
    exact balanced.within before ahead
  have level : 0 + value.toList.count '{' - value.toList.count '}' = 0 := by
    rw [balanced.total, Nat.zero_add, Nat.sub_self]
  have blank : Text.isBlank ' ' = true ∧ Text.isBlank '\n' = true := by decide
  -- the blank behind the name is dropped again at the equals sign
  have starts : name.toList.reverse ≠ [] := by simpa using named.1
  have word : (' ' :: name.toList.reverse).dropWhile Text.isBlank = name.toList.reverse := by
    rw [List.dropWhile_cons_of_pos blank.1]
    cases backwards : name.toList.reverse with
    | nil => rfl
    | cons c others =>
      have member : c ∈ name.toList := List.mem_reverse.mp (by simp [backwards])
      exact List.dropWhile_cons_of_neg (by simp [named.2 c member])
  have shape : fieldText (name, value) ++ rest = [' ', ' '] ++ (name.toList ++
      ' ' :: '=' :: ' ' :: '{' :: (value.toList ++ '}' :: ',' :: '\n' :: rest)) := by
    simp [fieldText]
  calc readFrom (.name entry []) (fieldText (name, value) ++ rest)
      = readFrom (.name entry []) (name.toList ++
          ' ' :: '=' :: ' ' :: '{' :: (value.toList ++ '}' :: ',' :: '\n' :: rest)) := by
        rw [shape]
        simp [readFrom, blank]
    _ = readFrom (.name entry name.toList.reverse)
          (' ' :: '=' :: ' ' :: '{' :: (value.toList ++ '}' :: ',' :: '\n' :: rest)) := by
        rw [readFrom_name entry named.2, List.append_nil]
    _ = readFrom (.value entry name.toList 0 []) (value.toList ++ '}' :: ',' :: '\n' :: rest) := by
        simp [readFrom, blank, starts, word]
    _ = readFrom (.value entry name.toList 0 value.toList.reverse)
          ('}' :: ',' :: '\n' :: rest) := by
        rw [readFrom_value entry name.toList within, level, List.append_nil]
    _ = readFrom (.name (entry.with (name, value)) []) rest := by
        simp [readFrom, blank]

private theorem readFrom_fields (entry : Reading) {fields : List (String × String)}
    (named : ∀ field ∈ fields, IsFieldName field.1)
    (balanced : ∀ field ∈ fields, Balanced field.2.toList) (rest : List Char) :
    readFrom (.name entry []) (fields.flatMap fieldText ++ rest) =
      readFrom (.name { entry with fields := entry.fields ++ fields } []) rest := by
  induction fields generalizing entry with
  | nil => simp
  | cons field fields ih =>
    rw [List.forall_mem_cons] at named balanced
    rw [List.flatMap_cons, List.append_assoc, readFrom_field entry named.1 balanced.1,
      ih _ named.2 balanced.2]
    simp [Reading.with]

theorem toList_print (entry : Entry) :
    entry.print.toList = "@article".toList ++ '{' ::
      (entry.key.toList ++
        ',' :: '\n' :: (entry.fields.flatMap fieldText ++ ['}', '\n', '\n'])) := by
  have line (field : String × String) :
      ("  " ++ field.1 ++ " = \x7b" ++ field.2 ++ "\x7d,\n").toList = fieldText field := by
    simp [fieldText]
  have printed : entry.print = "@article\x7b" ++ entry.key ++ ",\n" ++
      String.join (entry.fields.map fun field =>
        "  " ++ field.1 ++ " = \x7b" ++ field.2 ++ "\x7d,\n") ++ "\x7d\n\n" := rfl
  rw [printed]
  simp [String.toList_join, List.flatMap_map, line]

theorem isFieldName_of_mem (entry : Entry) :
    ∀ field ∈ entry.fields, IsFieldName field.1 := by
  have names : ∀ name ∈ ["note", "doi", "url"], IsFieldName name := by
    decide
  intro field member
  obtain ⟨source, listed, found⟩ := List.mem_filterMap.mp member
  obtain ⟨value, -, rfl⟩ := Option.map_eq_some_iff.mp found
  apply names
  exact List.mem_map_of_mem (f := Prod.fst) listed

/-- An entry is read in front of anything else. -/
theorem readFrom_print {entry : Entry} (clean : ',' ∉ entry.key.toList)
    (balanced : ∀ field ∈ entry.fields, Balanced field.2.toList) (rest : List Char) :
    readFrom .between (entry.print.toList ++ rest) =
      (readFrom .between rest).map (⟨entry.key, entry.fields⟩ :: ·) := by
  have blank : Text.isBlank '\n' = true := by decide
  have opened (following : List Char) :
      readFrom .between ("@article".toList ++ '{' :: following) = readFrom (.key []) following := by
    simp [readFrom]
  have ended (entry : Reading) :
      readFrom (.name entry []) (['}', '\n', '\n'] ++ rest) =
        (readFrom .between rest).map (entry :: ·) := by
    simp [readFrom, blank]
  rw [toList_print, List.append_assoc, List.cons_append, opened, List.append_assoc,
    List.cons_append, readFrom_key clean, List.cons_append, readFrom, if_neg (by decide),
    if_neg (by decide), if_pos ⟨rfl, blank⟩, List.append_assoc,
    readFrom_fields _ (isFieldName_of_mem entry) balanced, ended]
  simp

/-- Entries read back from what is printed for them. -/
theorem read?_print {entries : List Entry} (clean : ∀ entry ∈ entries, ',' ∉ entry.key.toList)
    (balanced : ∀ entry ∈ entries, ∀ field ∈ entry.fields, Balanced field.2.toList) :
    read? (print entries) = some (entries.map fun entry => ⟨entry.key, entry.fields⟩) := by
  have printed : (print entries).toList = entries.flatMap fun entry => entry.print.toList := by
    simp [print, String.toList_join, List.flatMap_map]
  rw [read?, printed]
  clear printed
  induction entries with
  | nil => rfl
  | cons entry rest ih =>
    rw [List.forall_mem_cons] at clean balanced
    rw [List.flatMap_cons, readFrom_print clean.1 balanced.1, ih clean.2 balanced.2]
    rfl

/-! ### References -/

/-- What the database is to say of a reference at a position. -/
def Reading.of (position : Nat) (reference : Reference) : Reading where
  key := ((Text.nonBlank? reference.id).map Text.trim).getD ("ref" ++ toString position)
  fields :=
    [("note", reference.text.first?), ("doi", reference.doi), ("url", reference.url)].filterMap
      fun field => (Text.nonBlank? field.2).map (field.1, ·)

private theorem reading_ofReference (position : Nat) (reference : Reference) :
    (⟨(Entry.ofReference position reference).key, (Entry.ofReference position reference).fields⟩ :
      Reading) = Reading.of position reference := by
  have key : Entry.keyOf position reference = (Reading.of position reference).key := by
    rw [Entry.keyOf, Reading.of]
    cases (Text.nonBlank? reference.id).map Text.trim <;> rfl
  rw [Entry.ofReference, key]
  rfl

private theorem map_entriesFrom (position : Nat) (references : List Reference) :
    ((entriesFrom position references).map fun entry => (⟨entry.key, entry.fields⟩ : Reading)) =
      (references.zipIdx position).map fun numbered => Reading.of numbered.2 numbered.1 := by
  induction references generalizing position with
  | nil => rfl
  | cons reference rest ih =>
    rw [entriesFrom, List.map_cons, reading_ofReference, ih, List.zipIdx_cons, List.map_cons]

private theorem exists_of_mem_entriesFrom {position : Nat} {references : List Reference}
    {entry : Entry} (member : entry ∈ entriesFrom position references) :
    ∃ reference ∈ references, ∃ position, entry = Entry.ofReference position reference := by
  induction references generalizing position with
  | nil => cases member
  | cons reference rest ih =>
    rcases List.mem_cons.mp member with rfl | later
    · exact ⟨reference, List.mem_cons_self, position, rfl⟩
    · obtain ⟨found, inside, same⟩ := ih later
      exact ⟨found, List.mem_cons_of_mem _ inside, same⟩

/-- The values of a reference that go into the database if they are not blank. -/
def values (reference : Reference) : List String :=
  reference.text.first?.toList ++ reference.doi.toList ++ reference.url.toList

private theorem mem_values_of_mem_fields {position : Nat} {reference : Reference}
    {field : String × String} (member : field ∈ (Entry.ofReference position reference).fields) :
    field.2 ∈ values reference := by
  obtain ⟨source, listed, found⟩ := List.mem_filterMap.mp member
  obtain ⟨value, present, rfl⟩ := Option.map_eq_some_iff.mp found
  have given {text : Option String} (kept : Text.nonBlank? text = some value) : text = some value :=
    (Option.filter_eq_some_iff.mp kept).1
  simp only [List.mem_cons, List.not_mem_nil, or_false] at listed
  rcases listed with rfl | rfl | rfl
  · simp [values, given present]
  · simp [values, given present]
  · simp [values, given present]

/-- **The citation database reads back**: one entry for each reference, in order, with the trimmed
identifier or the number of the reference as its key, and its first text, its DOI and its URL as
fields wherever they are not blank. -/
theorem print_readsBack (references : List Reference)
    (balanced : ∀ reference ∈ references, ∀ value ∈ values reference, Balanced value.toList)
    (keys : ∀ entry ∈ entries references, ',' ∉ entry.key.toList) :
    read? (print (entries references)) =
      some ((references.zipIdx 1).map fun numbered => Reading.of numbered.2 numbered.1) := by
  have matching : ∀ entry ∈ entries references, ∀ field ∈ entry.fields,
      Balanced field.2.toList := by
    intro entry member field inside
    obtain ⟨reference, listed, position, rfl⟩ := exists_of_mem_entriesFrom member
    exact balanced reference listed field.2 (mem_values_of_mem_fields inside)
  rw [read?_print keys matching, entries, map_entriesFrom]

/-- References whose texts look like the ends of fields and like other entries. -/
def bracedReferences : List Reference :=
  [⟨some " a\x7db ", .ofList [("ru", "\x7b@article\x7bx,\n\x7d,\x7d = 1"), ("en", "\x7d")],
      some "10.1/x\\", none⟩,
    ⟨some " \n", .ofList [], some "  ", some "\x7b\x7d"⟩, ⟨none, .empty, none, none⟩]

theorem print_readsBack_braced :
    (∀ reference ∈ bracedReferences, ∀ value ∈ values reference, Balanced value.toList) ∧
      (∀ entry ∈ entries bracedReferences, ',' ∉ entry.key.toList) ∧
      read? (print (entries bracedReferences)) = some
        [⟨"a\x7db", [("note", "\x7b@article\x7bx,\n\x7d,\x7d = 1"), ("doi", "10.1/x\\")]⟩,
          ⟨"ref2", [("url", "\x7b\x7d")]⟩, ⟨"ref3", []⟩] := by
  have balanced : ∀ reference ∈ bracedReferences, ∀ value ∈ values reference,
      Balanced value.toList := by
    decide
  have keys : ∀ entry ∈ entries bracedReferences, ',' ∉ entry.key.toList := by
    decide
  refine ⟨balanced, keys, (print_readsBack bracedReferences balanced keys).trans ?_⟩
  decide

end Galley.Bibliography
