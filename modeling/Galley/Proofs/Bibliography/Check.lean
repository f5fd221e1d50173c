import Galley.Bibliography.Database
import Galley.Proofs.Basic
import Galley.Proofs.Bibliography.Braces
import Galley.Proofs.Text.Trim
/-!
# The check of the citation database

The check reads the database back and counts what it reads. It compares nothing with the references:
a text that closes its own field can close its entry too, and open another one. As long as no text
does that, the entries that are read are those that were written.

## Main result

`validate_counts`, of which the second part follows the reader through a database: each field
(`takeFields_fieldsText`), each entry (`takeEntry_entryText`) and all of them
(`takeEntries_print`) are read as they were written, if they are read at all. That the keys which
are read are pairwise different holds of any text (`parse_keys`).
-/
namespace Galley.Bibliography

open Galley.Article (Reference)
open Galley.Text (Trimmed size trimmed_trim)
open Braces (scan?)

/-! ### Fields -/

theorem takeName_append {c d : Char} {word : List Char} (first : isNameStart c = true)
    (others : ∀ e ∈ word, isNameChar e = true) (stops : isNameChar d = false) (rest : List Char) :
    takeName (c :: (word ++ d :: rest)) = .ok (String.ofList (c :: word), d :: rest) := by
  have taken : (word ++ d :: rest).takeWhile isNameChar = word := by
    rw [List.takeWhile_append_of_pos others, List.takeWhile_cons_of_neg (by simp [stops]),
      List.append_nil]
  have left : (word ++ d :: rest).dropWhile isNameChar = d :: rest := by
    rw [List.dropWhile_append_of_pos others, List.dropWhile_cons_of_neg (by simp [stops])]
  rw [takeName, if_pos first, taken, left]

theorem takeName_field {name : String} (named : name ∈ fieldNames) (rest : List Char) :
    takeName (name.toList ++ ' ' :: rest) = .ok (name, ' ' :: rest) := by
  have shapes : ∀ name ∈ fieldNames, ∃ c word, name.toList = c :: word ∧ isNameStart c = true ∧
      word.all isNameChar = true := by
    simp only [fieldNames, List.forall_mem_cons]
    exact ⟨⟨'n', "ote".toList, by decide⟩, ⟨'d', "oi".toList, by decide⟩,
      ⟨'u', "rl".toList, by decide⟩, List.forall_mem_nil _⟩
  obtain ⟨c, word, same, first, others⟩ := shapes name named
  rw [same, List.cons_append, takeName_append first (List.all_eq_true.mp others) (by decide),
    ← same, String.ofList_toList]

theorem skipGap_field {name : String} (named : name ∈ fieldNames) (rest : List Char) :
    skipGap ('\n' :: ' ' :: ' ' :: (name.toList ++ rest)) = name.toList ++ rest ∧
      atEntryEnd (name.toList ++ rest) = false := by
  simp only [fieldNames, List.mem_cons, List.not_mem_nil, or_false] at named
  rcases named with rfl | rfl | rfl
  all_goals exact ⟨rfl, rfl⟩

section

variable {inner text after : List Char}

/-- A value in braces with nothing joined to it. -/
theorem takeValue_braced (taken : takeBraced 0 [] inner = .ok (text, after))
    (single : (skipBlanks after).head? ≠ some '#') :
    takeValue ('{' :: inner) = .ok ([.text text (size after + 1)], skipBlanks after) := by
  rw [takeValue]
  have part : takePart ('{' :: inner) = .ok (.text text (size after + 1), after) := by
    simp [takePart, taken, bind, Except.bind, pure, Except.pure]
  rw [part]
  simp only [bind, Except.bind]
  split
  next found => rw [found] at single; exact absurd rfl single
  next => rfl

theorem takeField_braced {name : String} (named : name ∈ fieldNames)
    (taken : takeBraced 0 [] inner = .ok (text, after))
    (single : (skipBlanks after).head? ≠ some '#') :
    takeField (name.toList ++ ' ' :: '=' :: ' ' :: '{' :: inner) =
      .ok (⟨name, [.text text (size after + 1)]⟩, skipGap (skipBlanks after)) := by
  have equals : takeMark '=' .equals (skipBlanks (' ' :: '=' :: ' ' :: '{' :: inner)) =
      .ok (' ' :: '{' :: inner) := rfl
  have blank : skipBlanks (' ' :: '{' :: inner) = '{' :: inner := rfl
  rw [takeField, takeName_field named]
  simp only [bind, Except.bind, equals, blank, takeValue_braced taken single]
  rfl

theorem takeField_error {name : String} (named : name ∈ fieldNames) {fault : Fault}
    (failed : takeBraced 0 [] inner = .error fault) :
    takeField (name.toList ++ ' ' :: '=' :: ' ' :: '{' :: inner) = .error fault := by
  have equals : takeMark '=' .equals (skipBlanks (' ' :: '=' :: ' ' :: '{' :: inner)) =
      .ok (' ' :: '{' :: inner) := rfl
  have blank : skipBlanks (' ' :: '{' :: inner) = '{' :: inner := rfl
  have value : takeValue ('{' :: inner) = .error fault := by
    rw [takeValue]
    simp [takePart, failed, bind, Except.bind]
  rw [takeField, takeName_field named]
  simp only [bind, Except.bind, equals, blank, value]

end

/-- What may follow the last entry that was read: nothing, or another entry. -/
def AtEntry (rest : List Char) : Prop := rest = [] ∨ ∃ more, rest = '@' :: more

/-- Behind the end of an entry the reader of a value finds nothing that belongs to one. -/
theorem AtEntry.after {rest : List Char} (entry : AtEntry rest) :
    skipBlanks ('\n' :: '\n' :: rest) = rest ∧ rest.head? ≠ some '#' ∧ skipGap rest = rest := by
  rcases entry with rfl | ⟨more, rfl⟩
  · exact ⟨rfl, by simp, rfl⟩
  · exact ⟨rfl, by simp, rfl⟩

/-- The text behind the comma of a key, or behind the comma of a field. -/
def fieldsText (fields : List (String × String)) (rest : List Char) : List Char :=
  '\n' :: (fields.flatMap fieldText ++ '}' :: '\n' :: '\n' :: rest)

theorem fieldsText_cons (field : String × String) (fields : List (String × String))
    (rest : List Char) :
    fieldsText (field :: fields) rest = '\n' :: ' ' :: ' ' :: (field.1.toList ++
      ' ' :: '=' :: ' ' :: '{' :: (field.2.toList ++ '}' :: ',' :: fieldsText fields rest)) := by
  simp [fieldsText, fieldText]

/-- The fields of an entry are read one by one if they are read at all. A value that does not end
where it was written to end takes in the end of its entry, and then no comma follows it. -/
theorem takeFields_fieldsText {rest : List Char} (entry : AtEntry rest) (later : KeepsOpen rest)
    {fields : List (String × String)} (named : ∀ field ∈ fields, field.1 ∈ fieldNames)
    (own : ∀ field ∈ fields, ClosesOwn field.2.toList) {raw : List RawField} {behind : List Char}
    (read : takeFields (fieldsText fields rest) = .ok (raw, behind)) :
    behind = '}' :: '\n' :: '\n' :: rest := by
  induction fields generalizing raw behind with
  | nil =>
    have ends : skipGap (fieldsText [] rest) = '}' :: '\n' :: '\n' :: rest := rfl
    rw [takeFields, ends] at read
    cases read
    rfl
  | cons field fields ih =>
    rw [List.forall_mem_cons] at named own
    obtain ⟨gap, begins⟩ := skipGap_field named.1
      (' ' :: '=' :: ' ' :: '{' :: (field.2.toList ++ '}' :: ',' :: fieldsText fields rest))
    rw [fieldsText_cons, takeFields, gap, begins, if_neg Bool.false_ne_true] at read
    by_cases matching : scan? .start field.2.toList = some .start
    · -- the value ends at the brace that was written behind it
      have comma : skipBlanks (',' :: fieldsText fields rest) = ',' :: fieldsText fields rest := rfl
      have one := takeField_braced named.1
        (takeBraced_of_scan matching (',' :: fieldsText fields rest)) (by simp [comma])
      have gap' : skipGap (',' :: fieldsText fields rest) = ',' :: fieldsText fields rest := rfl
      rw [one, comma, gap'] at read
      simp only [bind, Except.bind] at read
      split_ifs at read with shorter
      · cases more : takeFields (fieldsText fields rest) with
        | error fault => rw [more] at read; cases read
        | ok found =>
          obtain ⟨others, after⟩ := found
          rw [more] at read
          cases read
          exact ih named.2 own.2 more
      · exact absurd (by simp; omega) shorter
    · -- some brace of the value is open, so the brace that ends the entry is taken for its end
      cases taken : takeBraced 0 [] (field.2.toList ++ '}' :: ',' :: fieldsText fields rest) with
      | error fault =>
        rw [takeField_error named.1 taken] at read
        cases read
      | ok found =>
        obtain ⟨text, after⟩ := found
        have gap : KeepsOpen ['\n', '\n'] := keepsOpen_of_not_counting (by simp [Braces.counting])
        have swallowed : after = '\n' :: '\n' :: rest :=
          eq_of_takeBraced_unclosed own.1 matching (keepsOpen_fields named.2 own.2)
            (gap.append later) taken
        obtain ⟨blanks, single, gap'⟩ := entry.after
        subst swallowed
        rw [takeField_braced named.1 taken (by rw [blanks]; exact single), blanks, gap'] at read
        rcases entry with rfl | ⟨more, rfl⟩
        · cases read
        · cases read

/-! ### Entries -/

theorem isBlank_of_isDigit {c : Char} (digit : c.isDigit = true) : Text.isBlank c = false := by
  have bounds : 48 ≤ c.toNat ∧ c.toNat ≤ 57 := by
    simp only [Char.isDigit, Bool.and_eq_true, decide_eq_true_eq, ge_iff_le,
      UInt32.le_iff_toNat_le] at digit
    exact digit
  simp only [Text.isBlank, Bool.or_eq_false_iff, Bool.and_eq_false_iff, decide_eq_false_iff_not,
    beq_eq_false_iff_ne]
  omega

theorem trimmed_key (position : Nat) (reference : Reference) :
    Trimmed (Entry.keyOf position reference).toList := by
  unfold Entry.keyOf
  split
  next id found =>
    obtain ⟨text, solid, rfl⟩ := Option.map_eq_some_iff.mp found
    exact trimmed_trim (by simpa using (Option.filter_eq_some_iff.mp solid).2)
  next =>
    have digits : ∀ c ∈ (Entry.fallbackKey position).toList, Text.isBlank c = false := by
      intro c member
      rw [Entry.fallbackKey, String.toList_append, List.mem_append] at member
      rcases member with letter | digit
      · have letters : ("ref".toList.all fun c => !Text.isBlank c) = true := by decide
        simpa using List.all_eq_true.mp letters c letter
      · exact isBlank_of_isDigit (Text.isDigit_of_mem_repr digit)
    have nonempty : (Entry.fallbackKey position).toList ≠ [] := by
      simp [Entry.fallbackKey]
    exact ⟨nonempty, digits _ (List.head_mem nonempty), digits _ (List.getLast_mem nonempty)⟩

theorem takeBody_key {key rest : List Char} (trimmed : Trimmed key) (clean : ',' ∉ key)
    {kind : String} {start : Nat} {entry : RawEntry} {behind : List Char}
    (read : takeBody kind start (key ++ ',' :: rest) = .ok (entry, behind)) :
    ∃ fields, takeFields rest = .ok (fields, behind) ∧
      entry = ⟨kind, String.ofList key, fields, start, size behind⟩ := by
  have begins : skipBlanks (key ++ ',' :: rest) = key ++ ',' :: rest := by
    have first := trimmed.first
    cases key with
    | nil => exact absurd rfl trimmed.nonempty
    | cons c key => exact List.dropWhile_cons_of_neg (by simpa using first)
  rw [takeBody, begins] at read
  -- the reader takes a key to its first character that no key has
  by_cases solid : ∀ c ∈ key, isKeyChar c = true
  · have left : (key ++ ',' :: rest).dropWhile isKeyChar = ',' :: rest := by
      rw [List.dropWhile_append_of_pos solid]
      rfl
    have taken : (key ++ ',' :: rest).takeWhile isKeyChar = key := by
      rw [List.takeWhile_append_of_pos solid, List.takeWhile_cons_of_neg (by decide),
        List.append_nil]
    have comma : takeMark ',' .comma (skipBlanks (',' :: rest)) = .ok rest := rfl
    rw [left, taken] at read
    simp only [bind, Except.bind, comma] at read
    cases more : takeFields rest with
    | error fault => rw [more] at read; cases read
    | ok found =>
      rw [more] at read
      cases read
      exact ⟨found.1, rfl, rfl⟩
  · -- some character of the key stands in place of the comma
    have back : key.dropWhile isKeyChar ≠ [] := by
      simpa only [ne_eq, List.dropWhile_eq_nil_iff] using solid
    have left : (key ++ ',' :: rest).dropWhile isKeyChar =
        key.dropWhile isKeyChar ++ ',' :: rest := by
      rw [List.dropWhile_append, if_neg (by simpa using back)]
    have last : Text.isBlank ((key.dropWhile isKeyChar).getLast back) = false := by
      rw [(List.dropWhile_suffix isKeyChar).getLast back]
      exact trimmed.last
    have visible : (key.dropWhile isKeyChar).dropWhile Text.isBlank ≠ [] := by
      intro blank
      rw [List.dropWhile_eq_nil_iff] at blank
      exact Bool.false_ne_true (last.symm.trans (blank _ (List.getLast_mem back)))
    obtain ⟨d, ds, shape⟩ := List.exists_cons_of_ne_nil visible
    have blanks : skipBlanks (key.dropWhile isKeyChar ++ ',' :: rest) =
        d :: (ds ++ ',' :: rest) := by
      rw [skipBlanks, List.dropWhile_append, if_neg (by simpa using visible), shape,
        List.cons_append]
    have other : d ≠ ',' := by
      rintro rfl
      have member : ',' ∈ (key.dropWhile isKeyChar).dropWhile Text.isBlank := by
        rw [shape]
        exact List.mem_cons_self
      exact clean ((List.dropWhile_sublist _).subset ((List.dropWhile_sublist _).subset member))
    rw [left, blanks, takeMark, if_neg other] at read
    cases read

/-- The kind of every entry that is written. -/
def articleKind : List Char := ['a', 'r', 't', 'i', 'c', 'l', 'e']

/-- The text behind the sign that begins an entry. -/
def entryText (entry : Entry) (rest : List Char) : List Char :=
  articleKind ++ '{' :: (entry.key.toList ++ ',' :: fieldsText entry.fields rest)

theorem takeEntry_entryText {entry : Entry} (contained : Contained entry)
    (trimmed : Trimmed entry.key.toList) {rest : List Char} (next : AtEntry rest)
    (later : KeepsOpen rest) {raw found : Raw} {start : Nat} {behind : List Char}
    (read : takeEntry raw start (entryText entry rest) = .ok (found, behind)) :
    behind = '\n' :: '\n' :: rest ∧ ∃ one : RawEntry,
      found = { raw with entries := raw.entries ++ [one] } ∧ one.key = entry.key := by
  have kind : takeName (entryText entry rest) =
      .ok ("article", '{' :: (entry.key.toList ++ ',' :: fieldsText entry.fields rest)) :=
    takeName_append (by decide)
      (List.all_eq_true.mp (by decide : articleKind.tail.all isNameChar = true)) (by decide) _
  have brace (inner : List Char) : takeEntryBrace '{' .openingBrace ('{' :: inner) = .ok inner :=
    rfl
  have name : lowerName "article" = "article" := by decide
  rw [takeEntry, kind] at read
  simp only [bind, Except.bind, brace, name] at read
  rw [if_neg (by decide), if_neg (by decide), if_neg (by decide)] at read
  -- the fields end where they were written to end, and with them the entry
  cases body : takeBody "article" start
      (entry.key.toList ++ ',' :: fieldsText entry.fields rest) with
  | error fault => rw [body] at read; cases read
  | ok taken =>
    obtain ⟨one, after⟩ := taken
    obtain ⟨fields, fieldsRead, rfl⟩ := takeBody_key trimmed contained.comma body
    obtain rfl := takeFields_fieldsText next later (fun _ => name_mem_fieldNames)
      contained.values fieldsRead
    rw [body] at read
    have closing : takeEntryBrace '}' .closingBrace ('}' :: '\n' :: '\n' :: rest) =
        .ok ('\n' :: '\n' :: rest) := rfl
    simp only [pure, Except.pure, closing, String.ofList_toList] at read
    cases read
    exact ⟨rfl, _, rfl, rfl⟩

theorem toList_print_eq (entry : Entry) (rest : List Char) :
    entry.print.toList ++ rest = '@' :: entryText entry rest := by
  have kind : "@article".toList = '@' :: articleKind := by decide
  simp [toList_print, kind, entryText, fieldsText]

theorem length_lt_entryText (entry : Entry) (rest : List Char) :
    ('\n' :: '\n' :: rest).length < ('@' :: entryText entry rest).length := by
  simp only [entryText, fieldsText, List.length_append, List.length_cons]
  omega

theorem toList_print_list (entries : List Entry) :
    (print entries).toList = entries.flatMap fun entry => entry.print.toList := by
  simp [print, String.toList_join, List.flatMap_map]

theorem atEntry_print (entries : List Entry) :
    AtEntry (entries.flatMap fun entry => entry.print.toList) := by
  cases entries with
  | nil => exact .inl rfl
  | cons entry entries =>
    rw [List.flatMap_cons, toList_print_eq]
    exact .inr ⟨_, rfl⟩

theorem takeEntries_newline (raw : Raw) (rest : List Char) :
    takeEntries raw ('\n' :: rest) = takeEntries raw rest := by
  rw [takeEntries]
  · decide
  · decide

/-- Entries are read one by one if they are read at all. -/
theorem takeEntries_print {entries : List Entry} (contained : ∀ entry ∈ entries, Contained entry)
    (trimmed : ∀ entry ∈ entries, Trimmed entry.key.toList) {raw found : Raw}
    (read : takeEntries raw (entries.flatMap fun entry => entry.print.toList) = .ok found) :
    found.entries.map RawEntry.key = raw.entries.map RawEntry.key ++ entries.map Entry.key := by
  induction entries generalizing raw with
  | nil =>
    rw [List.flatMap_nil, takeEntries] at read
    cases read
    exact (List.append_nil _).symm
  | cons entry entries ih =>
    rw [List.forall_mem_cons] at contained trimmed
    have later : KeepsOpen (entries.flatMap fun entry => entry.print.toList) :=
      .flatMap fun entry member => (contained.2 entry member).keepsOpen_print
    rw [List.flatMap_cons, toList_print_eq] at read
    rw [takeEntries] at read
    obtain ⟨⟨next, after⟩, first, read⟩ := bind_eq_ok_iff.mp read
    obtain ⟨rfl, one, rfl, key⟩ :=
      takeEntry_entryText contained.1 trimmed.1 (atEntry_print entries) later first
    simp only at read
    rw [if_pos (length_lt_entryText entry _), takeEntries_newline, takeEntries_newline] at read
    rw [ih contained.2 trimmed.2 read]
    simp [key]

/-! ### Records -/

/-- What each item keeps, all of them keep. -/
theorem map_eq_of_mapM {α β γ ε : Type} {f : α → Except ε β} {before : α → γ} {after : β → γ}
    (kept : ∀ item result, f item = .ok result → after result = before item) {items : List α}
    {results : List β} (given : items.mapM f = .ok results) :
    results.map after = items.map before := by
  induction items generalizing results with
  | nil =>
    cases given
    rfl
  | cons item items ih =>
    rw [List.mapM_cons] at given
    obtain ⟨result, first, given⟩ := bind_eq_ok_iff.mp given
    obtain ⟨others, later, given⟩ := bind_eq_ok_iff.mp given
    cases given
    rw [List.map_cons, List.map_cons, kept item result first, ih later]

theorem key_recordOf {strings : List RawField} {entry : RawEntry} {record : Record}
    (read : recordOf strings entry = .ok record) : record.key = entry.key := by
  obtain ⟨fields, -, read⟩ := bind_eq_ok_iff.mp read
  cases read
  rfl

theorem key_inherit {record parent found : Record} (inherits : record.inherit parent = .ok found) :
    found.key = record.key := by
  unfold Record.inherit at inherits
  split_ifs at inherits
  · cases inherits
    rfl
  · obtain ⟨dated, -, inherits⟩ := bind_eq_ok_iff.mp inherits
    split_ifs at inherits <;> cases inherits <;> rfl

/-- A record takes dates from others, and keeps its key. -/
theorem key_withParents {known : List (String × Record)} {length : Nat} {record found : Record}
    (complete : Record.withParents known length record = .ok found) : found.key = record.key := by
  cases length with
  | zero =>
    cases complete
    rfl
  | succ length =>
    rw [Record.withParents] at complete
    generalize record.parents known = parents at complete
    induction parents generalizing record with
    | nil =>
      cases complete
      rfl
    | cons parent parents ih =>
      rw [List.foldlM_cons] at complete
      obtain ⟨next, first, later⟩ := bind_eq_ok_iff.mp complete
      obtain ⟨whole, -, inherits⟩ := bind_eq_ok_iff.mp first
      exact (ih later).trans (key_inherit inherits)

/-- Every record has the key of its entry, and no two have one key. -/
theorem ofEntries_keys {strings : List RawField} {raw : List RawEntry} {records found : Records}
    (known : ∀ record ∈ records.inOrder, record.key ∈ records.known.map Prod.fst)
    (distinct : (records.inOrder.map Record.key).Nodup)
    (read : Records.ofEntries strings records raw = .ok found) :
    found.inOrder.map Record.key = records.inOrder.map Record.key ++ raw.map RawEntry.key ∧
      (found.inOrder.map Record.key).Nodup := by
  induction raw generalizing records with
  | nil =>
    cases read
    exact ⟨(List.append_nil _).symm, distinct⟩
  | cons entry rest ih =>
    rw [Records.ofEntries] at read
    cases old : (records.known.lookup entry.key).isSome with
    | true => rw [old] at read; cases read
    | false =>
      rw [old] at read
      obtain ⟨-, -, read⟩ := bind_eq_ok_iff.mp read
      obtain ⟨record, one, read⟩ := bind_eq_ok_iff.mp read
      have key := key_recordOf one
      -- the entry was let in, so its key is not filed, and every listed key is
      have fresh : record.key ∉ records.inOrder.map Record.key := by
        intro member
        obtain ⟨other, listed, same⟩ := List.mem_map.mp member
        obtain ⟨pair, inside, name⟩ := List.mem_map.mp (known other listed)
        rw [Option.isSome_eq_false_iff, Option.isNone_iff_eq_none, List.lookup_eq_none_iff] at old
        have apart : entry.key ≠ pair.1 := by simpa using old pair inside
        exact apart (name.trans (same.trans key)).symm
      have known' : ∀ one ∈ (records.add record).inOrder,
          one.key ∈ (records.add record).known.map Prod.fst := by
        intro one member
        rw [Records.add, List.map_append, List.map_cons, List.mem_append, List.mem_cons]
        rcases List.mem_append.mp member with before | last
        · exact .inr (.inr (known one before))
        · exact .inr (.inl (congrArg Record.key (List.mem_singleton.mp last)))
      have distinct' : ((records.add record).inOrder.map Record.key).Nodup := by
        rw [Records.add, List.map_append, List.map_singleton]
        exact List.nodup_append.mpr ⟨distinct, by simp, by
          rintro a member b last rfl
          exact fresh (List.mem_singleton.mp last ▸ member)⟩
      obtain ⟨keys, apart⟩ := ih known' distinct' read
      refine ⟨?_, apart⟩
      rw [keys, Records.add, List.map_append, List.map_singleton, key, List.map_cons,
        List.append_assoc, List.singleton_append]

theorem parse_keys {text : String} {records : List Record} (read : parse text = .ok records) :
    ∃ raw, takeEntries {} text.toList = .ok raw ∧
      records.map Record.key = raw.entries.map RawEntry.key ∧
        (records.map Record.key).Nodup := by
  obtain ⟨raw, taken, read⟩ := bind_eq_ok_iff.mp read
  obtain ⟨found, kept, read⟩ := bind_eq_ok_iff.mp read
  have none : ∀ record ∈ ({} : Records).inOrder, record.key ∈ ({} : Records).known.map Prod.fst :=
    fun _ member => nomatch member
  obtain ⟨keys, distinct⟩ := ofEntries_keys none List.nodup_nil kept
  have same : records.map Record.key = found.inOrder.map Record.key := by
    cases complete : found.inOrder.mapM
        (Record.withParents found.known found.known.length) with
    | error misplaced => rw [complete] at read; cases read
    | ok others =>
      rw [complete] at read
      cases read
      exact map_eq_of_mapM (fun _ _ => key_withParents) complete
  rw [same]
  exact ⟨raw, taken, keys, distinct⟩

theorem exists_of_validate {references : List Reference} {n : Nat}
    (accepted : validate references = .ok n) :
    ∃ records, parse (print (entries references)) = .ok records ∧ records.length = n := by
  obtain ⟨records, read, accepted⟩ := bind_eq_ok_iff.mp accepted
  refine ⟨records, ?_, ?_⟩
  · cases found : parse (print (entries references)) with
    | error fault => rw [found] at read; cases read
    | ok others => rw [found] at read; cases read; rfl
  · split_ifs at accepted
    cases accepted
    rfl

/-! ### Main result -/

theorem trimmed_of_mem_entriesFrom {position : Nat} {references : List Reference} {entry : Entry}
    (member : entry ∈ entriesFrom position references) : Trimmed entry.key.toList := by
  induction references generalizing position with
  | nil => cases member
  | cons reference rest ih =>
    rcases List.mem_cons.mp member with rfl | later
    · exact trimmed_key position reference
    · exact ih later

theorem length_entriesFrom (position : Nat) (references : List Reference) :
    (entriesFrom position references).length = references.length := by
  induction references generalizing position with
  | nil => rfl
  | cons reference rest ih => rw [entriesFrom, List.length_cons, ih, List.length_cons]

/-- A check that tells the truth: it counts the references, and what was read has their keys. -/
def Sound (references : List Reference) : Prop :=
  ∀ n, validate references = .ok n → n = references.length ∧
    ∃ records, parse (print (entries references)) = .ok records ∧
      records.map Record.key = (entries references).map Entry.key

theorem sound_of_contained {references : List Reference}
    (contained : ∀ entry ∈ entries references, Contained entry) : Sound references := by
  intro n accepted
  obtain ⟨records, read, rfl⟩ := exists_of_validate accepted
  obtain ⟨raw, taken, keys, -⟩ := parse_keys read
  rw [toList_print_list] at taken
  have same := takeEntries_print contained (fun _ => trimmed_of_mem_entriesFrom) taken
  rw [← keys, List.map_nil, List.nil_append] at same
  refine ⟨?_, records, read, same⟩
  rw [← length_entriesFrom 1 references, ← List.length_map (f := Record.key), same, List.length_map]
  rfl

/-- **The check counts the entries that are read.** Their keys are pairwise different. As long as no
key has a comma, and no key and no value closes a brace that it did not open, they are the entries
of the references, one for each, under its key and in order. -/
theorem validate_counts (references : List Reference) :
    (∀ n, validate references = .ok n →
      ∃ records, parse (print (entries references)) = .ok records ∧ records.length = n ∧
        (records.map Record.key).Nodup) ∧
    ((∀ entry ∈ entries references, Contained entry) → Sound references) := by
  refine ⟨fun n accepted => ?_, sound_of_contained⟩
  obtain ⟨records, read, count⟩ := exists_of_validate accepted
  obtain ⟨-, -, -, distinct⟩ := parse_keys read
  exact ⟨records, read, count, distinct⟩

/-- References whose texts have braces of their own, one behind a backslash. -/
def bracedKeys : List Reference :=
  [⟨some " k\x7b ", .ofList [("ru", "\\\x7d\x7bx\x7d"), ("en", "\x7d")], some "10.1/x", none⟩,
    ⟨none, .empty, none, some "\x7b\x7d"⟩]

theorem validate_counts_braced :
    validate bracedKeys = .ok 2 ∧ (∀ entry ∈ entries bracedKeys, Contained entry) ∧
      (∃ records, parse (print (entries bracedKeys)) = .ok records ∧
        records.map Record.key = ["k\x7b", "ref2"]) ∧
      ∃ records, parse (print (entries bracedKeys)) = .ok records ∧ records.length = 2 ∧
        (records.map Record.key).Nodup := by
  have accepted : validate bracedKeys = .ok 2 := by with_unfolding_all rfl
  have contained : ∀ entry ∈ entries bracedKeys, Contained entry := by
    have parts : ∀ entry ∈ entries bracedKeys, ',' ∉ entry.key.toList ∧
        ClosesOwn entry.key.toList ∧ ∀ field ∈ entry.fields, ClosesOwn field.2.toList := by
      decide
    exact fun entry member => ⟨(parts entry member).1, (parts entry member).2.1,
      (parts entry member).2.2⟩
  obtain ⟨counts, sound⟩ := validate_counts bracedKeys
  exact ⟨accepted, contained, (sound contained 2 accepted).2, counts 2 accepted⟩

/-- A text that closes its field and its entry, and opens another entry. -/
def injectedEntry : List Reference :=
  [⟨some "k", .ofList [("en", "x\x7d,\n\x7d\n@book\x7bb,\n note = \x7by")], none, none⟩]

/-- A key with a comma. -/
def commaKey : List Reference := [⟨some "a,x=1", .ofList [("en", "t")], none, none⟩]

/-- A text that leaves braces open, and a key that closes them. -/
def closingKey : List Reference :=
  [⟨some "k", .ofList [("en", "a\x7b\x7b")], none, none⟩,
    ⟨some "\x7d\x7d\x7d", .ofList [("en", "t")], none, none⟩]

/-- The check accepts databases that hold other entries than those of the references. -/
theorem not_sound_of_foreign_braces :
    (validate injectedEntry = .ok 2 ∧ injectedEntry.length = 1) ∧
      ¬ Sound injectedEntry ∧ ¬ Sound commaKey ∧ ¬ Sound closingKey := by
  have injected : validate injectedEntry = .ok 2 := by with_unfolding_all rfl
  have comma : validate commaKey = .ok 1 := by with_unfolding_all rfl
  have closing : validate closingKey = .ok 1 := by with_unfolding_all rfl
  refine ⟨⟨injected, rfl⟩, fun sound => ?_, fun sound => ?_, fun sound => ?_⟩
  · exact absurd (sound 2 injected).1 (by decide)
  · obtain ⟨-, records, read, keys⟩ := sound 1 comma
    have cut : (parse (print (entries commaKey))).map (·.map Record.key) = .ok ["a"] := by
      with_unfolding_all rfl
    rw [read] at cut
    have same : records.map Record.key = ["a"] := Except.ok.inj cut
    exact absurd (same.symm.trans keys) (by decide)
  · exact absurd (sound 1 closing).1 (by decide)

end Galley.Bibliography
