import Galley.FrontMatter
import Galley.Proofs.Basic
/-!
# Reading front matter

A reader that knows what quotes, indentation and keys mean, and not how a preamble is made. It reads
the lines between the dashes as entries, each a key with a value and perhaps a block of lines, and
the values as texts in double quotes, lists of these, and numbers.

Entries read back from their lines (`entries?_lines`), texts from their quoted form
(`text?_quoted`).
-/
namespace Galley.FrontMatter

/-! ### Quoted values -/

/-- A text in double quotes, or a character outside of quotes. -/
inductive Token where
  | text (shown : List Char)
  | mark (c : Char)
deriving DecidableEq, Repr

/-- Where the reader of a value is, with the text between quotes so far, backwards. -/
inductive Quoting where
  | outside
  | inside (read : List Char)
  | escape (read : List Char)

/-- Cuts a value at its quotes and undoes the escapes between them. -/
def tokens : Quoting → List Char → Option (List Token)
  | .outside, [] => some []
  | .inside _, [] | .escape _, [] => none
  | .outside, c :: rest =>
    if c = '"' then tokens (.inside []) rest
    else (tokens .outside rest).map (.mark c :: ·)
  | .inside read, c :: rest =>
    if c = '"' then (tokens .outside rest).map (.text read.reverse :: ·)
    else if c = '\\' then tokens (.escape read) rest
    else tokens (.inside (c :: read)) rest
  | .escape read, c :: rest =>
    if c = '\\' ∨ c = '"' then tokens (.inside (c :: read)) rest else none

/-- The text of a value that is nothing but a text in quotes. -/
def text? (value : List Char) : Option String :=
  match tokens .outside value with
  | some [.text shown] => some (String.ofList shown)
  | _ => none

/-- The texts of a list after its opening bracket. -/
def items? : List Token → Option (List String)
  | [.text shown, .mark ']'] => some [String.ofList shown]
  | .text shown :: .mark ',' :: .mark ' ' :: rest => (items? rest).map (String.ofList shown :: ·)
  | _ => none

/-- The texts of a value that is a list of texts in quotes. -/
def texts? (value : List Char) : Option (List String) :=
  match tokens .outside value with
  | some (.mark '[' :: rest) => items? rest
  | _ => none

/-- A text with one blank for every line break: a carriage return with a line feed, or either. -/
def unbroken : List Char → List Char
  | [] => []
  | '\r' :: '\n' :: rest => ' ' :: unbroken rest
  | c :: rest => (if c = '\n' ∨ c = '\r' then ' ' else c) :: unbroken rest

def oneLine (text : String) : String := String.ofList (unbroken text.toList)

private theorem tokens_escapeQuoted (text read rest : List Char) :
    tokens (.inside read) (escapeQuoted text ++ '"' :: rest) =
      (tokens .outside rest).map (.text (read.reverse ++ unbroken text) :: ·) := by
  -- the cases of the escaping: end, line break of two characters, the two escapes, line break of
  -- one character, any other character
  induction text using escapeQuoted.induct generalizing read with
  | case1 => simp [escapeQuoted, unbroken, tokens]
  | case2 text ih => simp [escapeQuoted, unbroken, tokens, ih]
  | case3 text _ ih | case4 text _ _ ih => simp [escapeQuoted, unbroken, tokens, ih]
  | case5 c text lone backslash quote broken ih =>
    rw [escapeQuoted, unbroken]
    · simp [backslash, quote, broken, tokens, ih]
    · exact lone
    · exact lone
  | case6 c text lone backslash quote whole ih =>
    rw [escapeQuoted, unbroken]
    · simp [backslash, quote, whole, tokens, ih]
    · exact lone
    · exact lone

/-- A quoted value in front of anything else is read as its text on one line. -/
theorem tokens_quoted (text : String) (rest : List Char) :
    tokens .outside ((quoted text).toList ++ rest) =
      (tokens .outside rest).map (.text (unbroken text.toList) :: ·) := by
  rw [quoted, String.toList_ofList, List.append_assoc, List.cons_append, tokens, if_pos rfl]
  exact tokens_escapeQuoted text.toList [] rest

theorem text?_quoted (text : String) : text? (quoted text).toList = some (oneLine text) := by
  have read := tokens_quoted text []
  rw [List.append_nil] at read
  rw [text?, read]
  rfl

/-- The texts of a list and its closing bracket. -/
private theorem items?_joinWith (first : String) (others : List String) :
    ∃ found, tokens .outside
        ((Text.joinWith ", " ((first :: others).map quoted)).toList ++ [']']) = some found ∧
      items? found = some ((first :: others).map oneLine) := by
  induction others generalizing first with
  | nil =>
    refine ⟨[.text (unbroken first.toList), .mark ']'], ?_, rfl⟩
    simp only [Text.joinWith, List.map_cons, List.map_nil, String.intercalate_singleton]
    rw [tokens_quoted]
    rfl
  | cons second others ih =>
    obtain ⟨found, read, items⟩ := ih second
    refine ⟨.text (unbroken first.toList) :: .mark ',' :: .mark ' ' :: found, ?_, ?_⟩
    · simp only [Text.joinWith, List.map_cons, String.intercalate_cons_cons, String.toList_append,
        List.append_assoc] at read ⊢
      generalize (", ".intercalate (quoted second :: others.map quoted)).toList = following
        at read ⊢
      rw [tokens_quoted]
      simp [tokens, read]
    · rw [items?, items]
      rfl

theorem texts?_joinWith {items : List String} (nonempty : items ≠ []) :
    texts? ("[" ++ Text.joinWith ", " (items.map quoted) ++ "]").toList =
      some (items.map oneLine) := by
  obtain ⟨first, others, rfl⟩ := List.exists_cons_of_ne_nil nonempty
  obtain ⟨found, read, shown⟩ := items?_joinWith first others
  have opened : tokens .outside
      ("[" ++ Text.joinWith ", " ((first :: others).map quoted) ++ "]").toList =
        some (.mark '[' :: found) := by
    rw [String.toList_append, String.toList_append]
    generalize (Text.joinWith ", " ((first :: others).map quoted)).toList = listed at read ⊢
    simp [tokens, read]
  rw [texts?, opened]
  exact shown

/-! ### Entries -/

/-- What stands behind a key: its value and the lines of its block. -/
structure Content where
  value : List Char
  block : List (List Char)
deriving DecidableEq, Repr

/-- The characters of keys. -/
def isKeyChar (c : Char) : Bool := c.isLower || c == '-'

/-- The key in column zero and the value of a line. -/
def pair? (line : List Char) : Option (String × List Char) :=
  match line.dropWhile isKeyChar with
  | ':' :: ' ' :: value =>
    let key := line.takeWhile isKeyChar
    if key = [] then none else some (String.ofList key, value)
  | _ => none

/-- Reads lines from the last one on. Lines that are two blanks in wait for the line above them,
which has to announce them. -/
def scan : List (List Char) → Option (List (List Char) × List (String × Content))
  | [] => some ([], [])
  | line :: rest =>
    (scan rest).bind fun (block, entries) =>
      if "  ".toList <+: line then some (line.drop 2 :: block, entries)
      else (pair? line).bind fun (key, value) =>
        if block = [] ∨ (key = "abstract" ∧ value = "|2".toList) then
          some ([], (key, ⟨value, block⟩) :: entries)
        else none

/-- The entries of lines. -/
def entries? (lines : List (List Char)) : Option (List (String × Content)) :=
  match scan lines with
  | some ([], entries) => some entries
  | _ => none

/-- The lines of an entry. -/
def Content.lines (key : String) (content : Content) : List (List Char) :=
  (key.toList ++ ':' :: ' ' :: content.value) :: content.block.map ("  ".toList ++ ·)

/-- An entry whose key is one, and that has a block only where one is announced. -/
structure Content.Formed (key : String) (content : Content) : Prop where
  named : key ≠ ""
  chars : key.toList.all isKeyChar = true
  announced : content.block ≠ [] → key = "abstract" ∧ content.value = "|2".toList

private theorem pair?_line {key : String} (named : key ≠ "")
    (chars : key.toList.all isKeyChar = true) (value : List Char) :
    pair? (key.toList ++ ':' :: ' ' :: value) = some (key, value) := by
  rw [List.all_eq_true] at chars
  have taken : (key.toList ++ ':' :: ' ' :: value).takeWhile isKeyChar = key.toList := by
    rw [List.takeWhile_append_of_pos chars, List.takeWhile_cons_of_neg (by decide), List.append_nil]
  have left : (key.toList ++ ':' :: ' ' :: value).dropWhile isKeyChar = ':' :: ' ' :: value := by
    rw [List.dropWhile_append_of_pos chars, List.dropWhile_cons_of_neg (by decide)]
  have nonempty : key.toList ≠ [] := fun empty => named (String.toList_eq_nil_iff.mp empty)
  rw [pair?, left]
  simp only [taken]
  rw [if_neg nonempty, String.ofList_toList]

private theorem scan_block (block lines : List (List Char)) :
    scan (block.map ("  ".toList ++ ·) ++ lines) =
      (scan lines).map fun (waiting, entries) => (block ++ waiting, entries) := by
  induction block with
  | nil => simp
  | cons line block ih =>
    rw [List.map_cons, List.cons_append, scan, ih, Option.bind_map]
    cases scan lines with
    | none => rfl
    | some read => simp

theorem Content.Formed.unindented {key : String} {content : Content} (formed : content.Formed key) :
    ¬ "  ".toList <+: key.toList ++ ':' :: ' ' :: content.value := by
  intro indented
  -- a blank would have to be the first character of the key
  have chars := List.all_eq_true.mp formed.chars
  cases written : key.toList with
  | nil => exact formed.named (String.toList_eq_nil_iff.mp written)
  | cons c rest =>
    rw [written, List.cons_append] at indented
    rw [written] at chars
    have blank : ' ' = c := (List.cons_prefix_cons.mp indented).1
    subst blank
    exact absurd (chars ' ' List.mem_cons_self) (by decide)

private theorem scan_entry {key : String} {content : Content} (formed : content.Formed key)
    {rest : List (List Char)} {entries : List (String × Content)}
    (read : scan rest = some ([], entries)) :
    scan (content.lines key ++ rest) = some ([], (key, content) :: entries) := by
  have announced : content.block = [] ∨ (key = "abstract" ∧ content.value = "|2".toList) := by
    by_cases empty : content.block = []
    · exact Or.inl empty
    · exact Or.inr (formed.announced empty)
  rw [Content.lines, List.cons_append, scan, scan_block, read, Option.map_some, Option.bind_some]
  simp only [List.append_nil]
  rw [if_neg formed.unindented, pair?_line formed.named formed.chars, Option.bind_some,
    if_pos announced]

/-- Entries read back from their lines. -/
theorem entries?_lines {entries : List (String × Content)}
    (formed : ∀ entry ∈ entries, entry.2.Formed entry.1) :
    entries? (entries.flatMap fun entry => entry.2.lines entry.1) = some entries := by
  have read : scan (entries.flatMap fun entry => entry.2.lines entry.1) = some ([], entries) := by
    induction entries with
    | nil => rfl
    | cons entry entries ih =>
      rw [List.forall_mem_cons] at formed
      exact scan_entry formed.1 (ih formed.2)
  rw [entries?, read]

/-- One step of the reader: it sets a line aside for the line above, or has an entry. -/
private theorem scan_cons {line : List Char} {rest : List (List Char)}
    {read : List (List Char) × List (String × Content)}
    (scanned : scan (line :: rest) = some read) :
    ∃ block entries, scan rest = some (block, entries) ∧
      ("  ".toList <+: line ∧ read = (line.drop 2 :: block, entries) ∨
        ¬ "  ".toList <+: line ∧ ∃ key value, pair? line = some (key, value) ∧
          read = ([], (key, ⟨value, block⟩) :: entries)) := by
  rw [scan] at scanned
  obtain ⟨⟨block, entries⟩, below, here⟩ := Option.bind_eq_some_iff.mp scanned
  refine ⟨block, entries, below, ?_⟩
  by_cases indented : "  ".toList <+: line
  · simp only [if_pos indented] at here
    exact Or.inl ⟨indented, (Option.some.inj here).symm⟩
  · simp only [if_neg indented] at here
    obtain ⟨⟨key, value⟩, cut, here⟩ := Option.bind_eq_some_iff.mp here
    split at here
    · exact Or.inr ⟨indented, key, value, cut, (Option.some.inj here).symm⟩
    · cases here

private theorem scan_of_entries? {lines : List (List Char)} {entries : List (String × Content)}
    (read : entries? lines = some entries) : scan lines = some ([], entries) := by
  rw [entries?] at read
  split at read
  next found scanned => rw [scanned, Option.some.inj read]
  · cases read

private theorem pair?_of_scan {lines : List (List Char)}
    {read : List (List Char) × List (String × Content)} (scanned : scan lines = some read)
    {line : List Char} (member : line ∈ lines) (unindented : ¬ "  ".toList <+: line) :
    ∃ entry ∈ read.2, pair? line = some (entry.1, entry.2.value) := by
  induction lines generalizing read with
  | nil => cases member
  | cons first rest ih =>
    obtain ⟨block, entries, below, ⟨indented, rfl⟩ | ⟨-, key, value, cut, rfl⟩⟩ := scan_cons scanned
    · rcases List.mem_cons.mp member with rfl | member
      · exact absurd indented unindented
      · have later := ih below member
        exact later
    · rcases List.mem_cons.mp member with rfl | member
      · exact ⟨_, List.mem_cons_self, cut⟩
      · obtain ⟨entry, inside, shown⟩ := ih below member
        exact ⟨entry, List.mem_cons_of_mem _ inside, shown⟩

/-- A line that is not indented is the first of an entry. -/
theorem pair?_of_entries? {lines : List (List Char)} {entries : List (String × Content)}
    (read : entries? lines = some entries) {line : List Char} (member : line ∈ lines)
    (unindented : ¬ "  ".toList <+: line) :
    ∃ entry ∈ entries, pair? line = some (entry.1, entry.2.value) :=
  pair?_of_scan (scan_of_entries? read) member unindented

/-- The number of lines that are not two blanks in. -/
def unindented (lines : List (List Char)) : Nat :=
  lines.countP fun line => ¬ "  ".toList <+: line

private theorem length_of_scan {lines : List (List Char)}
    {read : List (List Char) × List (String × Content)} (scanned : scan lines = some read) :
    read.2.length = unindented lines := by
  induction lines generalizing read with
  | nil =>
    obtain rfl := Option.some.inj scanned
    rfl
  | cons first rest ih =>
    obtain ⟨block, entries, below, ⟨indented, rfl⟩ | ⟨column, key, value, -, rfl⟩⟩ :=
      scan_cons scanned
    · rw [unindented, List.countP_cons_of_neg (by simpa using indented), ← unindented, ← ih below]
    · rw [unindented, List.countP_cons_of_pos (by simpa using column), ← unindented, ← ih below,
        List.length_cons]

/-- There are as many entries as lines that are not indented. -/
theorem length_of_entries? {lines : List (List Char)} {entries : List (String × Content)}
    (read : entries? lines = some entries) :
    entries.length = unindented lines :=
  length_of_scan (scan_of_entries? read)

/-- A line of dashes is not read as part of an entry. -/
theorem fence_not_mem_of_entries? {lines : List (List Char)} {entries : List (String × Content)}
    (read : entries? lines = some entries) : fence.toList ∉ lines := by
  intro member
  obtain ⟨entry, -, cut⟩ := pair?_of_entries? read member (by decide)
  -- dashes may stand in a key, but no colon follows them here
  have dashes : pair? fence.toList = none := by decide
  cases dashes.symm.trans cut

/-! ### Preambles -/

/-- What a preamble says about an article. -/
structure Preamble where
  title : Option String
  abstract : Option (List String)
  keywords : Option (List String)
  doi : Option String
  firstPage : Option Nat
  lastPage : Option Nat
  lang : String
deriving DecidableEq, Repr

/-- The content of a key that may be missing, but has to be readable if it is there. -/
def optional? {α : Type} (entries : List (String × Content)) (key : String)
    (read : Content → Option α) : Option (Option α) :=
  match entries.lookup key with
  | some content => (read content).map some
  | none => some none

/-- The lines of a block that is announced with its indentation. -/
def block? (content : Content) : Option (List String) :=
  if content.value = "|2".toList then some (content.block.map String.ofList) else none

def Preamble.read? (entries : List (String × Content)) : Option Preamble := do
  let title ← optional? entries "title" (text? ·.value)
  let abstract ← optional? entries "abstract" block?
  let keywords ← optional? entries "keywords" (texts? ·.value)
  let doi ← optional? entries "doi" (text? ·.value)
  let firstPage ← optional? entries "first-page" (Text.number? ·.value)
  let lastPage ← optional? entries "last-page" (Text.number? ·.value)
  let lang ← entries.lookup "lang"
  return { title, abstract, keywords, doi, firstPage, lastPage, lang := String.ofList lang.value }

end Galley.FrontMatter
