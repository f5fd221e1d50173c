import Galley.Proofs.Basic
import Galley.Proofs.Markup.Spelling
/-!
# Well-formed documents

The grammar of XML 1.0, as far as documents go that declare their version and their type and have
neither comments nor processing instructions, sections of raw characters or declarations of their
own. The productions do not repeat that a document consists of characters that are allowed; that is
asked of the whole text at once (`WellFormed`).

## Main result

`element_spelling`: an element whose tags have names, none with the same attribute twice, is
spelled as the grammar wants it, whatever its texts and values are.

What characters markup has is a matter of the texts in it (`Legal`, with one lemma for each way to
put markup together).
-/
namespace Galley.Markup.Xml

/-! ### Characters and names -/

/-- The characters of documents: tab, line feed, carriage return, and from the blank on all but two
that are no characters. Surrogates are no characters to begin with. -/
def IsChar (c : Char) : Prop :=
  c = '\t' ∨ c = '\n' ∨ c = '\r' ∨ (0x20 ≤ c.toNat ∧ c.toNat ≠ 0xFFFE ∧ c.toNat ≠ 0xFFFF)

instance (c : Char) : Decidable (IsChar c) := inferInstanceAs (Decidable (_ ∨ _))

def isSpace (c : Char) : Bool := c == ' ' || c == '\t' || c == '\n' || c == '\r'

/-- The first and the last characters of ranges. -/
abbrev Ranges := List (Nat × Nat)

def Ranges.has (ranges : Ranges) (c : Char) : Bool :=
  ranges.any fun range => range.1 ≤ c.toNat && c.toNat ≤ range.2

/-- The characters that a name starts with. -/
def nameStarts : Ranges :=
  [(0x3A, 0x3A), (0x41, 0x5A), (0x5F, 0x5F), (0x61, 0x7A), (0xC0, 0xD6), (0xD8, 0xF6),
    (0xF8, 0x2FF), (0x370, 0x37D), (0x37F, 0x1FFF), (0x200C, 0x200D), (0x2070, 0x218F),
    (0x2C00, 0x2FEF), (0x3001, 0xD7FF), (0xF900, 0xFDCF), (0xFDF0, 0xFFFD), (0x10000, 0xEFFFF)]

/-- The characters that a name may have after its first. -/
def nameChars : Ranges :=
  nameStarts ++ [(0x2D, 0x2E), (0x30, 0x39), (0xB7, 0xB7), (0x300, 0x36F), (0x203F, 0x2040)]

def isName (name : String) : Bool :=
  name.toList.head?.any nameStarts.has && name.toList.all nameChars.has

/-! ### Elements -/

/-- A reference to a character by its number, or to one of the five that have a name. -/
inductive Reference : List Char → Prop
  | number {digits : List Char} {c : Char} (stands : Text.number? digits = some c.toNat)
      (char : IsChar c) : Reference ('&' :: '#' :: (digits ++ [';']))
  | named {name : List Char}
      (known : name ∈ ["amp", "lt", "gt", "apos", "quot"].map String.toList) :
      Reference ('&' :: (name ++ [';']))

/-- What stands between the quotes of an attribute. -/
inductive Value (quote : Char) : List Char → Prop
  | nil : Value quote []
  | char {c : Char} {rest : List Char} (opens : c ≠ '<') (refers : c ≠ '&') (ends : c ≠ quote)
      (later : Value quote rest) : Value quote (c :: rest)
  | reference {written rest : List Char} (reference : Reference written)
      (later : Value quote rest) : Value quote (written ++ rest)

/-- The attributes with these names, each with the blanks before it. -/
inductive Attributes : List String → List Char → Prop
  | nil : Attributes [] []
  | cons {name : String} {names : List String} {space value rest : List Char} {quote : Char}
      (apart : space ≠ []) (blank : space.all isSpace = true) (named : isName name = true)
      (quoted : quote ∈ ['"', '\x27']) (valued : Value quote value)
      (later : Attributes names rest) :
      Attributes (name :: names)
        (space ++ name.toList ++ '=' :: quote :: (value ++ quote :: rest))

/-- What an opening tag has between its brackets. No attribute stands there twice. -/
inductive Start (name : String) : List Char → Prop
  | mk {names : List String} {attributes space : List Char} (named : isName name = true)
      (attributed : Attributes names attributes) (distinct : names.Nodup)
      (blank : space.all isSpace = true) : Start name (name.toList ++ attributes ++ space)

mutual

inductive Element : List Char → Prop
  | empty {name : String} {start : List Char} (started : Start name start) :
      Element (bracketed (start ++ ['/']))
  | filled {name : String} {start content space : List Char} (started : Start name start)
      (inner : Content content) (blank : space.all isSpace = true) :
      Element (bracketed start ++ content ++ bracketed ('/' :: name.toList ++ space))

/-- What stands between the tags of an element. -/
inductive Content : List Char → Prop
  | nil : Content []
  | char {c : Char} {rest : List Char} (opens : c ≠ '<') (refers : c ≠ '&')
      (plain : ¬ "]]>".toList <+: c :: rest) (later : Content rest) : Content (c :: rest)
  | reference {written rest : List Char} (reference : Reference written) (later : Content rest) :
      Content (written ++ rest)
  | element {written rest : List Char} (element : Element written) (later : Content rest) :
      Content (written ++ rest)

end

/-! ### Documents -/

/-- The declaration of the version and of the encoding. -/
inductive VersionDeclaration : List Char → Prop
  | mk {minor encoding : List Char} (numbered : (Text.number? minor).isSome)
      (named : encoding.head?.any Char.isAlpha = true)
      (chars : (encoding.all fun c => c.isAlphanum || c == '.' || c == '_' || c == '-') = true) :
      VersionDeclaration (bracketed ("?xml version=\"1.".toList ++ minor ++
        "\" encoding=\"".toList ++ encoding ++ "\"?".toList))

/-- The characters of public identifiers. -/
def isPublicChar (c : Char) : Bool :=
  c.isAlphanum || " \r\n-\x27()+,./:=?;!*#@$_%".toList.contains c

/-- The declaration of a type that has a public identifier. -/
inductive TypeDeclaration : List Char → Prop
  | mk {name : String} {identifier system : List Char} (named : isName name = true)
      (chars : identifier.all isPublicChar = true) (quoted : '"' ∉ system) :
      TypeDeclaration (bracketed ("!DOCTYPE ".toList ++ name.toList ++ " PUBLIC \"".toList ++
        identifier ++ "\" \"".toList ++ system ++ ['"']))

inductive Document : List Char → Prop
  | mk {version type element before after : List Char} (versioned : VersionDeclaration version)
      (blank : before.all isSpace = true) (typed : TypeDeclaration type)
      (space : after.all isSpace = true) (root : Element element) :
      Document (version ++ before ++ type ++ after ++ element)

structure WellFormed (text : List Char) : Prop where
  chars : ∀ c ∈ text, IsChar c
  document : Document text

/-! ### Spelled elements -/

private theorem reference_or_plain (c : Char) :
    Reference (numericReference c) ∨
      (numericReference c = [c] ∧ c ∉ ['&', '<', '>', '"', '\x27']) := by
  have number (digits : List Char) (d : Char) (stands : Text.number? digits = some d.toNat)
      (char : IsChar d) : Reference ('&' :: '#' :: (digits ++ [';'])) := .number stands char
  by_cases markup : c ∈ ['&', '<', '>', '"', '\x27']
  · left
    simp only [List.mem_cons, List.not_mem_nil, or_false] at markup
    rcases markup with rfl | rfl | rfl | rfl | rfl
    · exact number "38".toList '&' (by decide) (by decide)
    · exact number "60".toList '<' (by decide) (by decide)
    · exact number "62".toList '>' (by decide) (by decide)
    · exact number "34".toList '"' (by decide) (by decide)
    · exact number "39".toList '\x27' (by decide) (by decide)
  · right
    refine ⟨?_, markup⟩
    simp only [List.mem_cons, List.not_mem_nil, or_false, not_or] at markup
    simp [numericReference, markup]

theorem value_numeric (text : List Char) : Value '"' (text.flatMap numericReference) := by
  induction text with
  | nil => exact .nil
  | cons c rest ih =>
    rw [List.flatMap_cons]
    rcases reference_or_plain c with reference | ⟨written, plain⟩
    · exact .reference reference ih
    · simp only [List.mem_cons, List.not_mem_nil, or_false, not_or] at plain
      rw [written]
      exact .char plain.2.1 plain.1 plain.2.2.2.1 ih

theorem attributes_spelling {attributes : List (String × String)}
    (named : ∀ a ∈ attributes, isName a.1 = true) :
    Attributes (attributes.map Prod.fst) (attributes.flatMap attributeSpelling) := by
  induction attributes with
  | nil => exact .nil
  | cons a rest ih =>
    rw [List.forall_mem_cons] at named
    have all : Attributes (a.1 :: rest.map Prod.fst)
        ([' '] ++ a.1.toList ++ '=' :: '"' :: (a.2.toList.flatMap numericReference ++
          '"' :: rest.flatMap attributeSpelling)) :=
      .cons (by simp) (by decide) named.1 (by simp) (value_numeric a.2.toList) (ih named.2)
    simpa [attributeSpelling] using all

/-- An opening tag with names, and with no attribute twice. -/
def IsStart : Tag → Prop
  | .opening name attributes =>
    isName name = true ∧ (∀ a ∈ attributes, isName a.1 = true) ∧ (attributes.map Prod.fst).Nodup
  | .closing _ | .declaration _ => False

theorem start_spelling {name : String} {attributes : List (String × String)}
    (start : IsStart (.opening name attributes)) :
    Start name (Tag.opening name attributes).spelling := by
  have whole : Start name (name.toList ++ attributes.flatMap attributeSpelling ++ []) :=
    .mk start.1 (attributes_spelling start.2.1) start.2.2 rfl
  rwa [List.append_nil] at whole

theorem element_of_content {name : String} {attributes : List (String × String)}
    {content : List Node} (start : IsStart (.opening name attributes))
    (inner : Content (spelling content)) :
    Element (Node.element name attributes content).spelling := by
  have whole : Element (bracketed (Tag.opening name attributes).spelling ++ spelling content ++
      bracketed ('/' :: name.toList ++ [])) :=
    .filled (start_spelling start) inner rfl
  rwa [List.append_nil] at whole

private theorem Reference.head {written : List Char} (reference : Reference written) :
    ∃ rest, written = '&' :: rest := by
  cases reference <;> exact ⟨_, rfl⟩

/-- A character that a spelling starts with, outside of tags and references, stands for itself. -/
private theorem of_spelling_eq_cons {nodes : List Node} {c : Char} {rest : List Char}
    (same : spelling nodes = c :: rest) (opens : c ≠ '<') (refers : c ≠ '&') :
    c ∉ ['&', '<', '>', '"', '\x27'] ∧ ∃ more, rest = spelling more := by
  cases nodes with
  | nil => cases same
  | cons node more =>
    cases node with
    | element name attributes content => exact absurd (List.cons.inj same).1.symm opens
    | declaration inside => exact absurd (List.cons.inj same).1.symm opens
    | char d =>
      rw [spelling, Node.spelling] at same
      rcases reference_or_plain d with reference | ⟨written, plain⟩
      · obtain ⟨others, written⟩ := reference.head
        rw [written] at same
        exact absurd (List.cons.inj same).1.symm refers
      · rw [written] at same
        obtain ⟨rfl, rfl⟩ := List.cons.inj same
        exact ⟨plain, more, rfl⟩

/-- The mark that ends raw characters does not come up, since its bracket would be a reference. -/
private theorem no_mark_ahead (c : Char) (nodes : List Node) :
    ¬ "]]>".toList <+: c :: spelling nodes := by
  rintro ⟨rest, same⟩
  obtain ⟨more, below⟩ := (of_spelling_eq_cons (List.cons.inj same).2.symm (by decide)
    (by decide)).2
  have bracket := (of_spelling_eq_cons below.symm (by decide) (by decide)).1
  exact bracket (by decide)

/-- Nodes whose tags have names are spelled as the content of an element. -/
theorem content_spelling (nodes : List Node) (starts : ∀ tag ∈ tagsOf nodes, IsStart tag) :
    Content (spelling nodes) := by
  match nodes with
  | [] => exact .nil
  | .char c :: rest =>
    have later := content_spelling rest fun tag member =>
      starts tag (by simpa [tagsOf, Node.tags] using member)
    rw [spelling, Node.spelling]
    rcases reference_or_plain c with reference | ⟨written, plain⟩
    · exact .reference reference later
    · simp only [List.mem_cons, List.not_mem_nil, or_false, not_or] at plain
      rw [written]
      exact .char plain.2.1 plain.1 (no_mark_ahead c rest) later
  | .declaration inside :: rest => exact absurd (starts (.declaration inside) (by simp)) id
  | .element name attributes content :: rest =>
    simp only [tagsOf_cons_element, List.forall_mem_cons, List.forall_mem_append] at starts
    have inner := content_spelling content starts.2.1
    have later := content_spelling rest starts.2.2
    exact .element (element_of_content starts.1 inner) later

/-- An element whose tags have names is spelled as one. -/
theorem element_spelling {name : String} {attributes : List (String × String)}
    {content : List Node}
    (starts : ∀ tag ∈ tagsOf [.element name attributes content], IsStart tag) :
    Element (Node.element name attributes content).spelling := by
  simp only [tagsOf_cons_element, List.forall_mem_cons, List.forall_mem_append] at starts
  exact element_of_content starts.1 (content_spelling content starts.2.1)

/-! ### Characters of printed items -/

/-- A text of characters that documents may have. -/
def Allowed (text : String) : Prop := ∀ c ∈ text.toList, IsChar c

instance (text : String) : Decidable (Allowed text) := List.decidableBAll _ _

/-- References are characters that documents may have, and stand for such characters only. -/
private theorem allowed_written (text : String) :
    (∀ c ∈ text.toList.flatMap Escaping.numeric.char, IsChar c) ↔ Allowed text := by
  have each (c : Char) : (∀ d ∈ numericReference c, IsChar d) ↔ IsChar c := by
    by_cases markup : c ∈ numericReferences.map Prod.snd
    · have legal : ∀ entry ∈ numericReferences, IsChar entry.2 ∧
          (numericReference entry.2).all (fun d => decide (IsChar d)) = true := by
        decide
      obtain ⟨entry, listed, rfl⟩ := List.mem_map.mp markup
      obtain ⟨char, written⟩ := legal entry listed
      exact iff_of_true (by simpa using written) char
    · simp only [numericReferences, List.map_cons, List.map_nil, List.mem_cons, List.not_mem_nil,
        or_false, not_or] at markup
      simp [numericReference, markup]
  rw [List.forall_mem_flatMap]
  exact forall₂_congr fun c _ => each c

/-- Markup of characters that documents may have. -/
def Legal (items : List Item) : Prop := ∀ c ∈ (print items).toList, IsChar c

@[simp] theorem legal_nil : Legal [] := by
  simp [Legal, print]

@[simp] theorem legal_append (first second : List Item) :
    Legal (first ++ second) ↔ Legal first ∧ Legal second := by
  simp [Legal, or_imp, forall_and]

@[simp] theorem legal_cons (item : Item) (rest : List Item) :
    Legal (item :: rest) ↔ Allowed item.print ∧ Legal rest := by
  simp [Legal, Allowed, toList_print, or_imp, forall_and]

@[simp] theorem legal_flatMap {α : Type} (values : List α) (items : α → List Item) :
    Legal (values.flatMap items) ↔ ∀ v ∈ values, Legal (items v) := by
  induction values with
  | nil => simp
  | cons v rest ih => simp [ih]

@[simp] theorem allowed_append (first second : String) :
    Allowed (first ++ second) ↔ Allowed first ∧ Allowed second := by
  simp [Allowed, or_imp, forall_and]

@[simp] theorem allowed_numbered (text : String) :
    Allowed (Item.numbered text).print ↔ Allowed text := by
  refine Iff.trans ?_ (allowed_written text)
  simp [Allowed, Item.numbered, Item.print, Data.print]

@[simp] theorem allowed_fixed (name text : String) :
    Allowed (Attribute.fixed name text).print ↔ Allowed name ∧ Allowed text := by
  have marks : Allowed " " ∧ Allowed "=\"" ∧ Allowed "\"" := by decide
  simp [Attribute.fixed, Attribute.valued, Attribute.print, Data.print, Escaping.apply,
    flatMap_verbatim, marks]

@[simp] theorem allowed_valued (name text : String) :
    Allowed (Attribute.valued name .numeric text).print ↔ Allowed name ∧ Allowed text := by
  have marks : Allowed " " ∧ Allowed "=\"" ∧ Allowed "\"" := by decide
  have written : Allowed (Escaping.numeric.apply text) ↔ Allowed text := by
    rw [Allowed, toList_apply]
    exact allowed_written text
  simp [Attribute.valued, Attribute.print, Data.print, written, marks]

@[simp] theorem allowed_opening (name : String) (attributes : List Attribute) :
    Allowed (Item.opening name attributes).print ↔
      Allowed name ∧ ∀ a ∈ attributes, Allowed a.print := by
  have marks : Allowed "<" ∧ Allowed ">" := by decide
  have joined : Allowed (String.join (attributes.map Attribute.print)) ↔
      ∀ a ∈ attributes, Allowed a.print := by
    simp only [Allowed, String.toList_join, List.flatMap_map, List.forall_mem_flatMap]
  simp [Item.print, joined, marks]

@[simp] theorem allowed_start (name : String) :
    Allowed (Item.start name).print ↔ Allowed name := by
  simp [Item.start]

@[simp] theorem allowed_closing (name : String) :
    Allowed (Item.closing name).print ↔ Allowed name := by
  have marks : Allowed "</" ∧ Allowed ">" := by decide
  simp [Item.print, marks]

@[simp] theorem allowed_repr (n : Nat) : Allowed n.repr := by
  intro c member
  have digit : c.isDigit = true := Text.isDigit_of_mem_repr member
  simp only [Char.isDigit, Bool.and_eq_true, decide_eq_true_eq, UInt32.le_iff_toNat_le] at digit
  have first : '0'.val.toNat = 48 := rfl
  have last : '9'.val.toNat = 57 := rfl
  have number : c.toNat = c.val.toNat := rfl
  exact Or.inr (Or.inr (Or.inr (by omega)))

end Galley.Markup.Xml
