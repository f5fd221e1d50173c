import Galley.Text.Blank
import Galley.Text.Lines
/-!
# Cutting and trimming

Cutting undoes putting a separator behind pieces that do not contain it. What cutting and trimming
take away is gone behind a filter that does not let it through. A text whose lines end in line feeds
has more lines for a reader that ends them at carriage returns as well (`breakLines_flatMap`); one
that has neither stays on its line (`breakLines_of_unbroken`).
-/
namespace Galley.Text

theorem splitAt_cons (separator : Char) (rest : List Char) :
    splitAt separator (separator :: rest) = [] :: splitAt separator rest :=
  if_pos rfl

theorem splitAt_append {separator : Char} {piece : List Char} (clean : separator ∉ piece)
    (rest : List Char) :
    splitAt separator (piece ++ separator :: rest) = piece :: splitAt separator rest := by
  induction piece with
  | nil => exact splitAt_cons separator rest
  | cons c piece ih =>
    simp only [List.mem_cons, not_or] at clean
    rw [List.cons_append, splitAt, if_neg (Ne.symm clean.1), ih clean.2]

theorem splitAt_ne_nil (separator : Char) (text : List Char) : splitAt separator text ≠ [] := by
  cases text with
  | nil => simp [splitAt]
  | cons c rest =>
    rw [splitAt]
    split
    · simp
    · split <;> simp

theorem splitAt_of_not_mem {separator : Char} {piece : List Char} (clean : separator ∉ piece) :
    splitAt separator piece = [piece] := by
  induction piece with
  | nil => rfl
  | cons c piece ih =>
    simp only [List.mem_cons, not_or] at clean
    rw [splitAt, if_neg (Ne.symm clean.1), ih clean.2]

/-- Two texts with the separator between them are cut into the pieces of both. -/
theorem splitAt_append_cons (separator : Char) (first rest : List Char) :
    splitAt separator (first ++ separator :: rest) =
      splitAt separator first ++ splitAt separator rest := by
  induction first with
  | nil => exact splitAt_cons separator rest
  | cons c first ih =>
    rw [List.cons_append, splitAt, splitAt]
    split
    · rw [ih, List.cons_append]
    · rw [ih]
      cases pieces : splitAt separator first with
      | nil => exact absurd pieces (splitAt_ne_nil separator first)
      | cons piece others => rfl

/-- Pieces that are each ended by the separator come back, followed by an empty one. -/
theorem splitAt_flatMap {separator : Char} {pieces : List (List Char)}
    (clean : ∀ piece ∈ pieces, separator ∉ piece) :
    splitAt separator (pieces.flatMap (· ++ [separator])) = pieces ++ [[]] := by
  induction pieces with
  | nil => rfl
  | cons piece rest ih =>
    simp only [List.forall_mem_cons] at clean
    rw [List.flatMap_cons, List.append_assoc, List.singleton_append, splitAt_append clean.1,
      ih clean.2, List.cons_append]

/-- The pieces with the separator between them are the text. -/
theorem intercalate_splitAt (separator : Char) (text : List Char) :
    [separator].intercalate (splitAt separator text) = text := by
  induction text with
  | nil => rfl
  | cons c rest ih =>
    obtain ⟨first, others, pieces⟩ := List.exists_cons_of_ne_nil (splitAt_ne_nil separator rest)
    rw [splitAt]
    split
    next same =>
      rw [pieces, List.intercalate_cons_cons, ← pieces, ih, same]
      rfl
    · rw [pieces] at ih ⊢
      cases others <;> simpa [List.intercalate_cons_cons] using ih

/-- Pieces that do not contain the separator come back from between separators. -/
theorem splitAt_intercalate {separator : Char} {pieces : List (List Char)}
    (nonempty : pieces ≠ [])
    (clean : ∀ piece ∈ pieces, separator ∉ piece) :
    splitAt separator ([separator].intercalate pieces) = pieces := by
  induction pieces with
  | nil => exact absurd rfl nonempty
  | cons piece rest ih =>
    rw [List.forall_mem_cons] at clean
    cases rest with
    | nil => rw [List.intercalate_singleton, splitAt_of_not_mem clean.1]
    | cons next rest =>
      rw [List.intercalate_cons_cons, List.append_assoc, List.singleton_append,
        splitAt_append clean.1, ih (List.cons_ne_nil next rest) clean.2]

/-- A separator behind every piece is one between them and one at the end. -/
theorem flatMap_append_separator {separator : Char} {pieces : List (List Char)}
    (nonempty : pieces ≠ []) :
    pieces.flatMap (· ++ [separator]) = [separator].intercalate pieces ++ [separator] := by
  induction pieces with
  | nil => exact absurd rfl nonempty
  | cons piece rest ih =>
    cases rest with
    | nil => simp
    | cons next rest =>
      rw [List.flatMap_cons, ih (List.cons_ne_nil next rest), List.intercalate_cons_cons,
        List.append_assoc, List.append_assoc, List.append_assoc]

/-- Every piece is free of the separator. -/
theorem not_mem_of_mem_splitAt {separator : Char} {text : List Char} :
    ∀ piece ∈ splitAt separator text, separator ∉ piece := by
  induction text with
  | nil => simp [splitAt]
  | cons c rest ih =>
    rw [splitAt]
    split
    · simpa using ih
    next other =>
      cases pieces : splitAt separator rest with
      | nil => simpa using Ne.symm other
      | cons first others =>
        rw [pieces] at ih
        simp only [List.forall_mem_cons] at ih ⊢
        exact ⟨by simpa using ⟨Ne.symm other, ih.1⟩, ih.2⟩

/-- What is free of a character and stands in front of it stands in the text before it. -/
theorem infix_of_infix_concat {c : Char} {inner text : List Char} (clean : c ∉ inner)
    (found : inner <:+: text ++ [c]) : inner <:+: text := by
  rcases List.infix_concat_iff.mp found with ending | before
  · rcases List.suffix_concat_iff.mp ending with rfl | ⟨rest, rfl, -⟩
    · exact List.nil_infix
    · exact absurd (by simp) clean
  · exact before

/-- A piece stands in the text. -/
theorem infix_of_mem_splitAt {separator : Char} {text piece : List Char}
    (member : piece ∈ splitAt separator text) : piece <:+: text := by
  refine infix_of_infix_concat (not_mem_of_mem_splitAt piece member) ?_
  rw [← intercalate_splitAt separator text,
    ← flatMap_append_separator (splitAt_ne_nil separator text), List.flatMap_def]
  exact List.infix_append_left.trans (List.infix_of_mem_flatten (List.mem_map_of_mem member))

theorem mem_of_mem_splitAt {separator c : Char} {text piece : List Char}
    (member : piece ∈ splitAt separator text) (inside : c ∈ piece) : c ∈ text :=
  (infix_of_mem_splitAt member).mem inside

private theorem exists_prefix_splitAt {separator : Char} {start text : List Char}
    (clean : separator ∉ start) (found : start <+: text) :
    ∃ first others, splitAt separator text = first :: others ∧ start <+: first := by
  induction start generalizing text with
  | nil =>
    obtain ⟨first, others, pieces⟩ := List.exists_cons_of_ne_nil (splitAt_ne_nil separator text)
    exact ⟨first, others, pieces, List.nil_prefix⟩
  | cons c start ih =>
    obtain ⟨rest, rfl⟩ := found
    simp only [List.mem_cons, not_or] at clean
    obtain ⟨first, others, pieces, begins⟩ := ih clean.2 (List.prefix_append start rest)
    refine ⟨c :: first, others, ?_, List.cons_prefix_cons.mpr ⟨rfl, begins⟩⟩
    rw [List.cons_append, splitAt, if_neg (Ne.symm clean.1), pieces]

/-- What is free of the separator stands in one piece of the text that it stands in. -/
theorem exists_mem_splitAt_of_infix {separator : Char} {inner text : List Char}
    (clean : separator ∉ inner) (found : inner <:+: text) :
    ∃ piece ∈ splitAt separator text, inner <:+: piece := by
  induction text with
  | nil => exact ⟨[], by simp [splitAt], found⟩
  | cons c rest ih =>
    rcases List.infix_cons_iff.mp found with here | later
    · obtain ⟨first, others, pieces, begins⟩ := exists_prefix_splitAt clean here
      exact ⟨first, by simp [pieces], begins.isInfix⟩
    · obtain ⟨piece, member, inside⟩ := ih later
      obtain ⟨first, others, pieces⟩ := List.exists_cons_of_ne_nil (splitAt_ne_nil separator rest)
      rw [splitAt]
      split
      · exact ⟨piece, List.mem_cons_of_mem _ member, inside⟩
      · -- the first piece of what follows is longer by a character
        rw [pieces] at member ⊢
        rcases List.mem_cons.mp member with rfl | further
        · exact ⟨c :: piece, List.mem_cons_self, List.infix_cons inside⟩
        · exact ⟨piece, List.mem_cons_of_mem _ further, inside⟩

private theorem mem_of_mem_dropReturn {line : List Char} {c : Char} (member : c ∈ dropReturn line) :
    c ∈ line := by
  unfold dropReturn at member
  split at member
  next rest reversed =>
    rw [← List.mem_reverse, reversed]
    exact List.mem_cons_of_mem _ (List.mem_reverse.mp member)
  · exact member

/-- The lines of a text are free of line feeds. -/
theorem not_mem_of_mem_lines {text line : String} (member : line ∈ lines text) :
    '\n' ∉ line.toList := by
  have pieces : ∀ piece ∈ splitAt '\n' text.toList, '\n' ∉ piece := not_mem_of_mem_splitAt
  unfold lines at member
  generalize splitAt '\n' text.toList = found at pieces member
  induction found using endLines.induct with
  | case1 => cases member
  | case2 last empty => simp [endLines, empty] at member
  | case3 last kept =>
    simp only [endLines, kept, Bool.false_eq_true, if_false, List.mem_singleton] at member
    subst member
    simpa using pieces last
  | case4 first rest more ih =>
    rw [List.forall_mem_cons] at pieces
    rw [endLines, List.mem_cons] at member
    · rcases member with rfl | member
      · rw [String.toList_ofList]
        exact fun inside => pieces.1 (mem_of_mem_dropReturn inside)
      · exact ih pieces.2 member
    · exact more

/-- Joining the pieces with the separator gives the text back, character for character that is not
the separator. -/
theorem filter_flatten_splitAt {separator : Char} {p : Char → Bool} (dropped : p separator = false)
    (text : List Char) : (splitAt separator text).flatten.filter p = text.filter p := by
  induction text with
  | nil => rfl
  | cons c rest ih =>
    rw [splitAt]
    split
    next same =>
      subst same
      rw [List.flatten_cons, List.nil_append, ih, List.filter_cons_of_neg (by simp [dropped])]
    next =>
      cases pieces : splitAt separator rest with
      | nil =>
        rw [pieces] at ih
        simp only [List.flatten_cons, List.flatten_nil, List.append_nil, List.filter_cons,
          List.filter_nil]
        rw [← ih]
        rfl
      | cons first others =>
        rw [pieces] at ih
        simp only [List.flatten_cons, List.cons_append] at ih ⊢
        rw [List.filter_cons, List.filter_cons, ih]

/-- Dropping characters that a filter leaves out changes nothing behind the filter. -/
theorem filter_dropWhile {p q : Char → Bool} (dropped : ∀ c, p c = true → q c = false)
    (text : List Char) : (text.dropWhile p).filter q = text.filter q := by
  induction text with
  | nil => rfl
  | cons c rest ih =>
    rw [List.dropWhile_cons]
    split
    next taken => rw [ih, List.filter_cons_of_neg (by simp [dropped c taken])]
    · rfl

theorem filter_dropEndWhile {p q : Char → Bool} (dropped : ∀ c, p c = true → q c = false)
    (text : List Char) : (dropEndWhile p text).filter q = text.filter q := by
  rw [dropEndWhile, List.filter_reverse, filter_dropWhile dropped, ← List.filter_reverse,
    List.reverse_reverse]

/-! ### Every line break -/

/-- Cuts a text at all its line breaks: a carriage return with a line feed, or either. -/
def breakLines : List Char → List (List Char)
  | [] => [[]]
  | '\r' :: '\n' :: rest => [] :: breakLines rest
  | c :: rest =>
    if c = '\n' ∨ c = '\r' then [] :: breakLines rest
    else
      match breakLines rest with
      | [] => [[c]]
      | line :: lines => (c :: line) :: lines

/-- What carriage returns make of a line that a line feed ends. -/
def pieces (line : List Char) : List (List Char) := splitAt '\r' (dropReturn line)

theorem dropReturn_cons {c : Char} {line : List Char} (kept : c ≠ '\r' ∨ line ≠ []) :
    dropReturn (c :: line) = c :: dropReturn line := by
  rw [dropReturn, dropReturn, List.reverse_cons]
  cases reversed : line.reverse with
  | nil =>
    obtain rfl := List.reverse_eq_nil_iff.mp reversed
    have other : c ≠ '\r' := by simpa using kept
    simp [other]
  | cons d rest =>
    by_cases ended : d = '\r'
    · subst ended
      simp
    · simp [ended]

/-- A line that starts without a carriage return starts its first piece with the same characters. -/
theorem pieces_append {start : List Char} (clean : '\r' ∉ start) (line : List Char) :
    pieces (start ++ line) = (start ++ (pieces line).headD []) :: (pieces line).tail := by
  induction start with
  | nil =>
    obtain ⟨first, rest, cut⟩ := List.exists_cons_of_ne_nil (splitAt_ne_nil '\r' (dropReturn line))
    rw [List.nil_append, pieces, cut]
    rfl
  | cons c start ih =>
    rw [List.mem_cons, not_or] at clean
    have shown := ih clean.2
    rw [pieces] at shown
    rw [List.cons_append, pieces, dropReturn_cons (Or.inl (Ne.symm clean.1)), splitAt,
      if_neg (Ne.symm clean.1), shown, List.cons_append]

theorem pieces_of_not_mem {line : List Char} (clean : '\r' ∉ line) : pieces line = [line] := by
  have shown := pieces_append clean []
  rw [List.append_nil] at shown
  rw [shown, pieces]
  simp [dropReturn, splitAt]

/-- A line with its line feed is cut into the pieces of the line. -/
theorem breakLines_line {line : List Char} (clean : '\n' ∉ line) (rest : List Char) :
    breakLines (line ++ '\n' :: rest) = pieces line ++ breakLines rest := by
  induction line with
  | nil => rfl
  | cons c line ih =>
    rw [List.mem_cons, not_or] at clean
    by_cases returned : c = '\r'
    · subst returned
      cases line with
      | nil => rfl
      | cons d line =>
        -- the carriage return is not the one that the line feed takes along
        have lone (text : List Char) : d :: (line ++ '\n' :: rest) ≠ '\n' :: text := by
          intro same
          exact clean.2 ((List.cons.inj same).1 ▸ List.mem_cons_self)
        rw [pieces, dropReturn_cons (Or.inr (by simp)), splitAt_cons, List.cons_append,
          List.cons_append, breakLines, if_pos (Or.inr rfl), List.cons_append, ← pieces,
          ← ih clean.2, List.cons_append]
        exact fun text _ same => lone text same
    · have start : '\r' ∉ [c] := by simpa using Ne.symm returned
      have shown := pieces_append start line
      obtain ⟨first, others, cut⟩ := List.exists_cons_of_ne_nil
        (splitAt_ne_nil '\r' (dropReturn line))
      rw [List.singleton_append] at shown
      rw [List.cons_append, breakLines, if_neg (by simp [returned, Ne.symm clean.1]), ih clean.2,
        shown, pieces, cut]
      · rfl
      · exact fun _ same _ => returned same

theorem breakLines_flatMap {lines : List (List Char)} (clean : ∀ line ∈ lines, '\n' ∉ line) :
    breakLines (lines.flatMap (· ++ ['\n'])) = lines.flatMap pieces ++ [[]] := by
  induction lines with
  | nil => rfl
  | cons line rest ih =>
    rw [List.forall_mem_cons] at clean
    rw [List.flatMap_cons, List.append_assoc, List.singleton_append, breakLines_line clean.1,
      ih clean.2, List.flatMap_cons, List.append_assoc]

/-- A text that stays on the line that it starts on. -/
def Unbroken (text : List Char) : Prop := '\n' ∉ text ∧ '\r' ∉ text

instance (text : List Char) : Decidable (Unbroken text) := inferInstanceAs (Decidable (_ ∧ _))

@[simp] theorem unbroken_nil : Unbroken [] := by simp [Unbroken]

@[simp] theorem unbroken_cons {c : Char} {text : List Char} :
    Unbroken (c :: text) ↔ ¬ (c = '\n' ∨ c = '\r') ∧ Unbroken text := by
  simp only [Unbroken, List.mem_cons, not_or, eq_comm (a := c)]
  exact and_and_and_comm

@[simp] theorem unbroken_append {first second : List Char} :
    Unbroken (first ++ second) ↔ Unbroken first ∧ Unbroken second := by
  simp only [Unbroken, List.mem_append, not_or]
  exact and_and_and_comm

/-- Nothing that breaks a line is left in the lines of a text. -/
theorem unbroken_of_mem_breakLines {text : List Char} :
    ∀ line ∈ breakLines text, Unbroken line := by
  induction text using breakLines.induct with
  | case1 => simp [breakLines]
  | case2 rest ih =>
    rw [breakLines, List.forall_mem_cons]
    exact ⟨unbroken_nil, ih⟩
  | case3 c rest alone breaks ih =>
    rw [breakLines, if_pos breaks, List.forall_mem_cons]
    · exact ⟨unbroken_nil, ih⟩
    · exact alone
  | case4 c rest alone other nothing ih =>
    rw [breakLines, if_neg other, nothing]
    · simpa using other
    · exact alone
  | case5 c rest alone other line lines cut ih =>
    rw [breakLines, if_neg other, cut]
    · rw [cut] at ih
      simp only [List.forall_mem_cons, unbroken_cons] at ih ⊢
      exact ⟨⟨other, ih.1⟩, ih.2⟩
    · exact alone

theorem breakLines_of_unbroken {line : List Char} (unbroken : Unbroken line) (rest : List Char) :
    breakLines (line ++ '\n' :: rest) = line :: breakLines rest := by
  rw [breakLines_line unbroken.1, pieces_of_not_mem unbroken.2]
  rfl

end Galley.Text
