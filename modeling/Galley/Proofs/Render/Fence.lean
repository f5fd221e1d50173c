import Galley.Proofs.Text.Split
import Galley.Render.Target
/-!
# Fenced code in Markdown

A code block stands between two fences, and between them its text is written as it is. The first
line that can close a fence ends the code for a reader. So the code reads back as it was exactly if
no line of it looks like that; else the reader stops at the first such line, and takes what follows
for document text.

## Main result

`fence_holds_iff`: the exact condition under which a code block reads back.
-/
namespace Galley.Render

open Galley.Document (Node)

/-! ### Reading fences -/

/-- Three backticks or more, and behind them text without a backtick. -/
def opensFence (line : List Char) : Bool :=
  3 ≤ (line.takeWhile (· == '`')).length && (line.dropWhile (· == '`')).all (· != '`')

def isBlankLine (line : List Char) : Bool := line.all fun c => c == ' ' || c == '\t'

/-- Three backticks or more, indented by three spaces at most, with nothing but blanks behind. -/
def closesFence (line : List Char) : Bool :=
  let bar := line.dropWhile (· == ' ')
  (line.takeWhile (· == ' ')).length ≤ 3 && 3 ≤ (bar.takeWhile (· == '`')).length &&
    isBlankLine (bar.dropWhile (· == '`'))

/-- Lines up to the first one that closes a fence, and the lines behind that one. -/
def takeFenced? : List (List Char) → Option (List (List Char) × List (List Char))
  | [] => none
  | line :: rest =>
    if closesFence line then some ([], rest)
    else (takeFenced? rest).map fun taken => (line :: taken.1, taken.2)

/-- The text between two fences, and the lines that are left behind them. -/
def readFenced? (text : List Char) : Option (List Char × List (List Char)) :=
  match Text.splitAt '\n' text with
  | opening :: rest =>
    if opensFence opening then
      (takeFenced? rest).map fun taken => (['\n'].intercalate taken.1, taken.2)
    else none
  | [] => none

/-- A text reads back as code, and nothing is left behind it. -/
def ReadsAsCode (text code : List Char) : Prop :=
  ∃ left, readFenced? text = some (code, left) ∧ ∀ line ∈ left, isBlankLine line = true

/-- No line of a text closes a fence. -/
def StaysFenced (text : List Char) : Prop :=
  ∀ line ∈ Text.splitAt '\n' text, closesFence line = false

instance (text : List Char) : Decidable (StaysFenced text) :=
  inferInstanceAs (Decidable (∀ line ∈ _, _))

/-! ### Lines between fences -/

theorem takeFenced?_append {lines : List (List Char)}
    (quiet : ∀ line ∈ lines, closesFence line = false) {closing : List Char}
    (closes : closesFence closing = true) (rest : List (List Char)) :
    takeFenced? (lines ++ closing :: rest) = some (lines, rest) := by
  induction lines with
  | nil => rw [List.nil_append, takeFenced?, if_pos closes]
  | cons line lines ih =>
    rw [List.forall_mem_cons] at quiet
    rw [List.cons_append, takeFenced?, if_neg (by simp [quiet.1]), ih quiet.2]
    rfl

theorem of_takeFenced? {lines code left : List (List Char)}
    (taken : takeFenced? lines = some (code, left)) :
    ∀ line ∈ code, line ∈ lines ∧ closesFence line = false := by
  induction lines generalizing code with
  | nil => cases taken
  | cons line rest ih =>
    rw [takeFenced?] at taken
    split at taken
    · cases taken
      exact List.forall_mem_nil _
    next quiet =>
      obtain ⟨⟨later, _⟩, found, same⟩ := Option.map_eq_some_iff.mp taken
      cases same
      rw [List.forall_mem_cons]
      refine ⟨⟨List.mem_cons_self, by simpa using quiet⟩, fun other member => ?_⟩
      obtain ⟨inside, closes⟩ := ih found other member
      exact ⟨List.mem_cons_of_mem line inside, closes⟩

/-- Whatever is read from between two fences, no line of it closes one. -/
theorem staysFenced_of_read {text code : List Char} {left : List (List Char)}
    (read : readFenced? text = some (code, left)) : StaysFenced code := by
  unfold readFenced? at read
  obtain ⟨opening, rest, cut⟩ := List.exists_cons_of_ne_nil (Text.splitAt_ne_nil '\n' text)
  rw [cut] at read
  dsimp only at read
  split at read
  · obtain ⟨⟨lines, _⟩, taken, same⟩ := Option.map_eq_some_iff.mp read
    cases same
    have inside := of_takeFenced? taken
    by_cases empty : lines = []
    · -- no line and one empty line are the same text, and an empty line closes no fence
      subst empty
      exact (by decide : StaysFenced [])
    · have clean : ∀ line ∈ lines, '\n' ∉ line := by
        intro line member
        apply Text.not_mem_of_mem_splitAt line
        rw [cut]
        exact List.mem_cons_of_mem opening (inside line member).1
      rw [StaysFenced, Text.splitAt_intercalate empty clean]
      exact fun line member => (inside line member).2
  · cases read

/-! ### Code blocks -/

theorem opensFence_append {name : List Char} (clean : '`' ∉ name) :
    opensFence ('`' :: '`' :: '`' :: name) = true := by
  have word : (name.takeWhile (· == '`')).length = 0 ∧ name.dropWhile (· == '`') = name := by
    cases name with
    | nil => exact ⟨rfl, rfl⟩
    | cons c name =>
      have other : (c == '`') = false := by
        rw [beq_eq_false_iff_ne]
        rintro rfl
        exact clean List.mem_cons_self
      rw [List.takeWhile_cons_of_neg (by simp [other]),
        List.dropWhile_cons_of_neg (by simp [other])]
      exact ⟨rfl, rfl⟩
  have rest : name.all (· != '`') = true := by
    rw [List.all_eq_true]
    intro c member
    rw [bne_iff_ne]
    rintro rfl
    exact clean member
  simp [opensFence, word, rest]

/-- The lines of a code block: a fence, those of the code, a fence and a blank line. -/
theorem splitAt_codeBlock {language : Option String} {content : List Node}
    (clean : '\n' ∉ (language.getD "").toList) :
    Text.splitAt '\n' (Markdown.block (.codeBlock language content)).toList =
      ('`' :: '`' :: '`' :: (language.getD "").toList) ::
        (Text.splitAt '\n' (Node.plainTexts content).toList ++ [['`', '`', '`'], [], []]) := by
  have fence : "```".toList = ['`', '`', '`'] := by decide
  have last : "\n```\n\n".toList = '\n' :: ['`', '`', '`', '\n', '\n'] := by decide
  have first : '\n' ∉ '`' :: '`' :: '`' :: (language.getD "").toList := by simpa using clean
  have chars : (Markdown.block (.codeBlock language content)).toList =
      ('`' :: '`' :: '`' :: (language.getD "").toList) ++
        '\n' :: ((Node.plainTexts content).toList ++ '\n' :: ['`', '`', '`', '\n', '\n']) := by
    simp [Markdown.block, fence, last]
  rw [chars, Text.splitAt_append first, Text.splitAt_append_cons]
  rfl

/-- **Code stays in its fence** as long as no line of it closes one: a code block, whose language
has no line feed and no backtick, reads back as its text with nothing behind it exactly then. -/
theorem fence_holds_iff {language : Option String}
    (plain : ∀ name ∈ language, '\n' ∉ name.toList ∧ '`' ∉ name.toList) (content : List Node)
    (lang : String) :
    let code := Node.codeBlock language content
    ReadsAsCode ((Renderer.mk .markdown lang).render code).toList code.plainText.toList ↔
      StaysFenced code.plainText.toList := by
  intro code
  constructor
  · rintro ⟨left, read, -⟩
    exact staysFenced_of_read read
  · intro quiet
    have clean : '\n' ∉ (language.getD "").toList ∧ '`' ∉ (language.getD "").toList := by
      cases language with
      | none => decide
      | some name => exact plain name rfl
    have closes : closesFence ['`', '`', '`'] = true := by decide
    have taken := takeFenced?_append quiet closes [[], []]
    refine ⟨[[], []], ?_, by decide⟩
    change readFenced? (Markdown.block code).toList = _
    rw [readFenced?, splitAt_codeBlock clean.1]
    dsimp only
    change takeFenced? (Text.splitAt '\n' (Node.plainTexts content).toList ++ _) = _ at taken
    rw [if_pos (opensFence_append clean.2), taken, Option.map_some, Text.intercalate_splitAt]

/-- Code with lines that look like fences: indented too far, too short, or with a word behind. -/
theorem fence_holds_lookalikes :
    let code := Node.codeBlock (some "md") [.text "    ```" [.bold], .hardBreak, .text "``\n" [],
      .paragraph [.text "```md\n~~~\n" []]]
    ('\n' ∉ "md".toList ∧ '`' ∉ "md".toList) ∧
      ReadsAsCode ((Renderer.mk .markdown "en").render code).toList
        "    ```\n``\n```md\n~~~\n".toList := by
  intro code
  have plain : '\n' ∉ "md".toList ∧ '`' ∉ "md".toList := by decide
  have named : ∀ name ∈ some "md", '\n' ∉ name.toList ∧ '`' ∉ name.toList := by
    rintro name ⟨⟩
    exact plain
  exact ⟨plain, (fence_holds_iff named _ "en").mpr (by decide)⟩

/-- Code that shows a fence. -/
def shownFence : Node := .codeBlock (some "md") [.text "a\n```\nb" []]

/-- The reader stops at the fence that is shown, and the rest is left behind. -/
theorem fence_not_holds :
    readFenced? ((Renderer.mk .markdown "en").render shownFence).toList =
        some (['a'], [['b'], ['`', '`', '`'], [], []]) ∧
      ¬ ReadsAsCode ((Renderer.mk .markdown "en").render shownFence).toList
        shownFence.plainText.toList := by
  have read : readFenced? ((Renderer.mk .markdown "en").render shownFence).toList =
      some (['a'], [['b'], ['`', '`', '`'], [], []]) := by decide
  refine ⟨read, ?_⟩
  rintro ⟨left, whole, -⟩
  rw [read] at whole
  cases whole

end Galley.Render
