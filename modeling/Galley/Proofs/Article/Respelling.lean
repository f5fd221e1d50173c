import Galley.Proofs.Article.Content
import Galley.Proofs.Document.Respelling
import Galley.Proofs.Json.Agreement
/-!
# Articles in other spellings

An article whose document is spelled in another way is the same article, and so is all that is made
of it.

## Main result

`decoding_ignores_spelling`.
-/
namespace Galley.Article

open Galley.Document (Change IsUnknownMark Node knownMarks)
open Galley.Json (Value)
open Galley.Json.Value (lookup)
open Relation (EqvGen)

variable {v w : Value}

/-- Null is no object that a change could be made to. -/
theorem eq_null_iff_of_changes (changes : EqvGen (Change .node) v w) :
    v = .null ↔ w = .null := by
  induction changes with
  | rel v w change =>
    cases change with
    | kind | noMarks | foreign | items | member | item | text => exact iff_of_false nofun nofun
  | refl => rfl
  | symm _ _ _ ih => exact ih.symm
  | trans _ _ _ _ _ ih ih' => exact ih.trans ih'

/-- Null is read as a document that is missing. -/
theorem gives_null : Gives .null fun draft => { draft with content := some none } := by
  intro draft depth cs rest reads
  rw [Json.bare_value] at reads
  obtain ⟨inner, starts, word⟩ := Json.takeValue_null_iff.mp reads
  rw [contentReader, Json.bare_map, Json.bare_optional]
  simp only [starts, word]
  rfl

/-- **Spellings do not show.** Any number of changes of spelling in a value, there and back, leave
the tree that it decodes to. With such values for its document, after the same fields and before the
same rest, an article is the same, and all its renditions are. -/
theorem decoding_ignores_spelling :
    ∀ v w, EqvGen (Change .node) v w →
      Node.ofJson w = Node.ofJson v ∧
      ∀ one other form draft rest,
        ContentAt one v rest form draft → ContentAt other w rest form draft →
        ofText other = ofText one ∧
          ∀ config style lang, (ofText other).map (renditions config style lang) =
            (ofText one).map (renditions config style lang) := by
  intro v w changes
  have same := Node.ofJson_eq_of_changes changes
  refine ⟨same, fun one other form draft rest found found' => ?_⟩
  have articles : ofText other = ofText one := by
    by_cases null : v = .null
    · have null' := (eq_null_iff_of_changes changes).mp null
      subst null null'
      exact ofText_eq_of_gives found found' gives_null gives_null
    · have present : w ≠ .null := fun null' => null ((eq_null_iff_of_changes changes).mpr null')
      exact ofText_eq_of_contentAt found found' null present same
  exact ⟨articles, fun config style lang => by rw [articles]⟩

/-! ### An article in two spellings -/

def textOf (marks : List Value) : Value :=
  .object [("type", .string "text"), ("text", .string "a"), ("marks", .array marks)]

theorem change_documentOf {item given : Value} (change : Change .node item given) :
    Change .node (documentOf item) (documentOf given) := by
  refine @Change.member .node "content" (.array [item]) (.array [given]) _ _ ⟨rfl, rfl, ?_⟩
    (@Change.item .content [] [] item given change)
  intro other differs
  simp [lookup, Ne.symm differs]

theorem change_textOf {marks given : List Value}
    (change : Change .marks (.array marks) (.array given)) :
    Change .node (textOf marks) (textOf given) := by
  refine @Change.member .node "marks" (.array marks) (.array given) _ _ ⟨rfl, rfl, ?_⟩ change
  intro other differs
  simp [lookup, Ne.symm differs]

/-- A strong text by its mark's other name, in an object and beside a mark that is not known. -/
def strongText : Value := textOf [.object [("type", .string "strong")], .string "blink"]

def respelledDocument : Value :=
  .object [("type", .string "document"), ("content", .array [strongText])]

theorem changes_bold :
    EqvGen (Change .node) (documentOf (textOf [.string "bold"])) respelledDocument := by
  have name : Change .marks (.array [.string "bold"]) (.array [.string "strong"]) :=
    @Change.item .marks [] [] _ _ (.markName (by decide))
  have form : Change .marks (.array [.string "strong"])
      (.array [.object [("type", .string "strong")]]) :=
    @Change.item .marks [] [] _ _ (.markForm "strong")
  have unknown : IsUnknownMark (.string "blink") := by
    intro name known
    refine ⟨?_, nofun⟩
    rintro ⟨⟩
    exact absurd known (by decide)
  have added : Change .marks (.array [.object [("type", .string "strong")]])
      (.array [.object [("type", .string "strong")], .string "blink"]) :=
    @Change.unknownMark [.object [("type", .string "strong")]] [] _ unknown
  have kind : Change .node (documentOf strongText) respelledDocument := by
    refine @Change.kind "doc" "document" _ _ (by decide) ⟨rfl, rfl, ?_⟩
    intro other differs
    simp [lookup, Ne.symm differs]
  have step {marks given : List Value} (change : Change .marks (.array marks) (.array given)) :
      EqvGen (Change .node) (documentOf (textOf marks)) (documentOf (textOf given)) :=
    .rel _ _ (change_documentOf (change_textOf change))
  exact (((step name).trans _ _ _ (step form)).trans _ _ _ (step added)).trans _ _ _ (.rel _ _ kind)

def boldArticle : String :=
  "\x7b\"id\":\"a\",\"content\":\x7b\"type\":\"doc\",\"content\":[\x7b\"type\":\"text\"," ++
    "\"text\":\"a\",\"marks\":[\"bold\"]\x7d]\x7d\x7d"

def strongArticle : String :=
  "\x7b\"id\":\"a\",\"content\":\x7b\"type\":\"document\",\"content\":[\x7b\"type\":\"text\"," ++
    "\"text\":\"a\",\"marks\":[\x7b\"type\":\"strong\"\x7d,\"blink\"]\x7d]\x7d\x7d"

set_option maxRecDepth 2000 in
theorem decoding_ignores_spelling_strong :
    Node.ofJson respelledDocument = Node.ofJson (documentOf (textOf [.string "bold"])) ∧
      ofText strongArticle = ofText boldArticle ∧ (ofText boldArticle).isOk = true := by
  obtain ⟨tree, article⟩ := decoding_ignores_spelling _ _ changes_bold
  have bold : ContentAt boldArticle (documentOf (textOf [.string "bold"])) ['\x7d'] .object
      { id := some "a" } := by
    with_unfolding_all
      exact .member rfl (.member rfl rfl (.here _ _ _)) rfl rfl (by decide) rfl rfl rfl
  have strong : ContentAt strongArticle respelledDocument ['\x7d'] .object { id := some "a" } := by
    with_unfolding_all
      exact .member rfl (.member rfl rfl (.here _ _ _)) rfl rfl (by decide) rfl rfl rfl
  exact ⟨tree, (article _ _ _ _ _ bold strong).1, by decide +kernel⟩

end Galley.Article
