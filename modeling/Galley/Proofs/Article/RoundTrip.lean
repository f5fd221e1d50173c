import Galley.Article.Metadata
import Galley.Article.Reference
import Galley.Proofs.Json.Printed
/-!
# Metadata and references read back

What is written of metadata or of a reference spells the same value again, whatever the texts and
whichever of the fields are absent. The languages of a text keep their order: no language stands
twice, so each of them is put at the end as it is read.

## Main result

`record_round_trip`.
-/
namespace Galley.Article

open Galley.Json (Reads ReadsMembers)

/-! ### Texts in several languages -/

namespace LocalizedText

theorem putEntry_of_not_mem {lang text : String} {entries : List (String × String)}
    (fresh : lang ∉ entries.map Prod.fst) :
    putEntry lang text entries = entries ++ [(lang, text)] := by
  induction entries with
  | nil => rfl
  | cons entry rest ih =>
    rw [List.map_cons, List.mem_cons, not_or] at fresh
    rw [putEntry, if_neg (Ne.symm fresh.1), ih fresh.2, List.cons_append]

/-- Reading entries behind others leaves them all, in their order. -/
theorem readsMembers_entries (depth : Nat) {read whole : LocalizedText}
    {rest : List (String × String)} (parts : whole.entries = read.entries ++ rest) :
    ReadsMembers accept depth read (rest.map fun entry => (entry.1, .string entry.2)) whole := by
  induction rest generalizing read with
  | nil =>
    obtain ⟨entries, distinct⟩ := whole
    rw [List.append_nil] at parts
    subst parts
    exact .nil read
  | cons entry rest ih =>
    obtain ⟨lang, text⟩ := entry
    have fresh : lang ∉ read.entries.map Prod.fst := by
      have distinct := whole.distinct
      rw [parts, List.map_append, List.nodup_append] at distinct
      intro old
      exact distinct.2.2 lang old lang (by simp) rfl
    have put : (read.insert lang text).entries = read.entries ++ [(lang, text)] :=
      putEntry_of_not_mem fresh
    have value := Json.reads_ofText? depth (some text)
    refine .cons rfl (value.map _) (ih ?_)
    change whole.entries = (read.insert lang text).entries ++ rest
    rw [parts, put, List.append_assoc, List.singleton_append]

theorem reads_toJson (depth : Nat) (texts : LocalizedText) :
    Reads reader (depth + 1) texts.toJson.print texts := by
  have entries : ReadsMembers accept depth empty
      (texts.entries.map fun entry => (entry.1, .string entry.2)) texts :=
    readsMembers_entries depth rfl
  intro rest
  rw [← Json.reads_members entries described rest, toJson]
  have opens := Json.skipSpaces_print_object
    (texts.entries.map fun entry => (entry.1, .string entry.2)) rest
  -- neither null nor a list begins with a brace
  unfold reader
  rw [opens]
  rfl

end LocalizedText

/-! ### Records -/

theorem Metadata.readsMembers (depth : Nat) (metadata : Metadata) :
    ReadsMembers record.accept depth record.empty
      [("title", .ofText? metadata.title), ("abstract", .ofText? metadata.abstract),
        ("keywords", .ofText? metadata.keywords)]
      ⟨some metadata.title, some metadata.abstract, some metadata.keywords⟩ := by
  obtain ⟨title, abstract, keywords⟩ := metadata
  have text (text : Option String) (set : Option String → Draft) :=
    (Json.reads_ofText? depth text).map set
  refine .cons rfl (text title fun text => ⟨some text, none, none⟩) ?_
  refine .cons rfl (text abstract fun text => ⟨some title, some text, none⟩) ?_
  refine .cons rfl (text keywords fun text => ⟨some title, some abstract, some text⟩) ?_
  exact .nil _

theorem Reference.readsMembers (depth : Nat) (reference : Reference) :
    ReadsMembers record.accept (depth + 1) record.empty
      [("id", .ofText? reference.id), ("text", reference.text.toJson),
        ("doi", .ofText? reference.doi), ("url", .ofText? reference.url)]
      ⟨some reference.id, some reference.text, some reference.doi, some reference.url⟩ := by
  obtain ⟨id, texts, doi, url⟩ := reference
  have word (text : Option String) (set : Option String → Draft) :=
    (Json.reads_ofText? (depth + 1) text).map set
  refine .cons rfl (word id fun id => ⟨some id, none, none, none⟩) ?_
  have languages (set : LocalizedText → Draft) := (texts.reads_toJson depth).map set
  refine .cons rfl (languages fun texts => ⟨some id, some texts, none, none⟩) ?_
  refine .cons rfl (word doi fun doi => ⟨some id, some texts, some doi, none⟩) ?_
  refine .cons rfl (word url fun url => ⟨some id, some texts, some doi, some url⟩) ?_
  exact .nil _

/-- **Metadata and references read back.** Whatever their texts, whichever fields are absent and
however many languages there are, what is written spells an equal value, the languages of a text in
the same order. -/
theorem record_round_trip :
    (∀ metadata : Metadata, Metadata.ofText metadata.toJson.print = .ok metadata) ∧
    ∀ reference : Reference, Reference.ofText reference.toJson.print = .ok reference := by
  constructor
  · intro metadata
    exact Json.decode_of_reads (Metadata.record.reads_object (metadata.readsMembers _) rfl rfl)
  · intro reference
    exact Json.decode_of_reads (Reference.record.reads_object (reference.readsMembers _) rfl rfl)

end Galley.Article
