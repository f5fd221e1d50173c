import Galley.Proofs.Export.Steps
import Galley.Proofs.Host.Subtree
/-!
# File names of artifacts

A file name is made of safe characters and one dot, so it names an entry of the directory that it
is seen from, whatever the article and the language are called. Underscores join its parts. Where no
part has an underscore of its own, cutting there gives the parts back; only the parts of a PDF that
the paged-media engine makes are one more.

## Main result

`fileName_safe_and_distinct`: no file name leads out of a directory, and names made of letters,
digits and hyphens tell artifacts apart.
-/
namespace Galley.Export

open Galley.Host (Action Exchange FileTree Location)
open Galley.Host.Action (Dialogue)

theorem isSafe_of_mem_safePart {text : String} {c : Char} (member : c ∈ (safePart text).toList) :
    isSafe c = true := by
  rw [safePart, String.toList_ofList, List.mem_map] at member
  obtain ⟨d, -, rfl⟩ := member
  split
  next safe => exact safe
  · decide

theorem Kind.mem_all (kind : Kind) : kind ∈ Kind.all := by
  cases kind with
  | pdf engine => cases engine <;> decide
  | _ => decide

theorem isSafe_of_mem_suffix {kind : Kind} {c : Char} (member : c ∈ kind.suffix.toList) :
    isSafe c = true := by
  have safe : Kind.all.all (·.suffix.toList.all isSafe) = true := by decide
  exact List.all_eq_true.mp (List.all_eq_true.mp safe kind kind.mem_all) c member

/-- Only the dot in front of the extension is no safe character. -/
theorem exists_toList_fileName (id lang : String) (kind : Kind) :
    ∃ front, (fileName id lang kind).toList =
        "article_".toList ++ front ++ '.' :: kind.suffix.toList ∧
      ∀ c ∈ front, isSafe c = true := by
  have variant : (variantPart kind).toList.all isSafe = true := by
    unfold variantPart
    split <;> decide
  refine ⟨(safePart id).toList ++ '_' :: ((safePart lang).toList ++ (variantPart kind).toList),
    by simp [fileName], fun c member => ?_⟩
  simp only [List.mem_append, List.mem_cons] at member
  obtain member | rfl | member | member := member
  · exact isSafe_of_mem_safePart member
  · decide
  · exact isSafe_of_mem_safePart member
  · exact List.all_eq_true.mp variant c member

/-- The path of an artifact leads into no other directory. -/
theorem eq_append_of_locate_fileName {tree : FileTree} {current location : Location}
    {id lang : String} {kind : Kind}
    (located : tree.locate current (fileName id lang kind) = .ok location) :
    location = current ++ [fileName id lang kind] := by
  obtain ⟨front, chars, safe⟩ := exists_toList_fileName id lang kind
  have slash : '/' ∉ (fileName id lang kind).toList := by
    have never : ¬ isSafe '/' = true := by decide
    simp only [chars, List.mem_append, List.mem_cons, not_or]
    exact ⟨⟨by decide, fun member => never (safe _ member)⟩, by decide,
      fun member => never (isSafe_of_mem_suffix member)⟩
  have first : (fileName id lang kind).toList.head? = some 'a' := by rw [chars]; rfl
  obtain ⟨busy, down⟩ := FileTree.busy_of_head? first (by decide)
  exact FileTree.eq_append_of_locate_name slash busy down located

/-- Whatever an artifact is made of, its name is that of its article, language and kind. -/
theorem fileName_of_make {config : Config} {article : Article} {lang : String} {kind : Kind}
    {log : List Exchange} {artifact : Artifact}
    (told : Dialogue (make config article lang kind) log (.ok artifact)) :
    artifact.fileName = fileName article.id lang kind := by
  obtain ⟨here, bytes, later, -, -, ends⟩ | ⟨fault, -, never⟩ :=
    Action.dialogue_bind_exceptT_iff.mp told
  · obtain ⟨-, same⟩ := dialogue_pure_step_iff.mp ends
    cases same
    rfl
  · cases never

/-! ### The characters of a name -/

/-- ASCII letters and digits, the hyphen and the underscore. -/
def IsNameChar (c : Char) : Prop :=
  'a' ≤ c ∧ c ≤ 'z' ∨ 'A' ≤ c ∧ c ≤ 'Z' ∨ '0' ≤ c ∧ c ≤ '9' ∨ c = '-' ∨ c = '_'

instance (c : Char) : Decidable (IsNameChar c) := inferInstanceAs (Decidable (_ ∨ _))

/-- A name that starts like those of artifacts, whose one dot is in front of a suffix. -/
structure IsArtifactName (suffix name : String) : Prop where
  starts : "article_".toList <+: name.toList
  ends : '.' :: suffix.toList <:+ name.toList
  chars : ∀ c ∈ name.toList, IsNameChar c ∨ c = '.'
  dots : name.toList.count '.' = 1

theorem isSafe_iff {c : Char} : isSafe c = true ↔ IsNameChar c := by
  unfold isSafe IsNameChar
  delta Char.isAlphanum Char.isAlpha Char.isUpper Char.isLower Char.isDigit
  simp only [Bool.or_eq_true, Bool.and_eq_true, decide_eq_true_eq, beq_iff_eq]
  tauto

theorem isArtifactName_fileName (id lang : String) (kind : Kind) :
    IsArtifactName kind.suffix (fileName id lang kind) := by
  obtain ⟨front, chars, safe⟩ := exists_toList_fileName id lang kind
  have dot : ¬ isSafe '.' = true := by decide
  have start : "article_".toList.all isSafe = true := by decide
  refine ⟨?_, ?_, ?_, ?_⟩
  · rw [chars, List.append_assoc]
    exact List.prefix_append _ _
  · rw [chars]
    exact List.suffix_append _ _
  · simp only [chars, List.mem_append, List.mem_cons]
    rintro c ((early | middle) | rfl | late)
    · exact Or.inl (isSafe_iff.mp (List.all_eq_true.mp start c early))
    · exact Or.inl (isSafe_iff.mp (safe c middle))
    · exact Or.inr rfl
    · exact Or.inl (isSafe_iff.mp (isSafe_of_mem_suffix late))
  · have before : "article_".toList.count '.' = 0 ∧ front.count '.' = 0 :=
      ⟨by decide, List.count_eq_zero.mpr fun member => dot (safe _ member)⟩
    have behind : kind.suffix.toList.count '.' = 0 :=
      List.count_eq_zero.mpr fun member => dot (isSafe_of_mem_suffix member)
    rw [chars, List.count_append, List.count_append, List.count_cons_self, before.1, before.2,
      behind]

/-! ### The parts of a name -/

/-- A text of ASCII letters, digits and hyphens. -/
def IsPlain (text : String) : Prop := ∀ c ∈ text.toList, IsNameChar c ∧ c ≠ '_'

instance (text : String) : Decidable (IsPlain text) := List.decidableBAll _ _

theorem safePart_of_isPlain {text : String} (plain : IsPlain text) : safePart text = text := by
  have kept : text.toList.map (fun c => if isSafe c then c else '_') = text.toList := by
    refine (List.map_congr_left fun c member => ?_).trans (List.map_id _)
    exact if_pos (isSafe_iff.mpr (plain c member).1)
  rw [safePart, kept, String.ofList_toList]

theorem variantPart_cases (kind : Kind) : variantPart kind = "" ∨ variantPart kind = "_paged" := by
  unfold variantPart
  split
  · exact Or.inr rfl
  · exact Or.inl rfl

/-- Kinds that share a suffix differ in what tells apart the ways to a PDF. -/
theorem kind_eq_of_parts {kind other : Kind} (variant : variantPart kind = variantPart other)
    (suffix : kind.suffix = other.suffix) : kind = other := by
  have apart : ∀ kind ∈ Kind.all, ∀ other ∈ Kind.all, variantPart kind = variantPart other →
      kind.suffix = other.suffix → kind = other := by
    decide
  exact apart kind kind.mem_all other other.mem_all variant suffix

/-- What stands between the start of a name and its dot. -/
def middle (id lang : String) (kind : Kind) : List Char :=
  id.toList ++ '_' :: (lang.toList ++ (variantPart kind).toList)

section

variable {id lang : String} (plainId : IsPlain id) (plainLang : IsPlain lang)
include plainId plainLang

theorem toList_fileName_of_isPlain (kind : Kind) :
    (fileName id lang kind).toList =
      "article_".toList ++ (middle id lang kind ++ '.' :: kind.suffix.toList) := by
  have joint : "_".toList = ['_'] ∧ ".".toList = ['.'] := by decide
  simp only [fileName, safePart_of_isPlain plainId, safePart_of_isPlain plainLang,
    String.toList_append, joint, middle, List.append_assoc, List.cons_append, List.nil_append]

/-- Cut at its underscores, it is the parts that the name was made of. -/
theorem splitAt_middle (kind : Kind) :
    Text.splitAt '_' (middle id lang kind) =
      id.toList :: lang.toList :: if variantPart kind = "" then [] else ["paged".toList] := by
  have inId : '_' ∉ id.toList := fun member => (plainId _ member).2 rfl
  have inLang : '_' ∉ lang.toList := fun member => (plainLang _ member).2 rfl
  rw [middle, Text.splitAt_append inId]
  obtain none | paged := variantPart_cases kind
  · rw [none, if_pos rfl, String.toList_empty, List.append_nil, Text.splitAt_of_not_mem inLang]
  · have shown : "_paged".toList = '_' :: "paged".toList := by decide
    have rest : '_' ∉ "paged".toList := by decide
    rw [paged, if_neg (by decide), shown, Text.splitAt_append inLang, Text.splitAt_of_not_mem rest]

theorem dot_not_mem_middle (kind : Kind) : '.' ∉ middle id lang kind := by
  have dot : ¬ IsNameChar '.' := by simp [← isSafe_iff, isSafe]
  have variant : '.' ∉ (variantPart kind).toList := by
    obtain none | paged := variantPart_cases kind
    · simp [none]
    · simp [paged]
  simp only [middle, List.mem_append, List.mem_cons, not_or]
  exact ⟨fun member => dot (plainId _ member).1, by decide,
    fun member => dot (plainLang _ member).1, variant⟩

/-- Plain names tell apart what they are made of. -/
theorem eq_of_fileName_eq {id' lang' : String} (plainId' : IsPlain id') (plainLang' : IsPlain lang')
    {kind kind' : Kind} (same : fileName id lang kind = fileName id' lang' kind') :
    id = id' ∧ lang = lang' ∧ kind = kind' := by
  have chars := congrArg String.toList same
  rw [toList_fileName_of_isPlain plainId plainLang, toList_fileName_of_isPlain plainId' plainLang',
    List.append_cancel_left_eq] at chars
  have dot : ¬ isSafe '.' = true := by decide
  -- there is one dot in a name, so both names have it at the same place
  obtain ⟨middles, -, suffixes⟩ := (List.append_cons_inj_of_notMem
    (dot_not_mem_middle plainId plainLang kind)
    (fun member => dot (isSafe_of_mem_suffix member))).mp chars
  have parts := congrArg (Text.splitAt '_') middles
  rw [splitAt_middle plainId plainLang, splitAt_middle plainId' plainLang', List.cons.injEq,
    List.cons.injEq] at parts
  obtain ⟨ids, langs, variants⟩ := parts
  have variant : variantPart kind = variantPart kind' := by
    obtain none | paged := variantPart_cases kind
    · obtain none' | paged' := variantPart_cases kind'
      · rw [none, none']
      · simp [none, paged'] at variants
    · obtain none' | paged' := variantPart_cases kind'
      · simp [paged, none'] at variants
      · rw [paged, paged']
  exact ⟨String.toList_inj.mp ids, String.toList_inj.mp langs,
    kind_eq_of_parts variant (String.toList_inj.mp suffixes)⟩

end

/-! ### Main theorem -/

/-- **File names are safe and distinct.** Whatever the article and the language are called, a file
name has nothing in it but letters, digits, hyphens, underscores and one dot in front of its suffix;
and writing it from a directory puts a file into that directory and changes nothing else. Of article
and language names made of letters, digits and hyphens, different ones, or different kinds, never
share a file name. -/
theorem fileName_safe_and_distinct :
    (∀ (id lang : String) (kind : Kind),
      IsArtifactName kind.suffix (fileName id lang kind) ∧
        ∀ (tree after : FileTree) (current : Location) (bytes : ByteArray),
          tree.write current (fileName id lang kind) bytes = .ok after →
            after.find current (fileName id lang kind) =
                .ok (current ++ [fileName id lang kind], .file bytes) ∧
              ∀ other, other ≠ current ++ [fileName id lang kind] →
                after.labelAt other = tree.labelAt other) ∧
    ∀ (id lang id' lang' : String) (kind kind' : Kind), IsPlain id → IsPlain lang → IsPlain id' →
      IsPlain lang' → fileName id lang kind = fileName id' lang' kind' →
        id = id' ∧ lang = lang' ∧ kind = kind' := by
  refine ⟨fun id lang kind => ⟨isArtifactName_fileName id lang kind, ?_⟩, ?_⟩
  · intro tree after current bytes written
    obtain ⟨location, located, found, same⟩ := FileTree.exists_find_of_write written
    obtain rfl := eq_append_of_locate_fileName located
    exact ⟨found, same⟩
  · intro id lang id' lang' kind kind' plainId plainLang plainId' plainLang' same
    exact eq_of_fileName_eq plainId plainLang plainId' plainLang' same

/-- A directory beside a file that a path could lead up to. -/
def deskBeside : FileTree :=
  .directory [("desk", .directory []), ("x", .file "kept".toUTF8)]

/-- An identifier that is spelled like a path out of the directory stays in it, and the two ways to
a PDF do not meet. -/
theorem fileName_safe_and_distinct_climbing :
    let name := fileName "../x" "\x00" (.pdf .pagedMedia)
    name = "article____x___paged.pdf" ∧ IsArtifactName "pdf" name ∧
      (∃ after, deskBeside.write ["desk"] name "new".toUTF8 = .ok after ∧
        after.find ["desk"] name = .ok (["desk", name], .file "new".toUTF8) ∧
        after.labelAt ["x"] = some (.file "kept".toUTF8)) ∧
      (IsPlain "x-1" ∧ IsPlain "") ∧
      fileName "x-1" "" (.pdf .tex) ≠ fileName "x-1" "" (.pdf .pagedMedia) := by
  intro name
  obtain ⟨safe, distinct⟩ := fileName_safe_and_distinct
  obtain ⟨isName, stays⟩ := safe "../x" "\x00" (.pdf .pagedMedia)
  have spelled : name = "article____x___paged.pdf" := by decide
  have written : deskBeside.write ["desk"] name "new".toUTF8 =
      .ok (deskBeside.set ["desk", name] (some (.file "new".toUTF8))) := by
    rw [spelled]
    rfl
  obtain ⟨found, same⟩ := stays _ _ _ _ written
  have plain : IsPlain "x-1" ∧ IsPlain "" := by decide
  refine ⟨spelled, isName, ⟨_, written, found, same ["x"] (by simp)⟩, plain, fun shared => ?_⟩
  cases (distinct _ _ _ _ _ _ plain.1 plain.2 plain.1 plain.2 shared).2.2

end Galley.Export
