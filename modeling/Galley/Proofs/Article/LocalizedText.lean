import Galley.Article.LocalizedText
import Galley.Json.Printer
import Galley.Proofs.Json.Agreement
/-!
# Languages in the order they came

A sequence of steps offers languages a text or none. A language stands where it first was given a
text, and has the last text that it was given.

A step changes the texts in one place only (`languages_insert`, `get?_insert`), so the law holds
along any sequence of steps (`follows_after`). The members of an object are such a sequence.

## Main result

`order_law`.
-/
namespace Galley.Article.LocalizedText

open Galley.Json (Agrees StepsAgree Value agrees_members agrees_optional agrees_string bare
  ofMembers orNull parse skipSpaces takeValue)

/-- The languages, the first one that was given a text in front. -/
def languages (texts : LocalizedText) : List String := texts.entries.map Prod.fst

/-! ### One step -/

/-- A language is given a text, or none, which changes nothing. -/
def give (texts : LocalizedText) (lang : String) : Option String → LocalizedText
  | some text => texts.insert lang text
  | none => texts

@[simp] theorem give_none (texts : LocalizedText) (lang : String) : texts.give lang none = texts :=
  rfl

theorem languages_putEntry (lang text : String) (entries : List (String × String)) :
    (putEntry lang text entries).map Prod.fst =
      if lang ∈ entries.map Prod.fst then entries.map Prod.fst
      else entries.map Prod.fst ++ [lang] := by
  induction entries with
  | nil => simp [putEntry]
  | cons entry rest ih =>
    obtain ⟨key, old⟩ := entry
    rw [putEntry]
    by_cases same : key = lang
    · simp [same]
    · -- the entry is passed over, and the others decide where the language stands
      rw [if_neg same, List.map_cons, ih]
      by_cases known : lang ∈ rest.map Prod.fst
      · simp [known]
      · simp [known, Ne.symm same]

theorem languages_insert (texts : LocalizedText) (lang text : String) :
    (texts.insert lang text).languages =
      if lang ∈ texts.languages then texts.languages else texts.languages ++ [lang] :=
  languages_putEntry lang text texts.entries

theorem get?_insert (texts : LocalizedText) (lang text key : String) :
    (texts.insert lang text).get? key = if key = lang then some text else texts.get? key := by
  change (putEntry lang text texts.entries).lookup key = if key = lang then some text else _
  rw [get?]
  induction texts.entries with
  | nil =>
    by_cases same : key = lang
    · simp [putEntry, same]
    · simp [putEntry, same]
  | cons entry rest ih =>
    obtain ⟨first, old⟩ := entry
    rw [putEntry]
    by_cases found : first = lang
    · -- the text is put here, and what stands behind is not reached for this language
      subst found
      by_cases same : key = first
      · simp [same]
      · have other : (key == first) = false := beq_eq_false_iff_ne.mpr same
        simp [same, List.lookup_cons, other]
    · rw [if_neg found]
      by_cases same : key = first
      · subst same
        simp [found]
      · have other : (key == first) = false := beq_eq_false_iff_ne.mpr same
        simp only [List.lookup_cons, other]
        exact ih

theorem first?_eq (texts : LocalizedText) :
    texts.first? = texts.languages.head?.bind texts.get? := by
  obtain ⟨entries, distinct⟩ := texts
  cases entries with
  | nil => rfl
  | cons entry rest =>
    obtain ⟨key, text⟩ := entry
    simp [first?, languages, get?]

/-! ### Sequences of steps -/

/-- Languages with the texts they are given, `none` where one is not given any. -/
abbrev Steps := List (String × Option String)

/-- What a sequence of steps leaves of texts. -/
def after (texts : LocalizedText) (steps : Steps) : LocalizedText :=
  steps.foldl (fun texts step => texts.give step.1 step.2) texts

/-- How many steps come before the first one that gives a language a text. -/
def firstGiven (steps : Steps) (lang : String) : Nat :=
  steps.findIdx fun step => step.1 == lang && step.2.isSome

def lastGiven? (steps : Steps) (lang : String) : Option String :=
  (steps.filterMap fun step => if step.1 = lang then step.2 else none).getLast?

/-- The language of the first step that gives a text. -/
def earliest? (steps : Steps) : Option String := (steps.find? (·.2.isSome)).map Prod.fst

/-- The texts are what the steps leave: no language stands twice, the languages are those that were
given a text, in the order in which they first were, and each has the last text it was given. -/
structure Follows (steps : Steps) (texts : LocalizedText) : Prop where
  distinct : texts.languages.Nodup
  given : ∀ lang, lang ∈ texts.languages ↔ ∃ text, (lang, some text) ∈ steps
  ordered : texts.languages.Pairwise fun one other =>
    firstGiven steps one < firstGiven steps other
  earliest : texts.languages.head? = earliest? steps
  last : ∀ lang, texts.get? lang = lastGiven? steps lang

theorem follows_empty : Follows [] empty where
  distinct := .nil
  given := by simp [languages, empty]
  ordered := .nil
  earliest := rfl
  last _ := rfl

variable {steps : Steps} {texts : LocalizedText}

theorem lastGiven?_concat (steps : Steps) (lang : String) (text : Option String) (key : String) :
    lastGiven? (steps ++ [(lang, text)]) key =
      if lang = key then text.or (lastGiven? steps key) else lastGiven? steps key := by
  rw [lastGiven?, List.filterMap_append, List.getLast?_append, lastGiven?]
  by_cases same : lang = key
  · cases text <;> simp [same]
  · simp [same]

theorem firstGiven_lt {lang text : String} (member : (lang, some text) ∈ steps) :
    firstGiven steps lang < steps.length :=
  List.findIdx_lt_length_of_exists ⟨_, member, by simp⟩

theorem firstGiven_concat {lang text : String} (member : (lang, some text) ∈ steps)
    (step : String × Option String) :
    firstGiven (steps ++ [step]) lang = firstGiven steps lang := by
  rw [firstGiven, List.findIdx_append]
  exact if_pos (firstGiven_lt member)

theorem firstGiven_concat_new {lang : String} (fresh : ∀ text, (lang, some text) ∉ steps)
    (text : String) : firstGiven (steps ++ [(lang, some text)]) lang = steps.length := by
  -- no earlier step counts, be it for another language or without a text
  have missing : ∀ step ∈ steps, (step.1 == lang && step.2.isSome) = false := by
    rintro ⟨key, text | text⟩ member
    · simp
    · have other : key ≠ lang := by
        rintro rfl
        exact fresh text member
      simp [other]
  rw [firstGiven, List.findIdx_append, List.findIdx_eq_length.mpr missing]
  simp

theorem earliest?_concat (steps : Steps) (lang : String) (text : Option String) :
    earliest? (steps ++ [(lang, text)]) =
      (earliest? steps).or (if text.isSome then some lang else none) := by
  rw [earliest?, List.find?_append, earliest?]
  cases steps.find? (·.2.isSome) <;> cases text <;> rfl

/-- The languages that were there keep their order. -/
theorem Follows.kept (follows : Follows steps texts) (step : String × Option String) :
    texts.languages.Pairwise fun one other =>
      firstGiven (steps ++ [step]) one < firstGiven (steps ++ [step]) other := by
  refine follows.ordered.imp_of_mem fun one other before => ?_
  obtain ⟨_, given⟩ := (follows.given _).mp one
  obtain ⟨_, given'⟩ := (follows.given _).mp other
  rw [firstGiven_concat given, firstGiven_concat given']
  exact before

theorem Follows.insert (follows : Follows steps texts) (lang text : String) :
    Follows (steps ++ [(lang, some text)]) (texts.insert lang text) := by
  have given (key : String) : (∃ t, (key, some t) ∈ steps ++ [(lang, some text)]) ↔
      key ∈ texts.languages ∨ key = lang := by
    rw [follows.given]
    simp only [List.mem_append, List.mem_singleton, Prod.mk.injEq, exists_or]
    simp
  have last (key : String) : (texts.insert lang text).get? key =
      lastGiven? (steps ++ [(lang, some text)]) key := by
    rw [get?_insert, lastGiven?_concat, follows.last]
    simp [eq_comm]
  by_cases known : lang ∈ texts.languages
  · -- the language has its place already
    have same : (texts.insert lang text).languages = texts.languages := by
      rw [languages_insert, if_pos known]
    refine ⟨(texts.insert lang text).distinct, fun key => ?_, same ▸ follows.kept _, ?_, last⟩
    · rw [same, given, or_iff_left_of_imp]
      rintro rfl
      exact known
    · rw [same, earliest?_concat, ← follows.earliest]
      cases found : texts.languages with
      | nil => rw [found] at known; cases known
      | cons => rfl
  · -- the language is new and comes last
    have new : (texts.insert lang text).languages = texts.languages ++ [lang] := by
      rw [languages_insert, if_neg known]
    have fresh : ∀ t, (lang, some t) ∉ steps := by
      intro t member
      exact known ((follows.given lang).mpr ⟨t, member⟩)
    refine ⟨(texts.insert lang text).distinct, fun key => ?_, ?_, ?_, last⟩
    · rw [new, given, List.mem_append, List.mem_singleton]
    · rw [new, List.pairwise_append]
      refine ⟨follows.kept _, List.pairwise_singleton _ _, fun key member other same => ?_⟩
      -- whatever was given before comes before the new step
      obtain ⟨_, before⟩ := (follows.given key).mp member
      rw [List.mem_singleton] at same
      rw [same, firstGiven_concat before, firstGiven_concat_new fresh]
      exact firstGiven_lt before
    · rw [new, earliest?_concat, ← follows.earliest, List.head?_append]
      rfl

/-- A step keeps the law. -/
theorem Follows.give (follows : Follows steps texts) (lang : String) (text : Option String) :
    Follows (steps ++ [(lang, text)]) (texts.give lang text) := by
  cases text with
  | some text => exact follows.insert lang text
  | none =>
    -- the texts stay, and every reading of the steps passes over the new one
    rw [give_none]
    refine ⟨follows.distinct, fun key => ?_, follows.kept _, ?_, fun key => ?_⟩
    · simpa using follows.given key
    · rw [earliest?_concat, ← follows.earliest]
      simp
    · rw [follows.last, lastGiven?_concat]
      simp

theorem follows_after (follows : Follows steps texts) (more : Steps) :
    Follows (steps ++ more) (texts.after more) := by
  -- the steps so far grow by one each time, and the law moves on with them
  induction more generalizing steps texts with
  | nil => simpa [after] using follows
  | cons step rest ih =>
    have next := ih (follows.give step.1 step.2)
    rw [List.append_assoc, List.singleton_append] at next
    exact next

/-! ### Reading -/

/-- An object in which each language is given a text or `null`. -/
def spelled (steps : Steps) : Value :=
  .object (steps.map fun step => (step.1, Value.ofText? step.2))

/-- The values that spell texts in several languages. -/
inductive Spells : Value → LocalizedText → Prop
  | null : Spells .null empty
  | object (steps : Steps) : Spells (spelled steps) (empty.after steps)

/-- What a member does to the texts. -/
def step (texts : LocalizedText) (lang : String) (v : Value) : Option LocalizedText :=
  (orNull Value.string? v).map (texts.give lang)

theorem stepsAgree : StepsAgree accept step := fun texts lang =>
  ⟨_, rfl, (agrees_optional agrees_string).map (texts.give lang)⟩

theorem orNull_string?_eq_some {v : Value} {text : Option String} :
    orNull Value.string? v = some text ↔ v = Value.ofText? text := by
  constructor
  · intro means
    cases v with
    | null | string => cases means; rfl
    | bool | number | array | object => cases means
  · rintro rfl
    cases text <;> rfl

theorem foldlM_step_eq_some {members : List (String × Value)} {read : LocalizedText} :
    members.foldlM (fun texts member => step texts member.1 member.2) texts = some read ↔
      ∃ steps : Steps, members = steps.map (fun step => (step.1, Value.ofText? step.2)) ∧
        texts.after steps = read := by
  induction members generalizing texts with
  | nil =>
    constructor
    · intro means
      cases means
      exact ⟨[], rfl, rfl⟩
    · rintro ⟨steps, same, rfl⟩
      rw [List.map_eq_nil_iff.mp same.symm]
      rfl
  | cons member rest ih =>
    obtain ⟨lang, v⟩ := member
    rw [List.foldlM_cons]
    -- the first member is the first step, and the induction gives the others
    constructor
    · intro means
      obtain ⟨next, one, means⟩ := Option.bind_eq_some_iff.mp means
      obtain ⟨text, spells, rfl⟩ := Option.map_eq_some_iff.mp one
      obtain ⟨steps, rfl, rfl⟩ := ih.mp means
      obtain rfl : v = Value.ofText? text := orNull_string?_eq_some.mp spells
      exact ⟨(lang, text) :: steps, rfl, rfl⟩
    · rintro ⟨steps, same, rfl⟩
      obtain ⟨one, others, rfl, here, there⟩ := List.map_eq_cons_iff.mp same.symm
      cases here
      have means : step texts one.1 (Value.ofText? one.2) = some (texts.give one.1 one.2) := by
        rw [step, orNull_string?_eq_some.mpr rfl]
        rfl
      exact Option.bind_eq_some_iff.mpr ⟨_, means, ih.mpr ⟨others, there.symm, rfl⟩⟩

variable {depth : Nat} {cs rest : List Char}

theorem reader_ok_iff {read : LocalizedText} : bare (reader depth cs) = .ok (read, rest) ↔
    bare (Json.Reader.map (·.getD empty)
      (Json.optional (Json.members accept empty described)) depth cs) = .ok (read, rest) := by
  cases starts : skipSpaces cs with
  | nil =>
    simp only [reader, Json.bare_map, Json.bare_optional, starts]
    simp [bare, Except.map]
  | cons c inner =>
    by_cases null : c = 'n'
    · simp only [reader, starts, if_pos null]
    · -- behind any other letter the members are read as they are
      have reads : bare (Json.Reader.map (·.getD empty)
          (Json.optional (Json.members accept empty described)) depth cs) =
            bare (Json.members accept empty described depth cs) := by
        rw [Json.bare_map, Json.bare_optional]
        simp only [starts, if_neg null]
        cases bare (Json.members accept empty described depth cs) <;> rfl
      rw [reads]
      simp only [reader, starts, if_neg null]
      by_cases bracket : c = '['
      · -- a list is refused either way
        subst bracket
        refine iff_of_false ?_ ?_
        · rw [if_pos rfl]
          split
          · nofun
          · unfold Json.faultInList
            split <;> nofun
        · rw [Json.bare_members]
          simp only [starts]
          exact Json.bare_refuse_ne_ok _ _
      · rw [if_neg bracket]

/-- The texts that a value spells. -/
def ofValue? (v : Value) : Option LocalizedText :=
  (orNull (ofMembers step empty) v).map (·.getD empty)

theorem agrees_reader : Agrees reader ofValue? := by
  intro depth cs read rest
  rw [reader_ok_iff]
  exact (agrees_optional (agrees_members stepsAgree empty described)).map _ depth cs read rest

theorem ofValue?_eq_some_iff {v : Value} {read : LocalizedText} :
    ofValue? v = some read ↔ Spells v read := by
  constructor
  · intro means
    obtain ⟨found, meant, rfl⟩ := Option.map_eq_some_iff.mp means
    cases v with
    | null =>
      cases meant
      exact .null
    | bool | number | string | array => cases meant
    | object members =>
      obtain ⟨read, fold, rfl⟩ := Option.map_eq_some_iff.mp meant
      obtain ⟨steps, rfl, rfl⟩ := foldlM_step_eq_some.mp fold
      exact .object steps
  · intro spells
    cases spells with
    | null => rfl
    | object steps =>
      have fold : ofMembers step empty (spelled steps) = some (empty.after steps) :=
        foldlM_step_eq_some.mpr ⟨steps, rfl, rfl⟩
      exact Option.map_eq_some_iff.mpr ⟨_, Option.map_eq_some_iff.mpr ⟨_, fold, rfl⟩, rfl⟩

theorem ofText_ok_iff {text : String} {read : LocalizedText} :
    ofText text = .ok read ↔ ∃ v, parse text = .ok v ∧ Spells v read := by
  simp only [ofText, Json.decode_ok_iff_parse agrees_reader, ofValue?_eq_some_iff]

/-! ### Main theorem -/

/-- Steps that give a text each. -/
def giving (pairs : List (String × String)) : Steps := pairs.map fun pair => (pair.1, some pair.2)

theorem foldl_insert (texts : LocalizedText) (pairs : List (String × String)) :
    pairs.foldl (fun texts pair => texts.insert pair.1 pair.2) texts =
      texts.after (giving pairs) := by
  rw [after, giving, List.foldl_map]
  rfl

theorem Follows.first? (follows : Follows steps texts) :
    texts.first? = (earliest? steps).bind (lastGiven? steps) := by
  rw [first?_eq, follows.earliest]
  exact congrArg _ (funext follows.last)

/-- **Texts keep the order of their languages.** Wherever texts in several languages are read, a
value is read that spells them: null, for none, or an object of texts and nulls in any order and
number. What the members of an object and any texts that are put in later leave follows the order in
which languages were first given a text, with the last text of each, and is shown so. Pairs in a
list leave the same as in an object. -/
theorem order_law :
    (∀ depth cs read rest, bare (reader depth cs) = .ok (read, rest) ↔
      ∃ v, bare (takeValue depth cs) = .ok (v, rest) ∧ Spells v read) ∧
    (∀ text read, ofText text = .ok read ↔ ∃ v, parse text = .ok v ∧ Spells v read) ∧
    (∀ (steps : Steps) (pairs : List (String × String)),
      let texts := pairs.foldl (fun texts pair => texts.insert pair.1 pair.2) (empty.after steps)
      let all := steps ++ giving pairs
      Follows all texts ∧ texts.first? = (earliest? all).bind (lastGiven? all) ∧
        ∀ lang, texts.getOrFirst? lang = (lastGiven? all lang).or texts.first?) ∧
    ∀ text pairs, parse text = .ok (spelled (giving pairs)) → ofText text = .ok (ofList pairs) := by
  refine ⟨?_, fun _ _ => ofText_ok_iff, ?_, ?_⟩
  · intro depth cs read rest
    simp only [agrees_reader depth, ofValue?_eq_some_iff]
  · intro steps pairs
    -- the members come first, and what is put in later continues them
    have follows := follows_after (follows_after follows_empty steps) (giving pairs)
    rw [List.nil_append, ← foldl_insert] at follows
    refine ⟨follows, follows.first?, fun lang => ?_⟩
    rw [getOrFirst?, follows.last]
  · intro text pairs spells
    have left : ofList pairs = empty.after (giving pairs) := foldl_insert empty pairs
    rw [left]
    exact ofText_ok_iff.mpr ⟨_, spells, .object _⟩

/-- A language that comes first with a null, and one that comes twice. -/
def repeated : String :=
  "\x7b\"fr\":null,\"de\":\"a\",\"en\":\"b\",\"de\":\"c\",\"fr\":\"d\",\"en\":null\x7d"

def repeatedSteps : Steps :=
  [("fr", none), ("de", some "a"), ("en", some "b"), ("de", some "c"), ("fr", some "d"),
    ("en", none)]

theorem order_law_repeated :
    ofText repeated = .ok (empty.after repeatedSteps) ∧
      (let texts := ((empty.after repeatedSteps).insert "en" "e").insert "it" "f"
      texts.entries = [("de", "c"), ("en", "e"), ("fr", "d"), ("it", "f")] ∧
        texts.get? "de" = some "c" ∧ texts.getOrFirst? "pt" = some "c") ∧
      ofText "\x7b\"de\":\"a\",\"de\":\"b\"\x7d" = .ok (ofList [("de", "a"), ("de", "b")]) := by
  obtain ⟨-, reads, law, pairs⟩ := order_law
  have spells : parse repeated = .ok (spelled repeatedSteps) := by with_unfolding_all rfl
  obtain ⟨follows, first, shown⟩ := law repeatedSteps [("en", "e"), ("it", "f")]
  refine ⟨(reads _ _).mpr ⟨_, spells, .object _⟩,
    ⟨by decide +kernel, (follows.last "de").trans (by decide +kernel), ?_⟩,
    pairs _ [("de", "a"), ("de", "b")] (by with_unfolding_all rfl)⟩
  exact (shown "pt").trans (first.trans (by decide +kernel))

end Galley.Article.LocalizedText
