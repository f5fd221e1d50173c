import Galley.Json.Reader
import Galley.Json.Printer
/-!
# Text in several languages

A text per language, in the order in which the languages were first given a text. Giving a language
another text keeps its place.
-/
namespace Galley.Article

/-- Languages with their texts; no language stands twice. -/
structure LocalizedText where
  entries : List (String × String)
  distinct : (entries.map Prod.fst).Nodup
deriving DecidableEq, Repr

namespace LocalizedText

def empty : LocalizedText := ⟨[], List.nodup_nil⟩

instance : Inhabited LocalizedText := ⟨empty⟩

/-- Puts a text in its language's place, or at the end. -/
def putEntry (lang text : String) : List (String × String) → List (String × String)
  | [] => [(lang, text)]
  | (key, old) :: rest =>
    if key = lang then (key, text) :: rest else (key, old) :: putEntry lang text rest

theorem mem_languages_putEntry {lang text key : String} {entries : List (String × String)} :
    key ∈ (putEntry lang text entries).map Prod.fst ↔ key = lang ∨ key ∈ entries.map Prod.fst := by
  induction entries with
  | nil => simp [putEntry]
  | cons entry rest ih =>
    obtain ⟨first, old⟩ := entry
    simp only [putEntry]
    split
    · next same => subst same; simp
    · simp only [List.map_cons, List.mem_cons, ih]
      constructor <;> rintro (h | h | h) <;> simp [h]

theorem nodup_putEntry {lang text : String} {entries : List (String × String)}
    (distinct : (entries.map Prod.fst).Nodup) :
    ((putEntry lang text entries).map Prod.fst).Nodup := by
  induction entries with
  | nil => simp [putEntry]
  | cons entry rest ih =>
    obtain ⟨first, old⟩ := entry
    simp only [List.map_cons, List.nodup_cons] at distinct
    simp only [putEntry]
    split
    · simpa using distinct
    · next other =>
      simp only [List.map_cons, List.nodup_cons, mem_languages_putEntry]
      exact ⟨fun h => h.elim other distinct.1, ih distinct.2⟩

/-- Gives a language a text, the last one it is given. -/
def insert (texts : LocalizedText) (lang text : String) : LocalizedText :=
  ⟨putEntry lang text texts.entries, nodup_putEntry texts.distinct⟩

/-- The texts that a sequence of languages and texts leaves. -/
def ofList (pairs : List (String × String)) : LocalizedText :=
  pairs.foldl (fun texts pair => texts.insert pair.1 pair.2) empty

def toList (texts : LocalizedText) : List (String × String) := texts.entries

def get? (texts : LocalizedText) (lang : String) : Option String := texts.entries.lookup lang

/-- The text of the language that was given one first. -/
def first? (texts : LocalizedText) : Option String := texts.entries.head?.map Prod.snd

/-- The text of a language, or else of the first one. -/
def getOrFirst? (texts : LocalizedText) (lang : String) : Option String :=
  (texts.get? lang).or texts.first?

def size (texts : LocalizedText) : Nat := texts.entries.length

def isEmpty (texts : LocalizedText) : Bool := texts.entries.isEmpty

/-! ### JSON -/

def toJson (texts : LocalizedText) : Json.Value :=
  .object (texts.entries.map fun entry => (entry.1, .string entry.2))

/-- What messages call the value that is wanted. -/
def described : String := "a map of language code to text"

/-- A language with `null` for a text was not given one. -/
def accept (texts : LocalizedText) (lang : String) :
    Except Json.Cause (Json.Reader LocalizedText) :=
  .ok (Json.Reader.map
    (fun | some text => texts.insert lang text | none => texts) (Json.optional Json.string))

/-- Reads a map of languages to texts; `null` is the empty one. -/
def reader : Json.Reader LocalizedText := fun depth cs =>
  match Json.skipSpaces cs with
  | [] => .error ⟨.endInValue, 0⟩
  | c :: rest =>
    if c = 'n' then
      Json.Reader.map (fun found => found.getD empty)
        (Json.optional (Json.members accept empty described)) depth cs
    else if c = '[' then
      if depth = 0 then Json.faultPast .tooDeep (c :: rest)
      else Json.faultInList (.wrongType .sequence described) rest
    else Json.members accept empty described depth cs

def ofText (text : String) : Except Json.Fault LocalizedText := Json.decode reader text

end LocalizedText
end Galley.Article
