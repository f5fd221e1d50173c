import Galley.Host.FileTree
import Galley.Proofs.Basic
import Galley.Proofs.Text.Split
import Mathlib.Data.List.Basic
import Mathlib.Tactic.SplitIfs
/-!
# Laws of file trees

What putting an entry at a free location does to the rest of a tree. The tree can be had back by
dropping the entry (`HasRoom.set_none`), whatever became of the entry in between
(`HasRoom.set_set`, `HasRoom.set_append`), and paths that led somewhere before lead there still
(`locate_of_keeps`).
-/
namespace Galley.Host.FileTree

/-! ### Entries -/

theorem lookup_putEntry_self (name : String) (entry : FileTree)
    (entries : List (String × FileTree)) :
    lookup name (putEntry name (some entry) entries) = some entry := by
  induction entries with
  | nil => simp [putEntry, lookup]
  | cons first rest ih =>
    obtain ⟨key, old⟩ := first
    by_cases same : key = name
    · simp [putEntry, lookup, same]
    · simp [putEntry, lookup, same, ih]

theorem lookup_putEntry_of_ne {name other : String} (different : other ≠ name)
    (entry : Option FileTree) (entries : List (String × FileTree)) :
    lookup other (putEntry name entry entries) = lookup other entries := by
  induction entries with
  | nil => cases entry <;> simp [putEntry, lookup, Ne.symm different]
  | cons first rest ih =>
    obtain ⟨key, old⟩ := first
    by_cases same : key = name
    · subst same
      cases entry <;> simp [putEntry, lookup, Ne.symm different]
    · simp [putEntry, lookup, same, ih]

theorem putEntry_putEntry (name : String) (first : FileTree) (second : Option FileTree)
    (entries : List (String × FileTree)) :
    putEntry name second (putEntry name (some first) entries) = putEntry name second entries := by
  induction entries with
  | nil => cases second <;> simp [putEntry]
  | cons head rest ih =>
    obtain ⟨key, old⟩ := head
    by_cases same : key = name
    · simp [putEntry, same]
    · simp [putEntry, same, ih]

theorem putEntry_of_lookup_eq {name : String} {entry : Option FileTree}
    {entries : List (String × FileTree)} (found : lookup name entries = entry) :
    putEntry name entry entries = entries := by
  subst found
  induction entries with
  | nil => rfl
  | cons first rest ih =>
    obtain ⟨key, old⟩ := first
    by_cases same : key = name
    · simp [putEntry, lookup, same]
    · simp [putEntry, lookup, same, ih]

/-! ### Locations -/

@[simp] theorem get?_nil (tree : FileTree) : tree.get? [] = some tree := by
  cases tree <;> rfl

theorem get?_cons (tree : FileTree) (name : String) (rest : Location) :
    tree.get? (name :: rest) = (lookup name tree.entries).bind (·.get? rest) := by
  rw [get?]
  cases lookup name tree.entries <;> rfl

theorem get?_append (tree : FileTree) (first second : Location) :
    tree.get? (first ++ second) = (tree.get? first).bind (·.get? second) := by
  induction first generalizing tree with
  | nil => simp
  | cons name first ih => simp [get?_cons, ih, Option.bind_assoc]

/-- What an entry is by itself. -/
inductive Label where
  | file (bytes : ByteArray)
  | directory

def label : FileTree → Label
  | .file bytes => .file bytes
  | .directory _ => .directory

def labelAt (tree : FileTree) (location : Location) : Option Label :=
  (tree.get? location).map label

def HasDirectory (tree : FileTree) (location : Location) : Prop :=
  tree.labelAt location = some .directory

theorem hasDirectory_iff {tree : FileTree} {location : Location} :
    tree.HasDirectory location ↔ ∃ entries, tree.get? location = some (.directory entries) := by
  rw [HasDirectory, labelAt]
  constructor
  · intro isDirectory
    cases found : tree.get? location with
    | none => simp [found] at isDirectory
    | some entry =>
      cases entry with
      | file bytes => simp [found, label] at isDirectory
      | directory entries => exact ⟨entries, rfl⟩
  · rintro ⟨entries, found⟩
    rw [found]
    rfl

theorem set_cons {rest : Location} (more : rest ≠ []) (name : String)
    (entries : List (String × FileTree)) (entry : Option FileTree) :
    (directory entries).set (name :: rest) entry =
      match lookup name entries with
      | some child => directory (putEntry name (some (child.set rest entry)) entries)
      | none => directory entries := by
  cases rest with
  | nil => exact absurd rfl more
  | cons next rest => cases found : lookup name entries <;> simp [set, found]

/-! ### Changing an entry -/

/-- A change below an entry is a change of the entry. -/
theorem set_append {tree child : FileTree} {location rest : Location}
    (found : tree.get? location = some child) (more : rest ≠ []) (entry : Option FileTree) :
    tree.set (location ++ rest) entry = tree.set location (some (child.set rest entry)) := by
  induction location generalizing tree with
  | nil =>
    rw [get?_nil] at found
    obtain rfl := Option.some.inj found
    rw [List.nil_append, set]
    rfl
  | cons name location ih =>
    rw [get?_cons] at found
    obtain ⟨next, here, below⟩ := Option.bind_eq_some_iff.mp found
    cases tree with
    | file => cases here
    | directory entries =>
      replace here : lookup name entries = some next := here
      rw [List.cons_append, set_cons (by simp [more]), here]
      cases location with
      | nil =>
        rw [get?_nil] at below
        obtain rfl := Option.some.inj below
        rfl
      | cons =>
        rw [set_cons (by simp), here]
        simp only [ih below]

theorem get?_set_some {tree old : FileTree} {location : Location}
    (found : tree.get? location = some old) (new : FileTree) :
    (tree.set location (some new)).get? location = some new := by
  induction location generalizing tree with
  | nil => cases tree <;> simp [set]
  | cons name location ih =>
    rw [get?_cons] at found
    obtain ⟨next, here, below⟩ := Option.bind_eq_some_iff.mp found
    cases tree with
    | file => cases here
    | directory entries =>
      cases location with
      | nil => simp [set, get?_cons, FileTree.entries, lookup_putEntry_self]
      | cons =>
        replace here : lookup name entries = some next := here
        rw [set_cons (by simp), here]
        simp [get?_cons _ name, FileTree.entries, lookup_putEntry_self, ih below]

/-- Putting back what is there changes nothing. -/
theorem set_get? (tree : FileTree) (location : Location) :
    tree.set location (tree.get? location) = tree := by
  induction location generalizing tree with
  | nil => cases tree <;> simp [set]
  | cons name location ih =>
    cases tree with
    | file => cases location <;> rfl
    | directory entries =>
      cases location with
      | nil =>
        rw [set, putEntry_of_lookup_eq]
        simp [get?_cons, FileTree.entries]
      | cons next rest =>
        rw [set_cons (by simp)]
        cases here : lookup name entries with
        | none => rfl
        | some child =>
          have below :
              (directory entries).get? (name :: next :: rest) = child.get? (next :: rest) := by
            rw [get?_cons, FileTree.entries, here]
            rfl
          simp only [below, ih, putEntry_of_lookup_eq here]

/-- A change shows nowhere outside of the location that is changed. -/
theorem labelAt_set {tree : FileTree} {location other : Location} (outside : ¬ location <+: other)
    (entry : Option FileTree) : (tree.set location entry).labelAt other = tree.labelAt other := by
  induction location generalizing tree other with
  | nil => exact absurd List.nil_prefix outside
  | cons name location ih =>
    cases tree with
    | file => cases location <;> rfl
    | directory entries =>
      cases other with
      | nil =>
        cases location with
        | nil => simp [labelAt, set, label]
        | cons => rw [set_cons (by simp)]; split <;> simp [labelAt, label]
      | cons first rest =>
        rw [List.cons_prefix_cons] at outside
        cases location with
        | nil =>
          have different : first ≠ name := by
            rintro rfl
            exact outside ⟨rfl, List.nil_prefix⟩
          simp [labelAt, set, get?_cons, FileTree.entries, lookup_putEntry_of_ne different]
        | cons =>
          rw [set_cons (by simp)]
          cases here : lookup name entries with
          | none => rfl
          | some child =>
            simp only [labelAt, get?_cons _ first, FileTree.entries] at ih ⊢
            by_cases same : first = name
            · subst same
              rw [lookup_putEntry_self, here]
              exact ih fun below => outside ⟨rfl, below⟩
            · rw [lookup_putEntry_of_ne same]

/-- There is a directory for an entry at a location, but no such entry. -/
inductive HasRoom : FileTree → Location → Prop
  | here {entries : List (String × FileTree)} {name : String}
    (absent : lookup name entries = none) : HasRoom (.directory entries) [name]
  | inside {entries : List (String × FileTree)} {child : FileTree} {name : String}
    {rest : Location} (found : lookup name entries = some child) (room : HasRoom child rest) :
    HasRoom (.directory entries) (name :: rest)

theorem hasRoom_append {tree : FileTree} {location : Location} {name : String}
    {entries : List (String × FileTree)} (found : tree.get? location = some (.directory entries))
    (absent : lookup name entries = none) : tree.HasRoom (location ++ [name]) := by
  induction location generalizing tree with
  | nil =>
    cases found
    exact .here absent
  | cons first location ih =>
    cases tree with
    | file bytes => cases found
    | directory children =>
      simp only [get?, FileTree.entries] at found
      cases child : lookup first children with
      | none => simp [child] at found
      | some entry =>
        simp only [child] at found
        exact .inside child (ih found)

namespace HasRoom

variable {tree : FileTree} {location : Location}

theorem ne_nil (room : tree.HasRoom location) : location ≠ [] := by
  cases room <;> simp

theorem get?_eq_none (room : tree.HasRoom location) : tree.get? location = none := by
  induction room with
  | here absent => simp [get?_cons, entries, absent]
  | inside found _ ih => simpa [get?_cons, entries, found] using ih

theorem get?_set (room : tree.HasRoom location) (entry : Option FileTree) :
    (tree.set location entry).get? location = entry := by
  induction room with
  | here absent =>
    cases entry with
    | none => simp [set, get?_cons, entries, putEntry_of_lookup_eq absent, absent]
    | some entry => simp [set, get?_cons, entries, lookup_putEntry_self]
  | inside found room ih =>
    simpa [set_cons room.ne_nil, get?_cons, entries, found, lookup_putEntry_self] using ih

theorem set_none (room : tree.HasRoom location) : tree.set location none = tree := by
  induction room with
  | here absent => rw [set, putEntry_of_lookup_eq absent]
  | inside found room ih =>
    simp [set_cons room.ne_nil, found, ih, putEntry_of_lookup_eq found]

theorem set_set (room : tree.HasRoom location) (first second : Option FileTree) :
    (tree.set location first).set location second = tree.set location second := by
  induction room with
  | here absent =>
    cases first with
    | none => simp [set, putEntry_of_lookup_eq absent]
    | some first => simp [set, putEntry_putEntry]
  | inside found room ih =>
    simp [set_cons room.ne_nil, found, lookup_putEntry_self, putEntry_putEntry, ih]

/-- A change below what was put there is a change of what is put there. -/
theorem set_append (room : tree.HasRoom location) (content : FileTree) (name : String)
    (entry : Option FileTree) :
    (tree.set location (some content)).set (location ++ [name]) entry =
      tree.set location (some (content.set [name] entry)) := by
  rw [FileTree.set_append (room.get?_set _) (List.cons_ne_nil name []), room.set_set]

/-- Nothing is below a free location. -/
theorem labelAt_append (room : tree.HasRoom location) (rest : Location) :
    tree.labelAt (location ++ rest) = none := by
  rw [labelAt, get?_append, room.get?_eq_none]
  rfl

theorem hasDirectory_set (room : tree.HasRoom location) (entry : Option FileTree)
    {other : Location} (found : tree.HasDirectory other) :
    (tree.set location entry).HasDirectory other := by
  have outside : ¬ location <+: other := by
    rintro ⟨rest, rfl⟩
    rw [HasDirectory, room.labelAt_append] at found
    cases found
  rwa [HasDirectory, labelAt_set outside]

/-- A new directory is all that is new. -/
theorem labelAt_set_directory (room : tree.HasRoom location) (other : Location) :
    (tree.set location (some (.directory []))).labelAt other = tree.labelAt other ∨
      other = location ∧ tree.labelAt location = none ∧
        (tree.set location (some (.directory []))).labelAt location = some .directory := by
  by_cases outside : location <+: other
  · obtain ⟨rest, rfl⟩ := outside
    have absent := room.labelAt_append
    cases rest with
    | nil =>
      right
      refine ⟨List.append_nil _, by simpa using absent [], ?_⟩
      rw [labelAt, room.get?_set]
      rfl
    | cons name rest =>
      left
      rw [absent, labelAt, get?_append, room.get?_set]
      rfl
  · exact Or.inl (labelAt_set outside _)

end HasRoom

/-- In a directory there is room for what is not there. -/
theorem hasRoom_of_absent {tree : FileTree} {location : Location} {name : String}
    (there : tree.HasDirectory location) (absent : tree.get? (location ++ [name]) = none) :
    tree.HasRoom (location ++ [name]) := by
  obtain ⟨entries, found⟩ := hasDirectory_iff.mp there
  refine hasRoom_append found ?_
  simpa [get?_append, found, get?_cons, FileTree.entries] using absent

/-! ### Following paths -/

/-- From a directory on, a path does not depend on what else there is. -/
theorem follow_cons {tree : FileTree} {location : Location} (there : tree.HasDirectory location)
    (piece : String) (rest : List String) :
    tree.follow location (piece :: rest) =
      if Path.isIdle piece then tree.follow location rest
      else if piece = ".." then tree.follow location.dropLast rest
      else if 255 < piece.utf8ByteSize then .error .nameTooLong
      else if rest.isEmpty then .ok (location ++ [piece])
      else tree.follow (location ++ [piece]) rest := by
  obtain ⟨entries, found⟩ := hasDirectory_iff.mp there
  rw [follow, found]

theorem hasDirectory_of_follow {tree : FileTree} {location reached : Location} {piece : String}
    {rest : List String} (follows : tree.follow location (piece :: rest) = .ok reached) :
    tree.HasDirectory location := by
  rw [follow] at follows
  split at follows
  next entries found => exact hasDirectory_iff.mpr ⟨entries, found⟩
  · cases follows
  · cases follows

theorem follow_append (tree : FileTree) (location : Location) (pieces : List String)
    {rest : List String} (more : rest ≠ []) :
    tree.follow location (pieces ++ rest) =
      tree.follow location pieces >>= fun reached => tree.follow reached rest := by
  induction pieces generalizing location with
  | nil => rfl
  | cons piece pieces ih =>
    rw [List.cons_append, follow, follow]
    split
    · split
      · exact ih location
      · split
        · exact ih location.dropLast
        · split
          · rfl
          -- with more to come no piece is the last, which alone may lead to nothing
          · rw [if_neg (by simp [more]), ih]
            cases pieces with
            | nil => rfl
            | cons => rfl
    · rfl
    · rfl

/-- Paths that led somewhere lead there in every tree that keeps the directories. -/
theorem follow_of_keeps {tree other : FileTree}
    (keeps : ∀ location, tree.HasDirectory location → other.HasDirectory location)
    {location reached : Location} {pieces : List String}
    (follows : tree.follow location pieces = .ok reached) :
    other.follow location pieces = .ok reached := by
  induction pieces generalizing location with
  | nil => exact follows
  | cons piece pieces ih =>
    have there := hasDirectory_of_follow follows
    rw [follow_cons there] at follows
    rw [follow_cons (keeps _ there)]
    split_ifs at follows ⊢ with idle up last
    · exact ih follows
    · exact ih follows
    · exact follows
    · exact ih follows

/-- Where a path starts from. -/
def origin (current : Location) (path : String) : Location :=
  if Path.isAbsolute path then [] else current

theorem locate_eq_ok_iff {tree : FileTree} {current reached : Location} {path : String} :
    tree.locate current path = .ok reached ↔
      path.toList ≠ [] ∧ Char.ofNat 0 ∉ path.toList ∧
        tree.follow (origin current path) (Text.splitOnChar '/' path) = .ok reached := by
  unfold locate
  by_cases empty : path = ""
  · subst empty
    simp
  · rw [if_neg (by simpa using empty)]
    split <;> simp_all [origin]

theorem locate_of_keeps {tree other : FileTree}
    (keeps : ∀ location, tree.HasDirectory location → other.HasDirectory location)
    {current reached : Location} {path : String}
    (located : tree.locate current path = .ok reached) :
    other.locate current path = .ok reached := by
  obtain ⟨nonempty, clean, follows⟩ := locate_eq_ok_iff.mp located
  exact locate_eq_ok_iff.mpr ⟨nonempty, clean, follow_of_keeps keeps follows⟩

/-! ### Paths of entries -/

/-- A name that an entry of a directory can have. -/
def IsName (name : String) : Prop :=
  Path.isIdle name = false ∧ name ≠ ".." ∧ name.utf8ByteSize ≤ 255 ∧ '/' ∉ name.toList ∧
    Char.ofNat 0 ∉ name.toList

instance (name : String) : Decidable (IsName name) := inferInstanceAs (Decidable (_ ∧ _))

theorem busy_of_head? {name : String} {c : Char} (first : name.toList.head? = some c)
    (other : c ≠ '.') : Path.isIdle name = false ∧ name ≠ ".." := by
  have different (text : String) (head : text.toList.head?.getD '.' = '.') : name ≠ text := by
    rintro rfl
    rw [first] at head
    exact other head
  refine ⟨?_, different ".." (by decide)⟩
  simp [Path.isIdle, different "" (by decide), different "." (by decide)]

/-- A name leads on from a directory, and from nothing else. -/
theorem follow_name_iff {tree : FileTree} {location reached : Location} {name : String}
    (isName : IsName name) :
    tree.follow location [name] = .ok reached ↔
      tree.HasDirectory location ∧ reached = location ++ [name] := by
  obtain ⟨busy, down, short, -⟩ := isName
  have leads (there : tree.HasDirectory location) :
      tree.follow location [name] = .ok (location ++ [name]) := by
    rw [follow_cons there, if_neg (by simp [busy]), if_neg down, if_neg (by omega)]
    rfl
  constructor
  · intro follows
    have there := hasDirectory_of_follow follows
    rw [leads there] at follows
    exact ⟨there, (Except.ok.inj follows).symm⟩
  · rintro ⟨there, rfl⟩
    exact leads there

theorem isAbsolute_of_not_mem {path : String} (slash : '/' ∉ path.toList) :
    Path.isAbsolute path = false := by
  unfold Path.isAbsolute
  cases chars : path.toList with
  | nil => rfl
  | cons c rest =>
    have other : c ≠ '/' := by
      rintro rfl
      exact slash (by simp [chars])
    simp [other]

theorem isAbsolute_of_isName {name : String} (isName : IsName name) :
    Path.isAbsolute name = false := by
  obtain ⟨-, -, -, slash, -⟩ := isName
  exact isAbsolute_of_not_mem slash

/-- A joined path is the one of the directory, a slash if there is none, and the name. -/
theorem exists_toList_join {parent name : String} (nonempty : parent.toList ≠ [])
    (isName : IsName name) :
    ∃ front, (Path.join parent name).toList = front ++ '/' :: name.toList ∧
      (parent.toList = front ∨ parent.toList = front ++ ['/']) := by
  unfold Path.join
  rw [if_neg (by simpa [isAbsolute_of_isName isName] using nonempty)]
  split
  next slash =>
    have ends : parent.toList.dropLast ++ ['/'] = parent.toList :=
      List.dropLast_append_getLast? _ (by simpa [Path.endsWithSlash] using slash)
    refine ⟨parent.toList.dropLast, ?_, Or.inr ends.symm⟩
    rw [String.toList_append, ← ends]
    simp
  next => exact ⟨parent.toList, by simp, Or.inl rfl⟩

/-- A name by itself is a path that leads on from where it starts. -/
theorem locate_name {tree : FileTree} {current : Location} {name : String}
    (isName : IsName name) : tree.locate current name = tree.follow current [name] := by
  have relative := isAbsolute_of_isName isName
  obtain ⟨busy, -, -, slash, zero⟩ := isName
  have nonempty : name.isEmpty = false := by
    unfold Path.isIdle at busy
    exact (Bool.or_eq_false_iff.mp busy).1
  rw [locate, if_neg (by simp [nonempty]), if_neg (by simpa using zero),
    if_neg (by simp [relative]), Text.splitOnChar, Text.splitAt_of_not_mem slash]
  simp

/-- The path of an entry leads on by its name from where the rest of the path leads to. -/
theorem locate_join_eq {tree : FileTree} {current location : Location} {parent name : String}
    (located : tree.locate current parent = .ok location) (isName : IsName name) :
    tree.locate current (Path.join parent name) = tree.follow location [name] := by
  obtain ⟨nonempty, clean, follows⟩ := locate_eq_ok_iff.mp located
  obtain ⟨front, joined, parts⟩ := exists_toList_join nonempty isName
  have front_leads : tree.follow (origin current parent)
      ((Text.splitAt '/' front).map String.ofList) = .ok location := by
    rcases parts with same | ends
    · rwa [← same]
    · -- the piece behind the last slash is empty, and leads nowhere
      rw [Text.splitOnChar, ends, Text.splitAt_append_cons, List.map_append,
        follow_append _ _ _ (by simp [Text.splitAt])] at follows
      obtain ⟨there, leads, idles⟩ := bind_eq_ok_iff.mp follows
      change tree.follow there [""] = .ok location at idles
      rw [follow_cons (hasDirectory_of_follow idles), if_pos (by decide)] at idles
      cases idles
      exact leads
  -- joining adds to the end, so the path starts where the one of the directory does
  have same_origin : origin current (Path.join parent name) = origin current parent := by
    unfold origin Path.isAbsolute
    rw [joined]
    rcases parts with same | ends
    · rw [same, List.head?_append_of_ne_nil _ (by rwa [← same])]
    · rw [ends]
      cases front <;> rfl
  obtain ⟨-, -, -, slash, zero⟩ := id isName
  have clean' : Char.ofNat 0 ∉ (Path.join parent name).toList := by
    rw [joined]
    rcases parts with same | ends
    · rw [same] at clean
      simp [clean, zero]
    · simp [ends] at clean
      simp [clean, zero]
  have nonempty' : (Path.join parent name).toList ≠ [] := by simp [joined]
  have leads : tree.locate current (Path.join parent name) =
      tree.follow (origin current parent)
        (Text.splitOnChar '/' (Path.join parent name)) := by
    rw [locate, if_neg (by simpa using nonempty'), if_neg (by simpa using clean'), ← same_origin]
    rfl
  rw [leads, Text.splitOnChar, joined, Text.splitAt_append_cons, Text.splitAt_of_not_mem slash,
    List.map_append, follow_append _ _ _ (by simp), front_leads]
  simp [bind, Except.bind]

/-- The path of an entry leads to where the entry is in the directory that the rest of the path
leads to. -/
theorem locate_join {tree : FileTree} {current location : Location} {parent name : String}
    (located : tree.locate current parent = .ok location) (isName : IsName name)
    {reached : Location} :
    tree.locate current (Path.join parent name) = .ok reached ↔
      tree.HasDirectory location ∧ reached = location ++ [name] := by
  rw [locate_join_eq located isName, follow_name_iff isName]

theorem find_eq_ok_iff {tree : FileTree} {current location : Location} {path : String}
    {entry : FileTree} :
    tree.find current path = .ok (location, entry) ↔
      tree.locate current path = .ok location ∧ tree.get? location = some entry := by
  rw [find, bind_eq_ok_iff]
  constructor
  · rintro ⟨there, located, found⟩
    split at found
    next present here =>
      cases found
      exact ⟨located, here⟩
    · cases found
  · rintro ⟨located, present⟩
    exact ⟨location, located, by rw [present]; rfl⟩

/-- A name does not end in a slash, and so neither does a path with a name at its end. -/
private theorem exists_last_of_isName {name : String} (isName : IsName name) :
    ∃ start last, name.toList = start ++ [last] ∧ last ≠ '/' := by
  obtain ⟨busy, -, -, slash, -⟩ := isName
  rcases List.eq_nil_or_concat name.toList with empty | ⟨start, last, ends⟩
  · rw [String.toList_eq_nil_iff.mp empty] at busy
    cases busy
  · refine ⟨start, last, by simpa using ends, ?_⟩
    rintro rfl
    exact slash (by simp [ends])

theorem withoutSlash_of_endsWithSlash {path : String} (ends : Path.endsWithSlash path = false) :
    Path.withoutSlash path = path := by
  rw [← String.toList_inj, Path.withoutSlash, String.toList_ofList, Text.dropEndWhile]
  rcases List.eq_nil_or_concat path.toList with empty | ⟨start, last, whole⟩
  · rw [empty]
    rfl
  · have other : last ≠ '/' := by simpa [Path.endsWithSlash, whole] using ends
    simp [whole, other]

theorem withoutSlash_append {path name : String} {front : List Char} (isName : IsName name)
    (ends : path.toList = front ++ name.toList) :
    Path.withoutSlash path = path ∧ Path.endsWithSlash path = false ∧ path.isEmpty = false := by
  obtain ⟨start, last, whole, other⟩ := exists_last_of_isName isName
  rw [whole] at ends
  have busy : Path.endsWithSlash path = false := by simp [Path.endsWithSlash, ends, other]
  have more : path.toList ≠ [] := by simp [ends]
  exact ⟨withoutSlash_of_endsWithSlash busy, busy, by simpa using more⟩

/-- Writing a file of a directory puts it there. -/
theorem write_join {tree after : FileTree} {current location : Location} {parent name : String}
    {bytes : ByteArray} (located : tree.locate current parent = .ok location)
    (isName : IsName name)
    (written : tree.write current (Path.join parent name) bytes = .ok after) :
    tree.HasDirectory location ∧ after = tree.set (location ++ [name]) (some (.file bytes)) := by
  have nonempty := (locate_eq_ok_iff.mp located).1
  obtain ⟨front, joined, -⟩ := exists_toList_join nonempty isName
  obtain ⟨whole, down, kept⟩ := withoutSlash_append isName
    (joined.trans (List.append_cons front '/' name.toList))
  rw [write, bind_eq_ok_iff] at written
  obtain ⟨there, reached, written⟩ := written
  simp only [locateNew, whole, kept, Bool.false_eq_true, if_false] at reached
  obtain ⟨isDirectory, rfl⟩ := (locate_join located isName).mp reached
  refine ⟨isDirectory, ?_⟩
  simp only [down, Bool.false_eq_true, if_false] at written
  split at written
  · cases written
  · cases written
    rfl

/-! ### Making directories -/

/-- The locations that the pieces of a path lead through. -/
def passed (location : Location) : List String → List Location
  | [] => []
  | piece :: rest =>
    if Path.isIdle piece then passed location rest
    else if piece = ".." then passed location.dropLast rest
    else (location ++ [piece]) :: passed (location ++ [piece]) rest

theorem passed_subset_append (location : Location) (pieces rest : List String) :
    passed location pieces ⊆ passed location (pieces ++ rest) := by
  induction pieces generalizing location with
  | nil => simp [passed]
  | cons piece pieces ih =>
    rw [List.cons_append, passed, passed]
    split
    · exact ih location
    · split
      · exact ih location.dropLast
      · exact List.cons_subset_cons _ (ih _)

/-- Making directories leaves all else as it is. -/
theorem labelAt_makeAlong {tree after : FileTree} {location : Location} {pieces : List String}
    (made : tree.makeAlong location pieces = .ok after) (other : Location) :
    after.labelAt other = tree.labelAt other ∨
      other ∈ passed location pieces ∧ tree.labelAt other = none ∧
        after.labelAt other = some .directory := by
  induction pieces generalizing tree location with
  | nil =>
    cases made
    exact Or.inl rfl
  | cons piece pieces ih =>
    rw [makeAlong] at made
    rw [passed]
    split at made
    next idle => simpa only [if_pos idle] using ih made
    next busy =>
      rw [if_neg busy]
      split at made
      next up => simpa only [if_pos up] using ih made
      next down =>
        rw [if_neg down]
        split at made
        · cases made
        have further (tree : FileTree)
            (made : tree.makeAlong (location ++ [piece]) pieces = .ok after) :
            after.labelAt other = tree.labelAt other ∨
              other ∈ (location ++ [piece]) :: passed (location ++ [piece]) pieces ∧
                tree.labelAt other = none ∧ after.labelAt other = some .directory :=
          (ih made).imp_right fun ⟨member, new⟩ => ⟨List.mem_cons_of_mem _ member, new⟩
        cases found : tree.get? (location ++ [piece]) with
        | some entry =>
          simp only [found] at made
          cases entry with
          | file bytes => cases made
          | directory entries => exact further tree made
        | none =>
          simp only [found] at made
          split at made
          next entries here =>
            have room := hasRoom_of_absent (hasDirectory_iff.mpr ⟨entries, here⟩) found
            have later := further _ made
            -- the directory is new here, and those that are made after it leave it
            rcases room.labelAt_set_directory other with unchanged | ⟨rfl, absent, present⟩
            · rwa [unchanged] at later
            · rcases later with unchanged | ⟨-, never, -⟩
              · exact Or.inr ⟨List.mem_cons_self, absent, by rw [unchanged, present]⟩
              · rw [present] at never
                cases never
          next => cases made

end Galley.Host.FileTree
