import Galley.Proofs.Host.FileTree
/-!
# Parts of a file tree

What is done to the files of a directory could be done in the directory alone (`read_join`,
`write_join_eq`), and its other entries do not notice (`Holds.set_of_ne`). Paths see no more of a
tree than the labels on their trail (`read_congr`), and a tree that has directories made before is
not changed by making them again (`makeDirectories_again`). Writing changes the one entry that the
path leads to (`exists_find_of_write`).
-/
namespace Galley.Host.FileTree

/-! ### Dropping a name -/

theorem putEntry_none_comm {name other : String} (different : other ≠ name)
    (entry : Option FileTree) (entries : List (String × FileTree)) :
    putEntry name none (putEntry other entry entries) =
      putEntry other entry (putEntry name none entries) := by
  induction entries with
  | nil => cases entry <;> simp [putEntry, different]
  | cons first rest ih =>
    obtain ⟨key, old⟩ := first
    by_cases same : key = name
    · subst same
      cases entry <;> simp [putEntry, Ne.symm different]
    · by_cases here : key = other
      · subst here
        cases entry <;> simp [putEntry, same]
      · simp [putEntry, same, here, ih]

/-- A directory has this entry with a name, or none, and no second one. -/
def Holds (tree : FileTree) (location : Location) (name : String) (content : Option FileTree) :
    Prop :=
  ∃ entries, tree.get? location = some (.directory entries) ∧ lookup name entries = content ∧
    lookup name (putEntry name none entries) = none

namespace Holds

variable {tree : FileTree} {location : Location} {name : String} {content : Option FileTree}

theorem get?_eq (holds : tree.Holds location name content) :
    tree.get? (location ++ [name]) = content := by
  obtain ⟨entries, found, here, -⟩ := holds
  rw [get?_append, found, ← here]
  simp [get?_cons, FileTree.entries]

theorem of_lookup_eq_none {entries : List (String × FileTree)}
    (found : tree.get? location = some (.directory entries)) (absent : lookup name entries = none) :
    tree.Holds location name none :=
  ⟨entries, found, absent, by rwa [putEntry_of_lookup_eq absent]⟩

/-- The directory of a changed entry. -/
private theorem get?_set {entries : List (String × FileTree)}
    (found : tree.get? location = some (.directory entries)) (name : String)
    (entry : Option FileTree) :
    (tree.set (location ++ [name]) entry).get? location =
      some (.directory (putEntry name entry entries)) := by
  rw [set_append found (by simp), get?_set_some found]
  rfl

theorem set (holds : tree.Holds location name content) (entry : Option FileTree) :
    (tree.set (location ++ [name]) entry).Holds location name entry := by
  obtain ⟨entries, found, -, once⟩ := holds
  refine ⟨putEntry name entry entries, get?_set found name entry, ?_⟩
  cases entry with
  | some entry => exact ⟨lookup_putEntry_self name entry entries, by rwa [putEntry_putEntry]⟩
  | none => exact ⟨once, by rwa [putEntry_of_lookup_eq once]⟩

theorem set_of_ne (holds : tree.Holds location name content) {other : String}
    (different : other ≠ name) (entry : Option FileTree) :
    (tree.set (location ++ [other]) entry).Holds location name content := by
  obtain ⟨entries, found, here, once⟩ := holds
  refine ⟨putEntry other entry entries, get?_set found other entry, ?_, ?_⟩
  · rwa [lookup_putEntry_of_ne (Ne.symm different)]
  · rwa [putEntry_none_comm different, lookup_putEntry_of_ne (Ne.symm different)]

end Holds

/-! ### Files of an entry -/

section

variable {tree child : FileTree} {current location : Location} {path name : String}

theorem follow_name_eq (isName : IsName name) :
    tree.follow location [name] =
      match tree.get? location with
      | some (.directory _) => .ok (location ++ [name])
      | some (.file _) => .error .notDirectory
      | none => .error .notFound := by
  cases found : tree.get? location with
  | none => simp [follow, found]
  | some entry =>
    cases entry with
    | file => simp [follow, found]
    | directory entries =>
      exact (follow_name_iff isName).mpr ⟨hasDirectory_iff.mpr ⟨entries, found⟩, rfl⟩

/-- Where there is nothing, no path leads on. -/
theorem locate_join_of_none (located : tree.locate current path = .ok location)
    (absent : tree.get? location = none) (isName : IsName name) :
    tree.locate current (Path.join path name) = .error .notFound := by
  rw [locate_join_eq located isName, follow_name_eq isName, absent]

/-- Reading a file of a directory is reading it in the directory. -/
theorem read_join (located : tree.locate current path = .ok location)
    (found : tree.get? location = some child) (isName : IsName name) :
    tree.read current (Path.join path name) = child.read [] name := by
  simp only [read, find, locate_join_eq located isName, locate_name isName, follow_name_eq isName,
    found, get?_nil]
  cases child with
  | file => rfl
  | directory entries =>
    have here : tree.get? (location ++ [name]) = (directory entries).get? [name] := by
      rw [get?_append, found]
      rfl
    simp only [bind, Except.bind, here, List.nil_append]
    cases (directory entries).get? [name] <;> rfl

/-- So is writing it. -/
theorem write_join_eq (located : tree.locate current path = .ok location)
    (found : tree.get? location = some child) (isName : IsName name) (bytes : ByteArray) :
    tree.write current (Path.join path name) bytes =
      (child.write [] name bytes).map fun after => tree.set location (some after) := by
  obtain ⟨front, joined, -⟩ := exists_toList_join (locate_eq_ok_iff.mp located).1 isName
  obtain ⟨whole, down, kept⟩ := withoutSlash_append isName
    (joined.trans (List.append_cons front '/' name.toList))
  obtain ⟨whole', down', kept'⟩ := withoutSlash_append isName (List.nil_append name.toList).symm
  simp only [write, locateNew, whole, down, kept, whole', down', kept', Bool.false_eq_true,
    if_false, locate_join_eq located isName, locate_name isName, follow_name_eq isName, found,
    get?_nil]
  cases child with
  | file => rfl
  | directory entries =>
    have here : tree.get? (location ++ [name]) = (directory entries).get? [name] := by
      rw [get?_append, found]
      rfl
    simp only [bind, Except.bind, here, List.nil_append,
      set_append found (List.cons_ne_nil name [])]
    split <;> rfl

theorem write_join_of_none (located : tree.locate current path = .ok location)
    (absent : tree.get? location = none) (isName : IsName name) (bytes : ByteArray) :
    tree.write current (Path.join path name) bytes = .error .notFound := by
  obtain ⟨front, joined, -⟩ := exists_toList_join (locate_eq_ok_iff.mp located).1 isName
  obtain ⟨whole, -, kept⟩ := withoutSlash_append isName
    (joined.trans (List.append_cons front '/' name.toList))
  simp only [write, locateNew, whole, kept, Bool.false_eq_true, if_false,
    locate_join_of_none located absent isName]
  rfl

theorem removeAll_eq (located : tree.locate current path = .ok location) :
    tree.removeAll current path =
      if (tree.get? location).isSome then .ok (tree.set location none) else .error .notFound := by
  rw [removeAll, find, located]
  cases found : tree.get? location <;> simp [bind, Except.bind, found] <;> rfl

end

/-! ### What paths see -/

/-- The locations that are looked at when a path is followed, and the one that it leads to. -/
def trail (location : Location) : List String → List Location
  | [] => [location]
  | piece :: rest =>
    location ::
      if Path.isIdle piece then trail location rest
      else if piece = ".." then trail location.dropLast rest
      else trail (location ++ [piece]) rest

section

variable {tree other : FileTree} {current location reached : Location} {path : String}

theorem get?_eq_none_iff : tree.get? location = none ↔ tree.labelAt location = none := by
  simp [labelAt]

/-- Entries with one label differ in what is below them at most. -/
theorem labelAt_eq_cases (same : tree.labelAt location = other.labelAt location) :
    (tree.get? location = none ∧ other.get? location = none) ∨
      (∃ bytes, tree.get? location = some (.file bytes) ∧
        other.get? location = some (.file bytes)) ∨
      ∃ entries entries', tree.get? location = some (.directory entries) ∧
        other.get? location = some (.directory entries') := by
  unfold labelAt at same
  cases found : tree.get? location with
  | none =>
    rw [found] at same
    exact Or.inl ⟨rfl, Option.map_eq_none_iff.mp same.symm⟩
  | some entry =>
    rw [found] at same
    obtain ⟨entry', found', labels⟩ := Option.map_eq_some_iff.mp same.symm
    right
    cases entry with
    | file bytes =>
      cases entry' with
      | file bytes' =>
        obtain rfl := Label.file.inj labels
        exact Or.inl ⟨bytes', rfl, found'⟩
      | directory => cases labels
    | directory entries =>
      cases entry' with
      | file => cases labels
      | directory entries' => exact Or.inr ⟨entries, entries', rfl, found'⟩

theorem follow_congr {pieces : List String}
    (same : ∀ place ∈ trail location pieces, tree.labelAt place = other.labelAt place) :
    tree.follow location pieces = other.follow location pieces := by
  induction pieces generalizing location with
  | nil => rfl
  | cons piece rest ih =>
    rw [trail, List.forall_mem_cons] at same
    obtain ⟨here, later⟩ := same
    rw [follow, follow]
    -- what a location is decides whether the path goes on there, and why not
    rcases labelAt_eq_cases here with ⟨found, found'⟩ | ⟨bytes, found, found'⟩ |
      ⟨entries, entries', found, found'⟩
    · rw [found, found']
    · rw [found, found']
    · rw [found, found']
      dsimp only
      split_ifs at later ⊢ with idle up long last
      · exact ih later
      · exact ih later
      · rfl
      · rfl
      · exact ih later

theorem mem_trail_of_follow {pieces : List String}
    (follows : tree.follow location pieces = .ok reached) : reached ∈ trail location pieces := by
  induction pieces generalizing location with
  | nil =>
    cases follows
    exact List.mem_singleton_self _
  | cons piece rest ih =>
    rw [follow_cons (hasDirectory_of_follow follows)] at follows
    rw [trail]
    apply List.mem_cons_of_mem
    split_ifs at follows ⊢ with idle up long last
    · exact ih follows
    · exact ih follows
    · cases follows
      rw [List.isEmpty_iff.mp last]
      exact List.mem_singleton_self _
    · exact ih follows

/-- All of the trail but its end is directories. -/
theorem hasDirectory_of_mem_trail {pieces : List String}
    (follows : tree.follow location pieces = .ok reached) {place : Location}
    (member : place ∈ trail location pieces) : place = reached ∨ tree.HasDirectory place := by
  induction pieces generalizing location with
  | nil =>
    cases follows
    exact Or.inl (List.mem_singleton.mp member)
  | cons piece rest ih =>
    have there := hasDirectory_of_follow follows
    rw [trail] at member
    rcases List.mem_cons.mp member with rfl | member
    · exact Or.inr there
    rw [follow_cons there] at follows
    split_ifs at follows member with idle up long last
    · exact ih follows member
    · exact ih follows member
    · cases follows
      rw [List.isEmpty_iff.mp last] at member
      exact Or.inl (List.mem_singleton.mp member)
    · exact ih follows member

theorem locate_congr
    (same : ∀ place ∈ trail (origin current path) (Text.splitOnChar '/' path),
      tree.labelAt place = other.labelAt place) :
    tree.locate current path = other.locate current path := by
  have follows := follow_congr same
  rw [origin] at follows
  rw [locate, locate, follows]

/-- Trees that are alike on the trail of a path hold the same file there, or none for the same
reason. -/
theorem read_congr
    (same : ∀ place ∈ trail (origin current path) (Text.splitOnChar '/' path),
      tree.labelAt place = other.labelAt place) :
    tree.read current path = other.read current path := by
  rw [read, read, find, find, locate_congr same]
  cases located : other.locate current path with
  | error reason => rfl
  | ok reached =>
    have here := same reached (mem_trail_of_follow (locate_eq_ok_iff.mp located).2.2)
    simp only [bind, Except.bind]
    rcases labelAt_eq_cases here with ⟨found, found'⟩ | ⟨bytes, found, found'⟩ |
      ⟨entries, entries', found, found'⟩
    · rw [found, found']
    · rw [found, found']
    · rw [found, found']
      rfl

/-- Nothing is missing on the trail of a file that is there. -/
theorem labelAt_trail_of_read {bytes : ByteArray} (there : tree.read current path = .ok bytes)
    {place : Location}
    (member : place ∈ trail (origin current path) (Text.splitOnChar '/' path)) :
    tree.labelAt place ≠ none := by
  obtain ⟨⟨reached, entry⟩, found, -⟩ := bind_eq_ok_iff.mp there
  obtain ⟨located, present⟩ := find_eq_ok_iff.mp found
  rcases hasDirectory_of_mem_trail (locate_eq_ok_iff.mp located).2.2 member with rfl | isDirectory
  · simp [labelAt, present]
  · rw [isDirectory]
    exact Option.some_ne_none _

end

/-! ### Making directories again -/

theorem hasDirectory_dropLast {tree : FileTree} {location : Location}
    (there : tree.HasDirectory location) : tree.HasDirectory location.dropLast := by
  rcases List.eq_nil_or_concat location with rfl | ⟨front, last, rfl⟩
  · exact there
  · rw [List.concat_eq_append, hasDirectory_iff] at there
    obtain ⟨entries, found⟩ := there
    rw [get?_append] at found
    obtain ⟨parent, here, below⟩ := Option.bind_eq_some_iff.mp found
    rw [List.concat_eq_append, List.dropLast_concat, hasDirectory_iff]
    cases parent with
    | file => simp [get?_cons, FileTree.entries, lookup] at below
    | directory children => exact ⟨children, here⟩

theorem hasDirectory_makeAlong {tree after : FileTree} {location other : Location}
    {pieces : List String} (made : tree.makeAlong location pieces = .ok after)
    (there : tree.HasDirectory other) : after.HasDirectory other := by
  rcases labelAt_makeAlong made other with same | ⟨-, absent, -⟩
  · rwa [HasDirectory, same]
  · rw [HasDirectory, absent] at there
    cases there

/-- A tree that keeps the directories made before lacks none of them. -/
theorem makeAlong_again {tree after later : FileTree} {location : Location} {pieces : List String}
    (made : tree.makeAlong location pieces = .ok after)
    (keeps : ∀ place, after.HasDirectory place → later.HasDirectory place) :
    later.makeAlong location pieces = .ok later := by
  induction pieces generalizing tree location with
  | nil => rfl
  | cons piece rest ih =>
    rw [makeAlong] at made ⊢
    by_cases idle : Path.isIdle piece = true
    · rw [if_pos idle] at made ⊢
      exact ih made
    rw [if_neg idle] at made ⊢
    by_cases up : piece = ".."
    · rw [if_pos up] at made ⊢
      exact ih made
    rw [if_neg up] at made ⊢
    by_cases long : 255 < piece.utf8ByteSize
    · rw [if_pos long] at made
      cases made
    rw [if_neg long] at made ⊢
    -- whether the next directory is old or new, it is there from now on
    obtain ⟨between, made, next⟩ : ∃ between : FileTree,
        between.makeAlong (location ++ [piece]) rest = .ok after ∧
          between.HasDirectory (location ++ [piece]) := by
      cases found : tree.get? (location ++ [piece]) with
      | some entry =>
        simp only [found] at made
        cases entry with
        | file => cases made
        | directory entries => exact ⟨tree, made, hasDirectory_iff.mpr ⟨entries, found⟩⟩
      | none =>
        simp only [found] at made
        split at made
        next entries here =>
          have room := hasRoom_of_absent (hasDirectory_iff.mpr ⟨entries, here⟩) found
          exact ⟨_, made, hasDirectory_iff.mpr ⟨[], room.get?_set _⟩⟩
        next => cases made
    obtain ⟨entries, found⟩ := hasDirectory_iff.mp (keeps _ (hasDirectory_makeAlong made next))
    simp only [found]
    exact ih made

theorem makeDirectories_again {tree after later : FileTree} {current : Location} {path : String}
    (made : tree.makeDirectories current path = .ok after)
    (keeps : ∀ place, after.HasDirectory place → later.HasDirectory place) :
    later.makeDirectories current path = .ok later := by
  rw [makeDirectories] at made ⊢
  split at made
  · cases made
  next clean =>
    rw [if_neg clean]
    exact makeAlong_again made keeps

/-! ### Writing -/

section

variable {tree after : FileTree} {current location reached : Location} {path name : String}
  {bytes : ByteArray}

/-- A path leads to a directory or to a name in one. -/
theorem hasDirectory_or_of_follow {pieces : List String} (there : tree.HasDirectory location)
    (follows : tree.follow location pieces = .ok reached) :
    tree.HasDirectory reached ∨
      ∃ parent name, reached = parent ++ [name] ∧ tree.HasDirectory parent := by
  induction pieces generalizing location with
  | nil =>
    cases follows
    exact Or.inl there
  | cons piece rest ih =>
    rw [follow_cons there] at follows
    split_ifs at follows with idle up long last
    · exact ih there follows
    · exact ih (hasDirectory_dropLast there) follows
    · cases follows
      exact Or.inr ⟨location, piece, rfl, there⟩
    · cases rest with
      | nil => exact absurd rfl last
      -- the path goes on behind this piece, so there is a directory
      | cons next rest => exact ih (hasDirectory_of_follow follows) follows

/-- A single name leads nowhere but to an entry of the directory that it is seen from. -/
theorem eq_append_of_locate_name (slash : '/' ∉ name.toList) (busy : Path.isIdle name = false)
    (down : name ≠ "..") (located : tree.locate current name = .ok reached) :
    reached = current ++ [name] := by
  obtain ⟨-, -, follows⟩ := locate_eq_ok_iff.mp located
  rw [origin, if_neg (by simp [isAbsolute_of_not_mem slash]), Text.splitOnChar,
    Text.splitAt_of_not_mem slash] at follows
  simp only [List.map_cons, List.map_nil, String.ofList_toList] at follows
  rw [follow_cons (hasDirectory_of_follow follows), if_neg (by simp [busy]), if_neg down] at follows
  split at follows
  · cases follows
  · exact (Except.ok.inj follows).symm

theorem get?_set_append {parent : Location} (there : tree.HasDirectory parent) (name : String)
    (entry : FileTree) :
    (tree.set (parent ++ [name]) (some entry)).get? (parent ++ [name]) = some entry := by
  cases old : tree.get? (parent ++ [name]) with
  | some => exact get?_set_some old entry
  | none => exact (hasRoom_of_absent there old).get?_set _

/-- With a file where there was no directory all else stays. -/
theorem labelAt_set_file (flat : ¬ tree.HasDirectory location)
    (put : (tree.set location (some (.file bytes))).get? location = some (.file bytes))
    {other : Location} (different : other ≠ location) :
    (tree.set location (some (.file bytes))).labelAt other = tree.labelAt other := by
  by_cases below : location <+: other
  · -- there is nothing below a file, and was nothing before
    obtain ⟨rest, rfl⟩ := below
    obtain ⟨name, rest, rfl⟩ := List.exists_cons_of_ne_nil fun same : rest = [] =>
      different (by rw [same, List.append_nil])
    have before : (tree.get? location).bind (·.get? (name :: rest)) = none := by
      cases found : tree.get? location with
      | none => rfl
      | some entry =>
        cases entry with
        | file => rfl
        | directory entries => exact absurd (hasDirectory_iff.mpr ⟨entries, found⟩) flat
    rw [labelAt, labelAt, get?_append, get?_append, put, before]
    rfl
  · exact labelAt_set below _

/-- What was written is found again, and nothing else is changed. -/
theorem exists_find_of_write (written : tree.write current path bytes = .ok after) :
    ∃ location, tree.locate current path = .ok location ∧
      after.find current path = .ok (location, .file bytes) ∧
      ∀ other, other ≠ location → after.labelAt other = tree.labelAt other := by
  rw [write, bind_eq_ok_iff] at written
  obtain ⟨location, located, written⟩ := written
  have ends : Path.endsWithSlash path = false := by
    cases ends : Path.endsWithSlash path with
    | false => rfl
    | true =>
      rw [ends] at written
      cases written
  simp only [ends, Bool.false_eq_true, if_false] at written
  -- without a slash at its end the path is taken as it is
  rw [locateNew, withoutSlash_of_endsWithSlash ends, ite_self] at located
  have flat : ¬ tree.HasDirectory location := by
    intro isDirectory
    obtain ⟨entries, found⟩ := hasDirectory_iff.mp isDirectory
    simp only [found] at written
    cases written
  obtain rfl : tree.set location (some (.file bytes)) = after := by
    split at written
    · cases written
    · exact Except.ok.inj written
  obtain ⟨nonempty, clean, follows⟩ := locate_eq_ok_iff.mp located
  obtain ⟨piece, rest, pieces⟩ : ∃ piece rest, Text.splitOnChar '/' path = piece :: rest :=
    List.exists_cons_of_ne_nil (by simp [Text.splitOnChar, Text.splitAt_ne_nil])
  rw [pieces] at follows
  obtain isDirectory | ⟨parent, name, rfl, there⟩ :=
    hasDirectory_or_of_follow (hasDirectory_of_follow follows) follows
  · exact absurd isDirectory flat
  have put := get?_set_append there name (.file bytes)
  have same (other : Location) (different : other ≠ parent ++ [name]) :
      (tree.set (parent ++ [name]) (some (.file bytes))).labelAt other = tree.labelAt other :=
    labelAt_set_file flat put different
  -- no directory is lost, so the path leads where it led before
  have keeps (place : Location) (isDirectory : tree.HasDirectory place) :
      (tree.set (parent ++ [name]) (some (.file bytes))).HasDirectory place := by
    have other : place ≠ parent ++ [name] := by
      rintro rfl
      exact flat isDirectory
    rwa [HasDirectory, same place other]
  exact ⟨_, located, find_eq_ok_iff.mpr ⟨locate_of_keeps keeps located, put⟩, same⟩

end

end Galley.Host.FileTree
