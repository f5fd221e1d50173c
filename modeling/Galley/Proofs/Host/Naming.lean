import Galley.Proofs.Host.Confinement
import Galley.Proofs.Host.Subtree
/-!
# Machines that are told names

A machine picks the names of scratch directories itself. Here another one picks them, so that it can
be asked what a machine would have done with another name.

What is asked for in a directory is answered from what is in the directory (`naming_inside`), if
programs are isolated in the directories they run in.
-/
namespace Galley.Host

/-- Programs that see and change the directories they run in, and nothing else. -/
def Programs.Isolated (programs : Programs) : Prop :=
  ∀ invocation location, ∃ behaviour : FileTree → Outcome × Option FileTree,
    ∀ tree entry, tree.get? location = some entry →
      programs invocation location tree =
        ((behaviour entry).1, tree.set location (behaviour entry).2)

/-- Requests about the files of a directory. -/
inductive Request.Inside (path : String) : Request → Prop
  | read {name : String} (isName : FileTree.IsName name) : Inside path (.read (Path.join path name))
  | write {name : String} (isName : FileTree.IsName name) (bytes : ByteArray) :
    Inside path (.write (Path.join path name) bytes)
  | run {invocation : Invocation} (inside : invocation.directory = path) :
    Inside path (.run invocation)

namespace Machine

/-- Makes a directory with a given name in another one. -/
def makeNamed (machine : Machine) (name parent : String) : Except Failure (String × FileTree) := do
  let (location, entry) ← machine.tree.find machine.current parent
  match entry with
  | .file _ => throw .notDirectory
  | .directory entries =>
    match FileTree.lookup name entries with
    | some _ => throw .alreadyExists
    | none =>
      return (Path.join parent name, machine.tree.set (location ++ [name]) (some (.directory [])))

theorem makeNamed_eq_ok {machine : Machine} {name parent : String} {location : Location}
    {entries : List (String × FileTree)}
    (found : machine.tree.find machine.current parent = .ok (location, .directory entries))
    (absent : FileTree.lookup name entries = none) :
    machine.makeNamed name parent =
      .ok (Path.join parent name,
        machine.tree.set (location ++ [name]) (some (.directory []))) := by
  rw [makeNamed, found]
  simp only [bind, Except.bind, absent]
  rfl

/-- With a name that is free in one tree, a directory is made at the same place in another one that
is alike there, or fails to be made for the same reason. -/
theorem makeNamed_alike {machine : Machine} {tree other : FileTree} {name parent : String}
    (same : tree.locate machine.current parent = other.locate machine.current parent)
    (alike : ∀ location, other.locate machine.current parent = .ok location →
      tree.labelAt location = other.labelAt location ∧
        tree.labelAt (location ++ [name]) = other.labelAt (location ++ [name]))
    (absent : ∀ location entries,
      tree.find machine.current parent = .ok (location, .directory entries) →
        FileTree.lookup name entries = none) :
    (∃ reason, makeNamed { machine with tree } name parent = .error reason ∧
      makeNamed { machine with tree := other } name parent = .error reason) ∨
      ∃ location, other.locate machine.current parent = .ok location ∧
        other.HasDirectory location ∧ other.HasRoom (location ++ [name]) ∧
        tree.Holds location name none ∧
        makeNamed { machine with tree } name parent =
          .ok (Path.join parent name, tree.set (location ++ [name]) (some (.directory []))) ∧
        makeNamed { machine with tree := other } name parent =
          .ok (Path.join parent name, other.set (location ++ [name]) (some (.directory []))) := by
  cases located : other.locate machine.current parent with
  | error reason =>
    rw [located] at same
    refine Or.inl ⟨reason, ?_, ?_⟩
    · simp only [makeNamed, FileTree.find, same, bind, Except.bind]
    · simp only [makeNamed, FileTree.find, located, bind, Except.bind]
  | ok location =>
    rw [located] at same
    obtain ⟨here, below⟩ := alike location located
    rcases FileTree.labelAt_eq_cases here with ⟨found, found'⟩ | ⟨bytes, found, found'⟩ |
      ⟨entries, entries', found, found'⟩
    · refine Or.inl ⟨.notFound, ?_, ?_⟩
      · simp only [makeNamed, FileTree.find, same, bind, Except.bind, found]
        rfl
      · simp only [makeNamed, FileTree.find, located, bind, Except.bind, found']
        rfl
    · refine Or.inl ⟨.notDirectory, ?_, ?_⟩
      · simp only [makeNamed, FileTree.find, same, bind, Except.bind, found]
        rfl
      · simp only [makeNamed, FileTree.find, located, bind, Except.bind, found']
        rfl
    · have find := FileTree.find_eq_ok_iff.mpr ⟨same, found⟩
      have find' := FileTree.find_eq_ok_iff.mpr ⟨located, found'⟩
      have free := absent location entries find
      -- the name is free in the other tree too, which has the same entry there, or none
      have free' : FileTree.lookup name entries' = none := by
        have none := (FileTree.Holds.of_lookup_eq_none found free).get?_eq
        rw [FileTree.get?_eq_none_iff, below, ← FileTree.get?_eq_none_iff, FileTree.get?_append,
          found'] at none
        simpa [FileTree.get?_cons, FileTree.entries] using none
      exact Or.inr ⟨location, rfl, FileTree.hasDirectory_iff.mpr ⟨entries', found'⟩,
        FileTree.hasRoom_append found' free', .of_lookup_eq_none found free,
        makeNamed_eq_ok find free, makeNamed_eq_ok find' free'⟩

/-- The machine's answers, but for the names of scratch directories. -/
def naming (programs : Programs) (name : String) : Action.Handler (StateM Machine) :=
  fun request machine =>
    match request with
    | .makeScratch parent => settle machine (machine.makeNamed name parent)
    | request => handler programs request machine

/-- A machine picks names that are free. -/
theorem handler_eq_naming {programs : Programs} {name : String} {request : Request}
    {machine : Machine}
    (picks : ∀ parent location entries, request = .makeScratch parent →
      machine.tree.find machine.current parent = .ok (location, .directory entries) →
        freshName? entries = some name) :
    handler programs request machine = naming programs name request machine := by
  cases request with
  | makeScratch parent =>
    suffices same : machine.makeScratch parent = machine.makeNamed name parent by
      unfold handler naming
      dsimp only
      rw [same]
    unfold makeScratch makeNamed
    cases found : machine.tree.find machine.current parent with
    | error reason => rfl
    | ok place =>
      obtain ⟨location, entry⟩ := place
      cases entry with
      | file => rfl
      | directory entries =>
        have fresh := picks parent location entries rfl found
        have absent : FileTree.lookup name entries = none := by
          unfold freshName? at fresh
          simpa using List.find?_some fresh
        simp only [bind, Except.bind, fresh, absent]
  | _ => rfl

section

variable {programs : Programs} {name path : String} {machine : Machine}

theorem naming_read :
    naming programs name (.read path) machine =
      (machine.tree.read machine.current path, machine) :=
  rfl

theorem naming_write {bytes : ByteArray} :
    naming programs name (.write path bytes) machine =
      settle machine (unit (machine.tree.write machine.current path bytes)) :=
  rfl

theorem naming_makeDirectories :
    naming programs name (.makeDirectories path) machine =
      settle machine (unit (machine.tree.makeDirectories machine.current path)) :=
  rfl

theorem naming_makeScratch :
    naming programs name (.makeScratch path) machine =
      settle machine (machine.makeNamed name path) :=
  rfl

theorem naming_removeAll :
    naming programs name (.removeAll path) machine =
      settle machine (unit (machine.tree.removeAll machine.current path)) :=
  rfl

theorem naming_run {invocation : Invocation} :
    naming programs name (.run invocation) machine = machine.invoke programs invocation :=
  rfl

private theorem settle_fixed {α : Type} (result : Except Failure (α × FileTree)) :
    ∃ answer tree, settle machine result = (answer, { machine with tree }) := by
  cases result with
  | ok result => exact ⟨_, result.2, rfl⟩
  | error reason => exact ⟨_, machine.tree, rfl⟩

/-- Neither the current directory nor the one for temporary files ever changes. -/
theorem naming_fixed (programs : Programs) (name : String) (machine : Machine) (request : Request) :
    ∃ answer tree, naming programs name request machine = (answer, { machine with tree }) := by
  cases request with
  | currentDirectory | temporaryDirectory | isPresent | read => exact ⟨_, machine.tree, rfl⟩
  | write =>
    rw [naming_write]
    exact settle_fixed _
  | makeDirectories =>
    rw [naming_makeDirectories]
    exact settle_fixed _
  | makeScratch =>
    rw [naming_makeScratch]
    exact settle_fixed _
  | removeAll =>
    rw [naming_removeAll]
    exact settle_fixed _
  | run invocation =>
    rw [naming_run, invoke]
    split
    · exact ⟨_, machine.tree, rfl⟩
    · split
      · exact ⟨_, machine.tree, rfl⟩
      · exact ⟨_, machine.tree, rfl⟩
      · exact ⟨_, _, rfl⟩

theorem stateAfter_naming_fixed (log : List Exchange) :
    ∃ tree, Action.stateAfter (naming programs name) machine log = { machine with tree } := by
  induction log generalizing machine with
  | nil => exact ⟨machine.tree, rfl⟩
  | cons exchange log ih =>
    obtain ⟨answer, tree, fixed⟩ := naming_fixed programs name machine exchange.request
    rw [Action.stateAfter, List.foldl_cons, fixed]
    exact ih

/-- What a machine tells about itself. -/
inductive Tells (machine : Machine) : Exchange → Prop
  | currentDirectory : Tells machine ⟨.currentDirectory, .ok (pathOf machine.current)⟩
  | temporaryDirectory : Tells machine ⟨.temporaryDirectory, machine.temporary⟩
  | other {exchange : Exchange} (current : exchange.request ≠ .currentDirectory)
    (temporary : exchange.request ≠ .temporaryDirectory) : Tells machine exchange

theorem tells_transcript {α : Type} (action : Action α) :
    ∀ exchange ∈ Action.transcript (naming programs name) action machine,
      machine.Tells exchange := by
  intro exchange member
  obtain ⟨earlier, later, told⟩ := List.append_of_mem member
  have answered := Action.answer_of_transcript_eq told
  obtain ⟨tree, fixed⟩ : ∃ tree, Action.stateAfter (naming programs name) machine earlier =
      { machine with tree } := stateAfter_naming_fixed _
  rw [fixed] at answered
  obtain ⟨request, answer⟩ := exchange
  cases request with
  | currentDirectory =>
    change Except.ok (pathOf machine.current) = answer at answered
    subst answered
    exact .currentDirectory
  | temporaryDirectory =>
    change machine.temporary = answer at answered
    subst answered
    exact .temporaryDirectory
  | _ => exact .other nofun nofun

/-- An unchanged tree is one where the same was put back. -/
private theorem unchanged {location : Location} {content : Option FileTree}
    (found : machine.tree.get? location = content) :
    { machine with tree := machine.tree.set location content } = machine := by
  rw [← found, FileTree.set_get?]

private theorem invoke_inside (isolated : programs.Isolated) (invocation : Invocation)
    (location : Location) (content : Option FileTree) :
    ∃ outcome left, ∀ machine : Machine,
      machine.tree.locate machine.current invocation.directory = .ok location →
        machine.tree.get? location = content →
          machine.invoke programs invocation =
            (outcome, { machine with tree := machine.tree.set location left }) := by
  -- a word that cannot be passed on is refused before the directory is looked at
  by_cases zero :
      ((invocation.program :: invocation.arguments).any (·.toList.contains (Char.ofNat 0))) = true
  · refine ⟨.unstartable .zeroInWord, content, fun machine located found => ?_⟩
    rw [invoke, if_pos zero, unchanged found]
  cases content with
  | none =>
    refine ⟨.unstartable .notFound, none, fun machine located found => ?_⟩
    have absent : machine.tree.find machine.current invocation.directory = .error .notFound := by
      rw [FileTree.find, located]
      simp only [bind, Except.bind, found]
      rfl
    rw [invoke, if_neg zero, absent, unchanged found]
  | some child =>
    cases child with
    | file bytes =>
      refine ⟨.unstartable .notDirectory, some (.file bytes), fun machine located found => ?_⟩
      rw [invoke, if_neg zero, FileTree.find_eq_ok_iff.mpr ⟨located, found⟩, unchanged found]
    | directory entries =>
      obtain ⟨behaviour, does⟩ := isolated invocation location
      refine ⟨(behaviour (.directory entries)).1, (behaviour (.directory entries)).2, ?_⟩
      intro machine located found
      rw [invoke, if_neg zero, FileTree.find_eq_ok_iff.mpr ⟨located, found⟩]
      simp only [does machine.tree _ found]

/-- The answer to a request in a directory, and what becomes of the directory, depend on nothing
else in the tree. -/
theorem naming_inside (isolated : programs.Isolated) (name : String) {request : Request}
    (inside : request.Inside path) (location : Location) (content : Option FileTree) :
    ∃ answer left, ∀ machine : Machine,
      machine.tree.locate machine.current path = .ok location →
        machine.tree.get? location = content →
          naming programs name request machine =
            (answer, { machine with tree := machine.tree.set location left }) := by
  -- a path in the directory is followed to it in the whole tree, and on in what is there
  cases inside with
  | @read file isName =>
    cases content with
    | none =>
      refine ⟨(Except.error .notFound : Except Failure ByteArray), none, ?_⟩
      intro machine located found
      have absent := FileTree.locate_join_of_none located found isName
      rw [naming_read, FileTree.read, FileTree.find, absent, unchanged found]
      rfl
    | some child =>
      refine ⟨child.read [] file, some child, fun machine located found => ?_⟩
      rw [naming_read, FileTree.read_join located found isName, unchanged found]
      rfl
  | @write file isName bytes =>
    cases content with
    | none =>
      refine ⟨(Except.error .notFound : Except Failure Unit), none, ?_⟩
      intro machine located found
      rw [naming_write, FileTree.write_join_of_none located found isName, unchanged found]
      rfl
    | some child =>
      cases written : child.write [] file bytes with
      | ok after =>
        refine ⟨(Except.ok () : Except Failure Unit), some after, ?_⟩
        intro machine located found
        rw [naming_write, FileTree.write_join_eq located found isName, written]
        rfl
      | error reason =>
        refine ⟨(Except.error reason : Except Failure Unit), some child, ?_⟩
        intro machine located found
        rw [naming_write, FileTree.write_join_eq located found isName, written, unchanged found]
        rfl
  | @run invocation inside =>
    subst inside
    exact invoke_inside isolated invocation location content

/-- A directory that is removed is gone in any case. -/
theorem naming_removeAll_eq (programs : Programs) (name path : String) (location : Location)
    (content : Option FileTree) :
    ∃ answer, ∀ machine : Machine,
      machine.tree.locate machine.current path = .ok location →
        machine.tree.get? location = content →
          naming programs name (.removeAll path) machine =
            (answer, { machine with tree := machine.tree.set location none }) := by
  cases content with
  | none =>
    refine ⟨(Except.error .notFound : Except Failure Unit), fun machine located found => ?_⟩
    rw [naming_removeAll, FileTree.removeAll_eq located, found, unchanged found]
    rfl
  | some child =>
    refine ⟨(Except.ok () : Except Failure Unit), fun machine located found => ?_⟩
    rw [naming_removeAll, FileTree.removeAll_eq located, found]
    rfl

end

end Machine
end Galley.Host
