import Galley.Proofs.Export.Alone
/-!
# Exports that share a file tree

Each of any number of exports works in a workspace of its own, so none of them notices the others,
although all of them use the same file names. They see the same tree up to their workspaces: `View`
says what one of them would have before it if it were alone, and `Agree` that the shared tree holds
all of these views at once.

## Main result

`Agree.ask`: whatever one of the exports asks for next, it is told what it would be told alone, and
the views agree again.
-/
namespace Galley.Export

open Galley.Host (Action Exchange FileTree Location Machine Programs Request)

/-! ### Places of workspaces -/

section

variable (config : Config) (start : Machine)

def workspacePath (name : String) : String := Path.join (parentPath config start) name

/-- Where the workspace with a name is. -/
def siteOf (name : String) : Location := basePlace config start ++ [name]

/-- There is room for a workspace with this name. -/
structure Sited (name : String) : Prop where
  ready : Ready config start
  located :
    (baseTree config start).locate start.current (parentPath config start) =
      .ok (basePlace config start)
  site : Site start.current (baseTree config start) (workspacePath config start name)
    (siteOf config start name)

end

/-- What is missing on the way to the configured stylesheet is no directory that is made for
workspaces, and not in a workspace. A path through one of these leads on only while it is there. -/
def StylesheetApart {ι : Type} (config : Config) (jobs : ι → Job) (start : Machine) : Prop :=
  ∀ path, config.stylesheetPath = some path →
    ∀ location ∈ FileTree.trail (FileTree.origin start.current path) (Text.splitOnChar '/' path),
      start.tree.labelAt location = none →
        location ∉ rootLocations config start.current ∧
          ∀ i, ¬ siteOf config start (jobs i).name <+: location

section

variable {config : Config} {start : Machine} {name other : String}

/-- On the way to a stylesheet that is there, nothing is missing. -/
theorem stylesheetApart_of_read {ι : Type} {jobs : ι → Job}
    (reads : ∀ path, config.stylesheetPath = some path →
      ∃ bytes, start.tree.read start.current path = .ok bytes) :
    StylesheetApart config jobs start := by
  intro path configured location member missing
  obtain ⟨bytes, there⟩ := reads path configured
  exact absurd missing (FileTree.labelAt_trail_of_read there member)

theorem siteOf_injective (same : siteOf config start name <+: siteOf config start other) :
    name = other := by
  have whole := same.eq_of_length (by simp [siteOf])
  simpa [siteOf] using whole

/-! ### Views -/

variable (config start) in
/-- What a job would have before it if it were alone, in a phase and beside a shared tree. -/
inductive View (name : String) (tree : FileTree) : Phase → FileTree → Prop
  | outside : View name tree .outside start.tree
  | prepared (ready : Ready config start) : View name tree .prepared (baseTree config start)
  | inside {content : Option FileTree} (sited : Sited config start name)
    (holds : tree.Holds (basePlace config start) name content) :
    View name tree (.inside (workspacePath config start name))
      ((baseTree config start).set (siteOf config start name) content)
  | removed (sited : Sited config start name) (alone : FileTree) :
    View name tree (.removed (workspacePath config start name)) alone
  | failed (alone : FileTree) : View name tree .failed alone

namespace View

variable {tree alone : FileTree} {phase : Phase}

theorem eq_start (view : View config start name tree .outside alone) : alone = start.tree := by
  cases view
  rfl

theorem eq_base (view : View config start name tree .prepared alone) :
    Ready config start ∧ alone = baseTree config start := by
  cases view with
  | prepared ready => exact ⟨ready, rfl⟩

theorem of_inside {workspace : String}
    (view : View config start name tree (.inside workspace) alone) :
    workspace = workspacePath config start name ∧ Sited config start name ∧
      ∃ content, alone = (baseTree config start).set (siteOf config start name) content ∧
        tree.Holds (basePlace config start) name content := by
  cases view with
  | inside sited holds => exact ⟨rfl, sited, _, rfl, holds⟩

theorem sited_of_removed {workspace : String}
    (view : View config start name tree (.removed workspace) alone) :
    workspace = workspacePath config start name ∧ Sited config start name := by
  cases view with
  | removed sited => exact ⟨rfl, sited⟩

/-- Without a workspace, nothing depends on the shared tree. -/
theorem idle (view : View config start name tree phase alone)
    (idle : ∀ workspace, phase ≠ .inside workspace) (after : FileTree) :
    View config start name after phase alone := by
  cases view with
  | outside => exact .outside
  | prepared ready => exact .prepared ready
  | inside => exact absurd rfl (idle _)
  | removed sited => exact .removed sited alone
  | failed => exact .failed alone

/-- Nothing depends on the workspaces of others. -/
theorem set_of_ne (view : View config start name tree phase alone)
    (apart : ∀ workspace, phase = .inside workspace → other ≠ name) (content : Option FileTree) :
    View config start name (tree.set (siteOf config start other) content) phase alone := by
  by_cases inside : ∃ workspace, phase = .inside workspace
  · obtain ⟨workspace, rfl⟩ := inside
    obtain ⟨rfl, sited, own, rfl, holds⟩ := view.of_inside
    exact .inside sited (holds.set_of_ne (apart _ rfl) content)
  · apply view.idle
    intro workspace same
    exact inside ⟨workspace, same⟩

end View

end

/-! ### A tree for all views -/

section

variable (config : Config) (start : Machine) {ι : Type} (jobs : ι → Job)

/-- A location that is in none of the workspaces that are there. -/
def Clear (phase : ι → Phase) (location : Location) : Prop :=
  ∀ i workspace, phase i = .inside workspace → ¬ siteOf config start (jobs i).name <+: location

/-- A tree that has the directory for workspaces, and is as before outside of them. -/
def Based (phase : ι → Phase) (tree : FileTree) : Prop :=
  ∀ location, Clear config start jobs phase location →
    tree.labelAt location = (baseTree config start).labelAt location

inductive Stands (phase : ι → Phase) (tree : FileTree) : Prop
  | untouched (same : tree = start.tree) (idle : ∀ i, phase i = .outside ∨ phase i = .failed)
  | based (ready : Ready config start) (based : Based config start jobs phase tree)

/-- A shared tree holds what every job would have before it. -/
structure Agree (tree : FileTree) (phase : ι → Phase) (alone : ι → FileTree) : Prop where
  views : ∀ i, View config start (jobs i).name tree (phase i) (alone i)
  separate : ∀ i j workspace, phase i = .inside workspace → phase j = .inside workspace → i = j
  stands : Stands config start jobs phase tree

/-- The shared machine gives a job this answer too, and leaves a tree that agrees again. -/
inductive Told (programs : Programs) (tree : FileTree) (i : ι) (request : Request)
    (answer : request.Answer) (phase : ι → Phase) (alone : ι → FileTree) : Prop
  | intro (after : FileTree)
    (answered : Machine.naming programs (jobs i).name request { start with tree } =
      (answer, { start with tree := after }))
    (agree : Agree config start jobs after phase alone)

end

section

variable {config : Config} {start : Machine} {ι : Type} {jobs : ι → Job} {tree : FileTree}
  {phase : ι → Phase} {alone : ι → FileTree} {i : ι}

theorem clear_basePlace : Clear config start jobs phase (basePlace config start) := by
  rintro j workspace - ⟨rest, long⟩
  simpa [siteOf] using congrArg List.length long

theorem Clear.of_update [DecidableEq ι] {location : Location} {next : Phase}
    (stays : ∀ workspace, phase i = .inside workspace → ∃ other, next = .inside other)
    (clear : Clear config start jobs (Function.update phase i next) location) :
    Clear config start jobs phase location := by
  intro j workspace inside
  by_cases same : j = i
  · subst same
    obtain ⟨other, rfl⟩ := stays workspace inside
    exact clear j other (Function.update_self ..)
  · apply clear j workspace
    rwa [Function.update_of_ne same]

/-- A job without a workspace may go on without one. -/
theorem Based.update [DecidableEq ι] {next : Phase} (based : Based config start jobs phase tree)
    (outside : ∀ workspace, phase i ≠ .inside workspace) :
    Based config start jobs (Function.update phase i next) tree := by
  intro location clear
  apply based
  apply clear.of_update
  intro workspace inside
  exact absurd inside (outside workspace)

namespace Agree

theorem of_inside (agree : Agree config start jobs tree phase alone) {workspace : String}
    (inside : phase i = .inside workspace) :
    workspace = workspacePath config start (jobs i).name ∧ Sited config start (jobs i).name ∧
      ∃ content, alone i = (baseTree config start).set (siteOf config start (jobs i).name) content ∧
        tree.Holds (basePlace config start) (jobs i).name content := by
  have view := agree.views i
  rw [inside] at view
  exact view.of_inside

/-- A job that is past its start has a directory for workspaces. -/
theorem based (agree : Agree config start jobs tree phase alone) (started : phase i ≠ .outside)
    (goesOn : phase i ≠ .failed) : Based config start jobs phase tree := by
  cases agree.stands with
  | untouched _ idle =>
    rcases idle i with never | never
    · exact absurd never started
    · exact absurd never goesOn
  | based _ based => exact based

theorem based_of_inside (agree : Agree config start jobs tree phase alone) {workspace : String}
    (inside : phase i = .inside workspace) : Based config start jobs phase tree :=
  agree.based (i := i) (by simp [inside]) (by simp [inside])

/-- In a tree with a directory for workspaces all other directories are where they were. -/
theorem keeps (agree : Agree config start jobs tree phase alone)
    (based : Based config start jobs phase tree) {location : Location}
    (there : (baseTree config start).HasDirectory location) : tree.HasDirectory location := by
  have clear : Clear config start jobs phase location := by
    rintro j workspace inside ⟨rest, rfl⟩
    obtain ⟨-, sited, -⟩ := agree.of_inside inside
    rw [FileTree.HasDirectory, sited.site.room.labelAt_append] at there
    cases there
  rwa [FileTree.HasDirectory, based location clear]

theorem locate_workspace (agree : Agree config start jobs tree phase alone) {workspace : String}
    (inside : phase i = .inside workspace) :
    tree.locate start.current workspace = .ok (siteOf config start (jobs i).name) := by
  obtain ⟨rfl, sited, -⟩ := agree.of_inside inside
  exact FileTree.locate_of_keeps (fun _ => agree.keeps (agree.based_of_inside inside))
    sited.site.located

/-- The directory for workspaces is at the same place in the shared tree. -/
theorem locate_parent (agree : Agree config start jobs tree phase alone)
    (based : Based config start jobs phase tree) :
    tree.locate start.current (parentPath config start) =
      (baseTree config start).locate start.current (parentPath config start) := by
  by_cases occupied : ∃ j workspace, phase j = .inside workspace
  · obtain ⟨j, workspace, inside⟩ := occupied
    obtain ⟨-, sited, -⟩ := agree.of_inside inside
    rw [sited.located]
    exact FileTree.locate_of_keeps (fun _ => agree.keeps based) sited.located
  · apply FileTree.locate_congr
    intro location _
    apply based
    intro j workspace inside
    exact absurd ⟨j, workspace, inside⟩ occupied

/-! ### Steps of one job -/

/-- What is to be shown of a job that goes on, and of all others. -/
theorem update [DecidableEq ι] (agree : Agree config start jobs tree phase alone)
    {after own : FileTree} {next : Phase}
    (view : View config start (jobs i).name after next own)
    (others : ∀ j, j ≠ i → View config start (jobs j).name after (phase j) (alone j))
    (separate : ∀ j workspace, j ≠ i → next = .inside workspace → phase j ≠ .inside workspace)
    (stands : Stands config start jobs (Function.update phase i next) after) :
    Agree config start jobs after (Function.update phase i next) (Function.update alone i own) := by
  refine ⟨fun j => ?_, fun j k workspace => ?_, stands⟩
  · by_cases same : j = i
    · subst same
      rwa [Function.update_self, Function.update_self]
    · rw [Function.update_of_ne same, Function.update_of_ne same]
      exact others j same
  · by_cases first : j = i <;> by_cases second : k = i
    · exact fun _ _ => first.trans second.symm
    · subst first
      rw [Function.update_self, Function.update_of_ne second]
      exact fun here there => absurd there (separate k workspace second here)
    · subst second
      rw [Function.update_self, Function.update_of_ne first]
      exact fun there here => absurd there (separate j workspace first here)
    · rw [Function.update_of_ne first, Function.update_of_ne second]
      exact agree.separate j k workspace

/-- What a job puts in the place of its workspace is no other job's concern. -/
theorem put [DecidableEq ι] (agree : Agree config start jobs tree phase alone)
    (based : Based config start jobs phase tree) (sited : Sited config start (jobs i).name)
    {content : Option FileTree}
    (holds : tree.Holds (basePlace config start) (jobs i).name content)
    (apart : ∀ j, j ≠ i → phase j ≠ .inside (workspacePath config start (jobs i).name))
    (left : Option FileTree) :
    Agree config start jobs (tree.set (siteOf config start (jobs i).name) left)
      (Function.update phase i (.inside (workspacePath config start (jobs i).name)))
      (Function.update alone i
        ((baseTree config start).set (siteOf config start (jobs i).name) left)) := by
  apply agree.update
  · exact .inside sited (holds.set left)
  · -- with the same name, another workspace would have the same path
    intro j different
    apply (agree.views j).set_of_ne
    intro workspace inside same
    obtain ⟨rfl, -⟩ := agree.of_inside inside
    rw [← same] at inside
    exact apart j different inside
  · intro j workspace different here
    cases here
    exact apart j different
  · refine .based sited.ready fun location clear => ?_
    rw [FileTree.labelAt_set (clear i _ (Function.update_self ..))]
    exact based location (clear.of_update fun _ _ => ⟨_, rfl⟩)

/-- A workspace that is removed leaves its place to others. -/
theorem remove [DecidableEq ι] (agree : Agree config start jobs tree phase alone)
    {workspace : String} (inside : phase i = .inside workspace) (own : FileTree) :
    Agree config start jobs (tree.set (siteOf config start (jobs i).name) none)
      (Function.update phase i (.removed workspace)) (Function.update alone i own) := by
  obtain ⟨rfl, sited, content, -, holds⟩ := agree.of_inside inside
  apply agree.update
  · exact .removed sited own
  · -- two workspaces of one name would be one
    intro j different
    apply (agree.views j).set_of_ne
    intro workspace there same
    obtain ⟨rfl, -⟩ := agree.of_inside there
    rw [← same] at there
    exact different (agree.separate j i _ there inside)
  · nofun
  · refine .based sited.ready fun location clear => ?_
    by_cases below : siteOf config start (jobs i).name <+: location
    · -- where the workspace was, there is nothing, as in the tree without any
      obtain ⟨rest, rfl⟩ := below
      have gone := (holds.set none).get?_eq
      rw [sited.site.room.labelAt_append, ← FileTree.get?_eq_none_iff, FileTree.get?_append, siteOf,
        gone]
      rfl
    · rw [FileTree.labelAt_set below]
      apply agree.based_of_inside inside
      intro j other there
      by_cases same : j = i
      · rwa [same]
      · apply clear j other
        rwa [Function.update_of_ne same]

/-- A request that changes nothing, after which the job is where it was. -/
private theorem stay [DecidableEq ι] (agree : Agree config start jobs tree phase alone) :
    Agree config start jobs tree (Function.update phase i (phase i))
      (Function.update alone i (alone i)) := by
  rwa [Function.update_eq_self, Function.update_eq_self]

end Agree

/-! ### The directory for workspaces -/

namespace Agree

private theorem ask_temporary [DecidableEq ι] (agree : Agree config start jobs tree phase alone)
    (now : phase i = .outside) (unset : config.workspaceRootPath = none) :
    Agree config start jobs tree (Function.update phase i .prepared)
      (Function.update alone i (alone i)) := by
  obtain ⟨ready, same⟩ : Ready config start ∧ baseTree config start = start.tree :=
    ready_of_none unset
  have view := agree.views i
  rw [now] at view
  apply agree.update
  · rw [view.eq_start, ← same]
    exact .prepared ready
  · exact fun j _ => agree.views j
  · nofun
  · apply Stands.based ready
    cases agree.stands with
    | untouched untouched =>
      intro location _
      rw [untouched, same]
    | based _ based => exact based.update (by simp [now])

/-- Whoever comes first makes the directory for workspaces, and the others find it. -/
private theorem made [DecidableEq ι] (agree : Agree config start jobs tree phase alone)
    (now : phase i = .outside) {root : String}
    (configured : config.workspaceRootPath = some root) {own : FileTree}
    (made : start.tree.makeDirectories start.current root = .ok own) :
    ∃ after, tree.makeDirectories start.current root = .ok after ∧
      Agree config start jobs after (Function.update phase i .prepared)
        (Function.update alone i own) := by
  obtain ⟨ready, rfl⟩ := ready_of_made configured made
  cases agree.stands with
  | untouched same idle =>
    -- no job has a workspace yet, so none depends on the tree that changes
    subst same
    refine ⟨baseTree config start, made, agree.update (.prepared ready) ?_ nofun ?_⟩
    · intro j _
      apply (agree.views j).idle
      intro workspace inside
      rcases idle j with never | never <;> simp [never] at inside
    · exact .based ready fun _ _ => rfl
  | based _ based =>
    have again := FileTree.makeDirectories_again made fun _ => agree.keeps based
    refine ⟨tree, again, agree.update (.prepared ready) (fun j _ => agree.views j) nofun ?_⟩
    exact .based ready (based.update (by simp [now]))

private theorem unmade [DecidableEq ι] (agree : Agree config start jobs tree phase alone)
    {root : String} (configured : config.workspaceRootPath = some root) {reason : Host.Failure}
    (unmade : start.tree.makeDirectories start.current root = .error reason) (own : FileTree) :
    tree.makeDirectories start.current root = .error reason ∧
      Agree config start jobs tree (Function.update phase i .failed)
        (Function.update alone i own) := by
  cases agree.stands with
  | based ready =>
    -- what was made for one job can be made for all
    rw [ready root configured] at unmade
    cases unmade
  | untouched same idle =>
    refine ⟨by rw [same, unmade], agree.update (.failed own) (fun j _ => agree.views j) nofun ?_⟩
    refine .untouched same fun j => ?_
    by_cases here : j = i
    · subst here
      exact Or.inr (Function.update_self ..)
    · rw [Function.update_of_ne here]
      exact idle j

private theorem ask_makeDirectories [DecidableEq ι] {programs : Programs}
    (agree : Agree config start jobs tree phase alone) (now : phase i = .outside) {root : String}
    (configured : config.workspaceRootPath = some root)
    {answer : Except Host.Failure Unit} {own : FileTree}
    (asked : Machine.naming programs (jobs i).name (.makeDirectories root)
      { start with tree := alone i } = (answer, { start with tree := own })) :
    Told config start jobs programs tree i (.makeDirectories root) answer
      (Function.update phase i (match answer with | .ok _ => .prepared | .error _ => .failed))
      (Function.update alone i own) := by
  have view := agree.views i
  rw [now] at view
  rw [Machine.naming_makeDirectories, view.eq_start] at asked
  cases made : start.tree.makeDirectories start.current root with
  | ok base =>
    simp only [made] at asked
    obtain ⟨rfl, rfl⟩ := eq_of_answered asked
    obtain ⟨after, again, agree⟩ := agree.made now configured made
    refine ⟨after, ?_, agree⟩
    simp only [Machine.naming_makeDirectories, again]
    rfl
  | error reason =>
    simp only [made] at asked
    obtain ⟨rfl, rfl⟩ := eq_of_answered asked
    obtain ⟨again, agree⟩ := agree.unmade configured made start.tree
    refine ⟨tree, ?_, agree⟩
    simp only [Machine.naming_makeDirectories, again]
    rfl

/-! ### New workspaces -/

/-- A new workspace is put beside the others, where it would be put without them. -/
private theorem ask_makeScratch [DecidableEq ι] {programs : Programs}
    (agree : Agree config start jobs tree phase alone) (now : phase i = .prepared)
    (absent : ∀ location entries,
      tree.find start.current (parentPath config start) = .ok (location, .directory entries) →
        FileTree.lookup (jobs i).name entries = none)
    (unclaimed : ∀ j, phase j ≠ .inside (workspacePath config start (jobs i).name))
    {answer : Except Host.Failure String} {own : FileTree}
    (asked : Machine.naming programs (jobs i).name (.makeScratch (parentPath config start))
      { start with tree := alone i } = (answer, { start with tree := own })) :
    Told config start jobs programs tree i (.makeScratch (parentPath config start)) answer
      (Function.update phase i
        (match answer with | .ok path => .inside path | .error _ => .failed))
      (Function.update alone i own) := by
  have view := agree.views i
  rw [now] at view
  obtain ⟨ready, same⟩ := view.eq_base
  have based := agree.based (i := i) (by simp [now]) (by simp [now])
  -- nobody is where the workspace would be, and all else is as it is without the other jobs
  have clear : Clear config start jobs phase (siteOf config start (jobs i).name) := by
    intro j workspace inside below
    obtain ⟨rfl, -⟩ := agree.of_inside inside
    rw [siteOf_injective below] at inside
    exact unclaimed j inside
  rw [Machine.naming_makeScratch, same] at asked
  have alike (location : Location)
      (located : (baseTree config start).locate start.current (parentPath config start) =
        .ok location) :
      tree.labelAt location = (baseTree config start).labelAt location ∧
        tree.labelAt (location ++ [(jobs i).name]) =
          (baseTree config start).labelAt (location ++ [(jobs i).name]) := by
    obtain rfl := basePlace_eq located
    exact ⟨based _ clear_basePlace, based _ clear⟩
  rcases Machine.makeNamed_alike (agree.locate_parent based) alike absent with
    ⟨reason, failed, failed'⟩ | ⟨place, located, directory, room, holds, made, made'⟩
  · rw [failed'] at asked
    obtain ⟨rfl, rfl⟩ := eq_of_answered asked
    refine ⟨tree, ?_, agree.update (.failed _) (fun j _ => agree.views j) nofun ?_⟩
    · rw [Machine.naming_makeScratch, failed]
      rfl
    · exact .based ready (based.update (by simp [now]))
  · rw [made'] at asked
    obtain ⟨rfl, rfl⟩ := eq_of_answered asked
    obtain rfl := basePlace_eq located
    have leads := (FileTree.locate_join located (jobs i).isName).mpr ⟨directory, rfl⟩
    refine ⟨_, ?_, agree.put based ⟨ready, located, room, leads⟩ holds (fun j _ => unclaimed j) _⟩
    rw [Machine.naming_makeScratch, made]
    rfl

/-! ### The stylesheet -/

private theorem labelAt_trail_baseTree (apart : StylesheetApart config jobs start)
    (ready : Ready config start) {path : String} (configured : config.stylesheetPath = some path)
    {location : Location}
    (member : location ∈
      FileTree.trail (FileTree.origin start.current path) (Text.splitOnChar '/' path)) :
    (baseTree config start).labelAt location = start.tree.labelAt location := by
  rcases labelAt_baseTree ready location with same | ⟨made, missing, -⟩
  · exact same
  · exact absurd made (apart path configured location member missing).1

private theorem not_site_of_trail (apart : StylesheetApart config jobs start)
    (sited : Sited config start (jobs i).name) {path : String}
    (configured : config.stylesheetPath = some path) {location : Location}
    (member : location ∈
      FileTree.trail (FileTree.origin start.current path) (Text.splitOnChar '/' path)) :
    ¬ siteOf config start (jobs i).name <+: location := by
  rintro ⟨rest, rfl⟩
  have same := labelAt_trail_baseTree apart sited.ready configured member
  rw [sited.site.room.labelAt_append] at same
  exact (apart path configured _ member same.symm).2 i (List.prefix_append ..)

/-- The stylesheet is the same for all, and at any time. -/
theorem read_stylesheet (agree : Agree config start jobs tree phase alone)
    (apart : StylesheetApart config jobs start)
    (working : phase i = .outside ∨ ∃ workspace, phase i = .inside workspace) {path : String}
    (configured : config.stylesheetPath = some path) :
    tree.read start.current path = (alone i).read start.current path := by
  apply FileTree.read_congr
  intro location member
  have shared : tree.labelAt location = start.tree.labelAt location := by
    cases agree.stands with
    | untouched same => rw [same]
    | based ready based =>
      rw [based location, labelAt_trail_baseTree apart ready configured member]
      intro j workspace inside
      obtain ⟨-, sited, -⟩ := agree.of_inside inside
      exact not_site_of_trail apart sited configured member
  rw [shared]
  -- what the job itself has in its workspace is not on the way either
  rcases working with outside | ⟨workspace, inside⟩
  · have view := agree.views i
    rw [outside] at view
    rw [view.eq_start]
  · obtain ⟨rfl, sited, content, own, -⟩ := agree.of_inside inside
    rw [own, FileTree.labelAt_set (not_site_of_trail apart sited configured member),
      labelAt_trail_baseTree apart sited.ready configured member]

private theorem ask_stylesheet [DecidableEq ι] {programs : Programs}
    (agree : Agree config start jobs tree phase alone) (apart : StylesheetApart config jobs start)
    (working : phase i = .outside ∨ ∃ workspace, phase i = .inside workspace) {path : String}
    (configured : config.stylesheetPath = some path)
    {answer : Except Host.Failure ByteArray} {own : FileTree}
    (asked : Machine.naming programs (jobs i).name (.read path) { start with tree := alone i } =
      (answer, { start with tree := own })) :
    Told config start jobs programs tree i (.read path) answer
      (Function.update phase i (phase i)) (Function.update alone i own) := by
  rw [Machine.naming_read] at asked
  obtain ⟨rfl, rfl⟩ := eq_of_answered asked
  refine ⟨tree, ?_, agree.stay⟩
  rw [Machine.naming_read, agree.read_stylesheet apart working configured]
  rfl

private theorem ask_currentDirectory [DecidableEq ι] {programs : Programs}
    (agree : Agree config start jobs tree phase alone) {answer : Except Host.Failure String}
    {own : FileTree}
    (asked : Machine.naming programs (jobs i).name .currentDirectory
      { start with tree := alone i } = (answer, { start with tree := own })) :
    Told config start jobs programs tree i .currentDirectory answer
      (Function.update phase i (phase i)) (Function.update alone i own) := by
  obtain ⟨rfl, rfl⟩ := eq_of_answered asked
  exact ⟨tree, rfl, agree.stay⟩

/-! ### Work in a workspace -/

/-- A job finds its workspace at the same place when it is alone. -/
private theorem alone_of_inside (agree : Agree config start jobs tree phase alone)
    {workspace : String} (inside : phase i = .inside workspace) {content : Option FileTree}
    (own : alone i = (baseTree config start).set (siteOf config start (jobs i).name) content) :
    (alone i).locate start.current workspace = .ok (siteOf config start (jobs i).name) ∧
      (alone i).get? (siteOf config start (jobs i).name) = content := by
  obtain ⟨rfl, sited, -⟩ := agree.of_inside inside
  rw [own]
  exact ⟨sited.site.locate_set content, sited.site.room.get?_set content⟩

private theorem ask_inside [DecidableEq ι] {programs : Programs}
    (agree : Agree config start jobs tree phase alone) (isolated : programs.Isolated)
    {workspace : String} (now : phase i = .inside workspace) {request : Request}
    (inside : request.Inside workspace) {answer : request.Answer} {own : FileTree}
    (asked : Machine.naming programs (jobs i).name request { start with tree := alone i } =
      (answer, { start with tree := own })) :
    Told config start jobs programs tree i request answer
      (Function.update phase i (.inside workspace)) (Function.update alone i own) := by
  have leads := agree.locate_workspace now
  obtain ⟨same, sited, content, own, holds⟩ := agree.of_inside now
  obtain ⟨leads', found⟩ := agree.alone_of_inside now own
  subst same
  -- both trees have the same content in the place of the workspace, and the answer is about that
  obtain ⟨answer', left, does⟩ := Machine.naming_inside isolated (jobs i).name inside
    (siteOf config start (jobs i).name) content
  have here := does { start with tree := alone i } leads' found
  have there := does { start with tree } leads holds.get?_eq
  rw [here, own, sited.site.room.set_set] at asked
  obtain ⟨rfl, rfl⟩ := eq_of_answered asked
  refine ⟨_, there, ?_⟩
  apply agree.put (agree.based_of_inside now) sited holds
  intro j different there
  exact different (agree.separate j i _ there now)

private theorem ask_removeAll [DecidableEq ι] {programs : Programs}
    (agree : Agree config start jobs tree phase alone) {workspace : String}
    (now : phase i = .inside workspace) {answer : Except Host.Failure Unit} {own : FileTree}
    (asked : Machine.naming programs (jobs i).name (.removeAll workspace)
      { start with tree := alone i } = (answer, { start with tree := own })) :
    Told config start jobs programs tree i (.removeAll workspace) answer
      (Function.update phase i (.removed workspace)) (Function.update alone i own) := by
  have leads := agree.locate_workspace now
  obtain ⟨-, -, content, own, holds⟩ := agree.of_inside now
  obtain ⟨leads', found⟩ := agree.alone_of_inside now own
  obtain ⟨answer', does⟩ := Machine.naming_removeAll_eq programs (jobs i).name workspace
    (siteOf config start (jobs i).name) content
  have here := does { start with tree := alone i } leads' found
  have there := does { start with tree } leads holds.get?_eq
  rw [here] at asked
  obtain ⟨rfl, rfl⟩ := eq_of_answered asked
  exact ⟨_, there, agree.remove now _⟩

/-! ### Any request -/

/-- **One request**: the job is told what it would be told alone, and the views agree again. -/
theorem ask [DecidableEq ι] {programs : Programs} (agree : Agree config start jobs tree phase alone)
    (isolated : programs.Isolated) (apart : StylesheetApart config jobs start) {request : Request}
    {answer : request.Answer} {own : FileTree} {next : Phase}
    (asked : Machine.naming programs (jobs i).name request { start with tree := alone i } =
      (answer, { start with tree := own }))
    (leads : Leads config (parentPath config start) (phase i) ⟨request, answer⟩ next)
    (absent : ∀ parent location entries, request = .makeScratch parent →
      tree.find start.current parent = .ok (location, .directory entries) →
        FileTree.lookup (jobs i).name entries = none)
    (unclaimed : ∀ parent j, request = .makeScratch parent →
      phase j ≠ .inside (Path.join parent (jobs i).name)) :
    Told config start jobs programs tree i request answer (Function.update phase i next)
      (Function.update alone i own) := by
  generalize now : phase i = current at leads
  -- the phase admits few requests, and there is a lemma above for each of them
  cases leads with
  | temporary directory unset =>
    obtain ⟨rfl, rfl⟩ := eq_of_answered asked
    exact ⟨tree, rfl, agree.ask_temporary now unset⟩
  | made configured => exact agree.ask_makeDirectories now configured asked
  | unmade configured reason => exact agree.ask_makeDirectories now configured asked
  | stylesheet configured =>
    rw [← now]
    exact agree.ask_stylesheet apart (Or.inl now) configured asked
  | currentDirectory =>
    rw [← now]
    exact agree.ask_currentDirectory asked
  | scratch path =>
    exact agree.ask_makeScratch now (fun location entries => absent _ location entries rfl)
      (fun j => unclaimed _ j rfl) asked
  | noScratch reason =>
    exact agree.ask_makeScratch now (fun location entries => absent _ location entries rfl)
      (fun j => unclaimed _ j rfl) asked
  | @works workspace exchange works =>
    cases works with
    | currentDirectory =>
      rw [← now]
      exact agree.ask_currentDirectory asked
    | stylesheet configured =>
      rw [← now]
      exact agree.ask_stylesheet apart (Or.inr ⟨workspace, now⟩) configured asked
    | inside inside => exact agree.ask_inside isolated now inside asked
  | removed workspace => exact agree.ask_removeAll now asked

/-! ### When all is done -/

/-- When no job is in a workspace any more, only directories for workspaces are new. -/
theorem kept (agree : Agree config start jobs tree phase alone)
    (done : ∀ i workspace, phase i ≠ .inside workspace) :
    Kept config start.current start.tree tree := by
  cases agree.stands with
  | untouched same =>
    rw [same]
    exact .refl config start.current start.tree
  | based ready based =>
    intro location
    rw [based location fun i workspace inside => absurd inside (done i workspace)]
    exact labelAt_baseTree ready location

/-- A workspace that was removed is gone. -/
theorem find_eq_notFound (agree : Agree config start jobs tree phase alone)
    (done : ∀ i workspace, phase i ≠ .inside workspace) {workspace : String}
    (removed : phase i = .removed workspace) :
    tree.find start.current workspace = .error .notFound := by
  have same (location : Location) :
      tree.labelAt location = (baseTree config start).labelAt location := by
    apply agree.based (i := i) (by simp [removed]) (by simp [removed])
    exact fun j workspace inside => absurd inside (done j workspace)
  have view := agree.views i
  rw [removed] at view
  obtain ⟨rfl, sited⟩ := view.sited_of_removed
  have located := (FileTree.locate_congr fun location _ => same location).trans sited.site.located
  have absent : tree.get? (siteOf config start (jobs i).name) = none := by
    rw [FileTree.get?_eq_none_iff, same, ← FileTree.get?_eq_none_iff]
    exact sited.site.room.get?_eq_none
  rw [FileTree.find, located]
  simp only [bind, Except.bind, absent]
  rfl

end Agree

end

end Galley.Export
