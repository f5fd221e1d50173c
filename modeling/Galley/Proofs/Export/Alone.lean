import Galley.Proofs.Export.Phases
/-!
# Exports that have a machine for themselves

A job is an export with the name that its workspace gets. Where that is the name that a machine
picks itself, the job is what the program does on the machine (`Job.run_eq`).

Before it makes its workspace, a job adds nothing to the tree but the directory for workspaces:
`baseTree` is the tree with that directory.
-/
namespace Galley.Export

open Galley.Host (Action Exchange FileTree Location Machine Programs Request)

/-- An export, with the name that its workspace gets if it makes one. -/
structure Job where
  article : Article
  lang : String
  kind : Kind
  name : String
  isName : FileTree.IsName name

namespace Job

variable (programs : Programs) (config : Config) (job : Job) (start : Machine)

def action : Action (Except Fault Artifact) := make config job.article job.lang job.kind

/-- What the job asks and is told when it has the machine for itself. -/
def transcript : List Exchange :=
  Action.transcript (Machine.naming programs job.name) (job.action config) start

/-- What it returns then. -/
def result : Except Fault Artifact :=
  ((job.action config).run (Machine.naming programs job.name) start).1

/-- What it asks leads through the phases of an export. -/
theorem exists_walks : ∃ phase,
    Walks config (parentPath config start) .outside (job.transcript programs config start) phase ∧
      ∀ workspace, phase ≠ .inside workspace :=
  Export.exists_walks (Action.dialogue_transcript _ _ _) (Machine.tells_transcript _)

end Job

/-! ### The ground of the workspaces -/

section

variable (config : Config) (start : Machine)

/-- The tree with the directory for workspaces. -/
def baseTree : FileTree :=
  match config.workspaceRootPath with
  | some root => (start.tree.makeDirectories start.current root).toOption.getD start.tree
  | none => start.tree

/-- Where the directory for workspaces is in it. -/
def basePlace : Location :=
  ((baseTree config start).locate start.current (parentPath config start)).toOption.getD []

/-- The directory for workspaces can be made. -/
def Ready : Prop :=
  ∀ root, config.workspaceRootPath = some root →
    start.tree.makeDirectories start.current root = .ok (baseTree config start)

end

section

variable {config : Config} {start : Machine}

theorem ready_of_none (unset : config.workspaceRootPath = none) :
    Ready config start ∧ baseTree config start = start.tree := by
  constructor
  · intro root configured
    rw [unset] at configured
    cases configured
  · rw [baseTree, unset]

theorem ready_of_made {root : String} (configured : config.workspaceRootPath = some root)
    {after : FileTree} (made : start.tree.makeDirectories start.current root = .ok after) :
    Ready config start ∧ baseTree config start = after := by
  have same : baseTree config start = after := by
    rw [baseTree, configured]
    simp only [made]
    rfl
  refine ⟨fun other configured' => ?_, same⟩
  obtain rfl := Option.some.inj (configured.symm.trans configured')
  rw [made, same]

theorem basePlace_eq {location : Location}
    (located : (baseTree config start).locate start.current (parentPath config start) =
      .ok location) : basePlace config start = location := by
  rw [basePlace, located]
  rfl

/-- Making the directory for workspaces adds to the tree at most. -/
theorem labelAt_baseTree (ready : Ready config start) (location : Location) :
    (baseTree config start).labelAt location = start.tree.labelAt location ∨
      location ∈ rootLocations config start.current ∧ start.tree.labelAt location = none ∧
        (baseTree config start).labelAt location = some .directory := by
  cases configured : config.workspaceRootPath with
  | none => exact Or.inl (by rw [(ready_of_none configured).2])
  | some root =>
    have made := ready root configured
    rw [FileTree.makeDirectories] at made
    split at made
    · cases made
    · simp only [rootLocations, configured]
      exact FileTree.labelAt_makeAlong made location

theorem eq_of_answered {α : Type} {first second : α} {before after : FileTree}
    (same : ((first, { start with tree := before }) : α × Machine) =
      (second, { start with tree := after })) : first = second ∧ before = after := by
  simpa using same

/-! ### The way of one job -/

/-- A job is where it comes to be alone when it was told this much. -/
structure Job.Along (programs : Programs) (config : Config) (job : Job) (start : Machine)
    (left : Action (Except Fault Artifact)) (log : List Exchange) (phase : Phase)
    (alone : FileTree) : Prop where
  walks : Walks config (parentPath config start) .outside log phase
  transcript : job.transcript programs config start =
    log ++ Action.transcript (Machine.naming programs job.name) left { start with tree := alone }
  result : job.result programs config start =
    (left.run (Machine.naming programs job.name) { start with tree := alone }).1

namespace Job.Along

variable {programs : Programs} {config : Config} {job : Job} {start : Machine} {log : List Exchange}
  {phase : Phase} {alone : FileTree}

theorem initial (programs : Programs) (config : Config) (job : Job) (machine : Machine) :
    job.Along programs config machine (job.action config) [] .outside machine.tree :=
  ⟨.nil _, rfl, rfl⟩

/-- The answer that the job gets alone, and the phase that it leads to. -/
theorem exists_next {request : Request} {next : request.Answer → Action (Except Fault Artifact)}
    (along : job.Along programs config start (.ask request next) log phase alone) :
    ∃ answer own later,
      Machine.naming programs job.name request { start with tree := alone } =
          (answer, { start with tree := own }) ∧
        Leads config (parentPath config start) phase ⟨request, answer⟩ later ∧
        job.Along programs config start (next answer) (log ++ [⟨request, answer⟩]) later own := by
  obtain ⟨answer, own, asked⟩ :=
    Machine.naming_fixed programs job.name { start with tree := alone } request
  have told := along.transcript
  have returns := along.result
  rw [Action.transcript, asked] at told
  rw [Action.run_ask, asked] at returns
  -- the whole way of the job has one phase after this answer
  obtain ⟨last, whole, -⟩ := job.exists_walks programs config start
  rw [told, walks_append_iff] at whole
  obtain ⟨between, before, rest⟩ := whole
  obtain ⟨later, leads, -⟩ := walks_cons_iff.mp rest
  obtain rfl := along.walks.unique before
  refine ⟨answer, own, later, asked, leads, ?_, ?_, returns⟩
  · exact walks_append_iff.mpr ⟨_, along.walks, .cons leads (.nil later)⟩
  · simpa using told

/-- A job that is done asked all that it would ask alone, and is in no workspace. -/
theorem of_done {value : Except Fault Artifact}
    (along : job.Along programs config start (.done value) log phase alone) :
    log = job.transcript programs config start ∧ value = job.result programs config start ∧
      ∀ workspace, phase ≠ .inside workspace := by
  have told := along.transcript
  rw [Action.transcript, List.append_nil] at told
  refine ⟨told.symm, along.result.symm, ?_⟩
  obtain ⟨last, walks, outside⟩ := job.exists_walks programs config start
  rw [told] at walks
  obtain rfl := along.walks.unique walks
  exact outside

/-- A job that asked all that it would ask alone is done. -/
theorem done_of_transcript {left : Action (Except Fault Artifact)}
    (along : job.Along programs config start left log phase alone)
    (told : log = job.transcript programs config start) :
    left = .done (job.result programs config start) := by
  have rest := along.transcript
  rw [← told, List.self_eq_append_right] at rest
  rw [along.result]
  cases left with
  | done value => rfl
  | ask request next => cases rest

end Job.Along

/-! ### The name that a machine picks -/

variable (config start) in
/-- What a job has before it as long as it has no workspace. -/
structure Starts (phase : Phase) (tree : FileTree) : Prop where
  outside : phase = .outside → tree = start.tree
  prepared : phase = .prepared → tree = baseTree config start

theorem Starts.step {programs : Programs} {name : String} {phase later : Phase}
    {tree after : FileTree} {request : Request} {answer : request.Answer}
    (starts : Starts config start phase tree)
    (asked : Machine.naming programs name request { start with tree } =
      (answer, { start with tree := after }))
    (leads : Leads config (parentPath config start) phase ⟨request, answer⟩ later) :
    Starts config start later after := by
  -- nothing is said of the phases from the workspace on
  cases leads with
  | temporary directory unset =>
    obtain ⟨-, rfl⟩ := eq_of_answered asked
    refine ⟨nofun, fun _ => ?_⟩
    rw [starts.outside rfl, (ready_of_none unset).2]
  | @made root configured =>
    refine ⟨nofun, fun _ => ?_⟩
    rw [Machine.naming_makeDirectories, starts.outside rfl] at asked
    cases made : start.tree.makeDirectories start.current root with
    | ok base =>
      simp only [made] at asked
      obtain ⟨-, rfl⟩ := eq_of_answered asked
      exact (ready_of_made configured made).2.symm
    | error reason =>
      simp only [made] at asked
      cases (eq_of_answered asked).1
  | stylesheet | currentDirectory =>
    obtain ⟨-, rfl⟩ := eq_of_answered asked
    exact starts
  | unmade | scratch | noScratch | works | removed => exact ⟨nofun, nofun⟩

theorem run_eq_of_walks {programs : Programs} {name : String}
    (picks : ∀ location entries,
      (baseTree config start).find start.current (parentPath config start) =
        .ok (location, .directory entries) → Machine.freshName? entries = some name)
    {left : Action (Except Fault Artifact)} {phase last : Phase} {tree : FileTree}
    (starts : Starts config start phase tree)
    (walks : Walks config (parentPath config start) phase
      (Action.transcript (Machine.naming programs name) left { start with tree }) last) :
    left.run (Machine.handler programs) { start with tree } =
      left.run (Machine.naming programs name) { start with tree } := by
  induction left generalizing phase tree with
  | done value => rfl
  | ask request next ih =>
    obtain ⟨answer, after, asked⟩ :=
      Machine.naming_fixed programs name { start with tree } request
    rw [Action.transcript, asked] at walks
    obtain ⟨later, leads, rest⟩ := walks_cons_iff.mp walks
    have same : Machine.handler programs request { start with tree } =
        Machine.naming programs name request { start with tree } := by
      apply Machine.handler_eq_naming
      rintro parent location entries rfl found
      -- a workspace is made in the directory that was made for it
      cases leads with
      | scratch | noScratch =>
        rw [starts.prepared rfl] at found
        exact picks location entries found
      | works works =>
        cases works with
        | inside inside => cases inside
    rw [Action.run_ask, Action.run_ask, same, asked]
    exact ih answer (starts.step asked leads) rest

/-- With the name that the machine picks, a job is what the program does there. -/
theorem Job.run_eq {programs : Programs} {job : Job}
    (picks : ∀ location entries,
      (baseTree config start).find start.current (parentPath config start) =
        .ok (location, .directory entries) → Machine.freshName? entries = some job.name) :
    (Machine.run programs (job.action config) start).1 = job.result programs config start := by
  obtain ⟨last, walks, -⟩ := job.exists_walks programs config start
  have starts : Starts config start .outside start.tree := ⟨fun _ => rfl, nofun⟩
  exact congrArg Prod.fst (run_eq_of_walks picks starts walks)

end

end Galley.Export
