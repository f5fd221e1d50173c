import Galley.Proofs.Export.Cleanup
import Galley.Proofs.Host.Naming
/-!
# Phases of an export

An export first finds the directory for workspaces, then makes one in it, works there, and removes
it. The phase it is in tells what it may ask for next (`Leads`): outside of a workspace nothing but
the directory for workspaces and the configured stylesheet, in one nothing but its own files and
that stylesheet.

## Main result

`exists_walks`: the exchanges of every export lead through these phases, and at the end it is in no
workspace.
-/
namespace Galley.Export

open Galley.Host (Action Exchange FileTree Machine Request)
open Galley.Host.Action (Dialogue)

inductive Phase where
  /-- Nothing is made yet, if anything will be. -/
  | outside
  /-- The directory for workspaces is there. -/
  | prepared
  | inside (workspace : String)
  /-- A workspace is gone again, and nothing is asked for any more. -/
  | removed (workspace : String)
  /-- There will be no workspace. -/
  | failed

/-- The path that workspaces are made under. -/
def parentPath (config : Config) (machine : Machine) : String :=
  match config.workspaceRootPath with
  | some root =>
    if Path.isAbsolute root then Path.absolute "" root
    else Path.absolute (Machine.pathOf machine.current) root
  | none => machine.temporary

/-- What the work in a workspace may ask for. -/
inductive Works (config : Config) (workspace : String) : Request → Prop
  | currentDirectory : Works config workspace .currentDirectory
  | stylesheet {path : String} (configured : config.stylesheetPath = some path) :
    Works config workspace (.read path)
  | inside {request : Request} (inside : request.Inside workspace) :
    Works config workspace request

/-- The phase that an exchange leads to, where it belongs to the phase before. -/
inductive Leads (config : Config) (parent : String) : Phase → Exchange → Phase → Prop
  | temporary (directory : String) (unset : config.workspaceRootPath = none) :
    Leads config parent .outside ⟨.temporaryDirectory, directory⟩ .prepared
  | made {root : String} (configured : config.workspaceRootPath = some root) :
    Leads config parent .outside ⟨.makeDirectories root, .ok ()⟩ .prepared
  | unmade {root : String} (configured : config.workspaceRootPath = some root)
    (reason : Host.Failure) :
    Leads config parent .outside ⟨.makeDirectories root, .error reason⟩ .failed
  | stylesheet {path : String} (configured : config.stylesheetPath = some path)
    (answer : Except Host.Failure ByteArray) :
    Leads config parent .outside ⟨.read path, answer⟩ .outside
  | currentDirectory (answer : Except Host.Failure String) :
    Leads config parent .prepared ⟨.currentDirectory, answer⟩ .prepared
  | scratch (path : String) :
    Leads config parent .prepared ⟨.makeScratch parent, .ok path⟩ (.inside path)
  | noScratch (reason : Host.Failure) :
    Leads config parent .prepared ⟨.makeScratch parent, .error reason⟩ .failed
  | works {workspace : String} {exchange : Exchange}
    (works : Works config workspace exchange.request) :
    Leads config parent (.inside workspace) exchange (.inside workspace)
  | removed (workspace : String) (answer : Except Host.Failure Unit) :
    Leads config parent (.inside workspace) ⟨.removeAll workspace, answer⟩ (.removed workspace)

/-- The phases that one exchange after the other leads through. -/
inductive Walks (config : Config) (parent : String) : Phase → List Exchange → Phase → Prop
  | nil (phase : Phase) : Walks config parent phase [] phase
  | cons {first second last : Phase} {exchange : Exchange} {rest : List Exchange}
    (leads : Leads config parent first exchange second)
    (walks : Walks config parent second rest last) :
    Walks config parent first (exchange :: rest) last

section

variable {config : Config} {parent : String} {first second last : Phase} {exchange : Exchange}
  {log later : List Exchange}

theorem walks_nil_iff : Walks config parent first [] last ↔ last = first := by
  constructor
  · intro walks
    cases walks
    rfl
  · rintro rfl
    exact .nil last

theorem walks_cons_iff :
    Walks config parent first (exchange :: log) last ↔
      ∃ between, Leads config parent first exchange between ∧
        Walks config parent between log last := by
  constructor
  · intro walks
    cases walks with
    | cons leads walks => exact ⟨_, leads, walks⟩
  · rintro ⟨between, leads, walks⟩
    exact .cons leads walks

theorem walks_append_iff :
    Walks config parent first (log ++ later) last ↔
      ∃ between, Walks config parent first log between ∧
        Walks config parent between later last := by
  induction log generalizing first with
  | nil => simp [walks_nil_iff]
  | cons exchange log ih =>
    simp only [List.cons_append, walks_cons_iff, ih]
    constructor
    · rintro ⟨next, leads, between, here, there⟩
      exact ⟨between, ⟨next, leads, here⟩, there⟩
    · rintro ⟨between, ⟨next, leads, here⟩, there⟩
      exact ⟨next, leads, between, here, there⟩

theorem not_works_removeAll {workspace path : String} :
    ¬ Works config workspace (.removeAll path) := by
  intro works
  cases works with
  | inside inside => cases inside

theorem Leads.unique (one : Leads config parent first exchange second)
    (other : Leads config parent first exchange last) : last = second := by
  cases one with
  | works works =>
    cases other with
    | works => rfl
    -- removing the workspace is no work in it
    | removed => exact absurd works not_works_removeAll
  | removed =>
    cases other with
    | works works => exact absurd works not_works_removeAll
    | removed => rfl
  | temporary | made | unmade | stylesheet | currentDirectory | scratch | noScratch =>
    cases other
    rfl

theorem Walks.unique (one : Walks config parent first log second)
    (other : Walks config parent first log last) : last = second := by
  induction one with
  | nil => exact walks_nil_iff.mp other
  | cons leads walks ih =>
    obtain ⟨between, leads', walks'⟩ := walks_cons_iff.mp other
    obtain rfl := leads.unique leads'
    exact ih walks'

end

/-- A workspace that was made, and not removed yet. -/
def InUse (log : List Exchange) (workspace : String) : Prop :=
  (∃ parent, (⟨.makeScratch parent, .ok workspace⟩ : Exchange) ∈ log) ∧
    ∀ answer, (⟨.removeAll workspace, answer⟩ : Exchange) ∉ log

section

variable {config : Config} {parent workspace : String} {first last : Phase} {log : List Exchange}

private theorem Walks.of_inside (walks : Walks config parent first log last)
    (starts : first = .inside workspace) :
    last = .inside workspace ∧ (∀ answer, (⟨.removeAll workspace, answer⟩ : Exchange) ∉ log) ∨
      last = .removed workspace := by
  induction walks with
  | nil => exact Or.inl ⟨starts, by simp⟩
  | cons leads walks ih =>
    subst starts
    -- from inside a workspace there is only work in it and its removal
    cases leads with
    | works works =>
      refine (ih rfl).imp_left fun ⟨same, stays⟩ => ⟨same, fun answer member => ?_⟩
      rcases List.mem_cons.mp member with rfl | member
      · exact not_works_removeAll works
      · exact stays answer member
    | removed =>
      -- nothing comes after the removal
      cases walks with
      | nil => exact Or.inr rfl
      | cons leads => cases leads

/-- What becomes of a workspace that was made. -/
theorem Walks.of_scratch {under : String} (walks : Walks config parent first log last)
    (member : (⟨.makeScratch under, .ok workspace⟩ : Exchange) ∈ log) :
    last = .inside workspace ∨ last = .removed workspace := by
  induction walks with
  | nil => cases member
  | cons leads walks ih =>
    rcases List.mem_cons.mp member with rfl | member
    · cases leads with
      | scratch => exact (walks.of_inside rfl).imp_left And.left
      | works works =>
        cases works with
        | inside inside => cases inside
    · exact ih member

/-- A workspace that an export is in is in use. -/
theorem Walks.inUse (walks : Walks config parent first log last)
    (starts : ∀ other, first ≠ .inside other) (ends : last = .inside workspace) :
    InUse log workspace := by
  induction walks with
  | nil => exact absurd ends (starts workspace)
  | @cons first second last exchange log leads walks ih =>
    -- the workspace is made by this exchange or by a later one
    by_cases entered : ∃ other, second = .inside other
    · obtain ⟨other, rfl⟩ := entered
      rcases walks.of_inside rfl with ⟨rfl, stays⟩ | gone
      · obtain rfl := Phase.inside.inj ends
        cases leads with
        | scratch =>
          refine ⟨⟨parent, List.mem_cons_self⟩, fun answer member => ?_⟩
          rcases List.mem_cons.mp member with never | member
          · cases never
          · exact stays answer member
        | works => exact absurd rfl (starts other)
      · rw [gone] at ends
        cases ends
    · obtain ⟨⟨under, made⟩, stays⟩ := ih (fun other same => entered ⟨other, same⟩) ends
      refine ⟨⟨under, List.mem_cons_of_mem _ made⟩, fun answer member => ?_⟩
      rcases List.mem_cons.mp member with rfl | member
      · cases leads with
        | works => exact absurd rfl (starts _)
        | removed => exact absurd rfl (starts _)
      · exact stays answer member

end

/-! ### The phases of every step -/

section

variable {config : Config} {machine : Machine} {log : List Exchange}

private theorem walks_located {path parent : String} {answer : Except Host.Failure String}
    (located : Located path log answer) :
    Walks config parent .prepared log .prepared := by
  cases located with
  | empty | rooted => exact .nil .prepared
  | relative | unknown => exact .cons (.currentDirectory _) (.nil _)

private theorem walks_parent {directory : String}
    (passes : (Stage.parent config.workspaceRootPath directory).Passes log)
    (tells : ∀ exchange ∈ log, machine.Tells exchange) :
    Walks config (parentPath config machine) .outside log .prepared ∧
      directory = parentPath config machine := by
  rw [parentPath]
  generalize configured : config.workspaceRootPath = root at passes ⊢
  cases passes with
  | temporary =>
    refine ⟨.cons (.temporary _ configured) (.nil _), ?_⟩
    cases tells _ List.mem_cons_self with
    | temporaryDirectory => rfl
    | other _ never => exact absurd rfl never
  | root located =>
    refine ⟨.cons (.made configured) (walks_located located), ?_⟩
    cases located with
    | rooted nonempty rooted => exact (if_pos rooted).symm
    | relative nonempty relative current =>
      refine Eq.trans ?_ (if_neg (ne_true_of_eq_false relative)).symm
      cases tells _ (List.mem_cons_of_mem _ List.mem_cons_self) with
      | currentDirectory => rfl
      | other never => exact absurd rfl never

private theorem walks_parent_fails {parent directory : String} {fault : Fault}
    (fails : (Stage.parent config.workspaceRootPath directory).Fails log fault) :
    ∃ phase, Walks config parent .outside log phase ∧ ∀ workspace, phase ≠ .inside workspace := by
  generalize configured : config.workspaceRootPath = root at fails
  cases fails with
  | root reason => exact ⟨.failed, .cons (.unmade configured reason) (.nil _), nofun⟩
  | rootUnplaced located =>
    exact ⟨.prepared, .cons (.made configured) (walks_located located), nofun⟩

theorem walks_preparation {found : Findings}
    (follows : Follows (preparation config found) log none)
    (tells : ∀ exchange ∈ log, machine.Tells exchange) :
    Walks config (parentPath config machine) .outside log (.inside found.workspace) := by
  obtain ⟨near, last, rfl, passes, ends⟩ | ⟨_, never, -⟩ := follows_cons_iff.mp follows
  · obtain ⟨walks, same⟩ := walks_parent passes fun exchange member =>
      tells exchange (List.mem_append_left last member)
    refine walks_append_iff.mpr ⟨.prepared, walks, ?_⟩
    obtain ⟨-, makes⟩ | ⟨_, never, -⟩ := follows_singleton_iff.mp ends
    · cases makes
      rw [same]
      exact .cons (.scratch _) (.nil _)
    · cases never
  · cases never

theorem walks_preparation_fails {found : Findings} {fault : Fault}
    (follows : Follows (preparation config found) log (some fault))
    (tells : ∀ exchange ∈ log, machine.Tells exchange) :
    ∃ phase, Walks config (parentPath config machine) .outside log phase ∧
      ∀ workspace, phase ≠ .inside workspace := by
  obtain ⟨near, last, rfl, passes, ends⟩ | ⟨_, -, fails⟩ := follows_cons_iff.mp follows
  · obtain ⟨walks, same⟩ := walks_parent passes fun exchange member =>
      tells exchange (List.mem_append_left last member)
    refine ⟨.failed, walks_append_iff.mpr ⟨.prepared, walks, ?_⟩, nofun⟩
    obtain ⟨never, -⟩ | ⟨_, -, fails⟩ := follows_singleton_iff.mp ends
    · cases never
    · cases fails with
      | scratch reason =>
        rw [same]
        exact .cons (.noScratch reason) (.nil _)
  · exact walks_parent_fails fails

end

/-! ### The phase of work -/

/-- The path that a step reads. -/
def Stage.readPath? : Stage → Option String
  | .stylesheet path _ => path
  | .make _ path _ => some path
  | _ => none

theorem Located.ne_read {path other : String} {log : List Exchange}
    {answer : Except Host.Failure String} (located : Located path log answer) :
    ∀ exchange ∈ log, exchange.request ≠ .read other := by
  intro exchange member
  rw [located.request_eq exchange member]
  nofun

section

variable {stage : Stage} {log : List Exchange} {path : String} {exchange : Exchange}

private theorem readPath?_of_passes (passes : stage.Passes log) (member : exchange ∈ log)
    (reads : exchange.request = .read path) : stage.readPath? = some path := by
  cases passes with
  | temporary | scratch | write =>
    cases List.mem_singleton.mp member
    cases reads
  | root located =>
    cases List.mem_cons.mp member with
    | inl same => cases same; cases reads
    | inr member => exact absurd reads (located.ne_read exchange member)
  | template located => exact absurd reads (located.ne_read exchange member)
  | builtin | standalone => cases member
  | stylesheet isText =>
    cases List.mem_singleton.mp member
    cases reads
    rfl
  | make stdout stderr nonempty =>
    simp only [List.mem_cons, List.not_mem_nil, or_false] at member
    rcases member with rfl | rfl
    · cases reads
    · cases reads
      rfl

private theorem readPath?_of_fails {fault : Fault} (fails : stage.Fails log fault)
    (member : exchange ∈ log) (reads : exchange.request = .read path) :
    stage.readPath? = some path := by
  cases fails with
  | root | scratch | write | unstartable | timedOut | failed =>
    cases List.mem_singleton.mp member
    cases reads
  | rootUnplaced located =>
    cases List.mem_cons.mp member with
    | inl same => cases same; cases reads
    | inr member => exact absurd reads (located.ne_read exchange member)
  | template located => exact absurd reads (located.ne_read exchange member)
  | stylesheet | stylesheetUnreadable =>
    cases List.mem_singleton.mp member
    cases reads
    rfl
  | missing | empty | unreadable =>
    simp only [List.mem_cons, List.not_mem_nil, or_false] at member
    rcases member with rfl | rfl
    · cases reads
    · cases reads
      rfl

theorem Follows.readPath? {plan : List Stage} {fault : Option Fault}
    (follows : Follows plan log fault) (member : exchange ∈ log)
    (reads : exchange.request = .read path) : ∃ stage ∈ plan, stage.readPath? = some path := by
  induction follows with
  | finished => cases member
  | pass passes _ ih =>
    rcases List.mem_append.mp member with member | member
    · exact ⟨_, List.mem_cons_self, readPath?_of_passes passes member reads⟩
    · obtain ⟨stage, later, found⟩ := ih member
      exact ⟨stage, List.mem_cons_of_mem _ later, found⟩
  | stop fails => exact ⟨_, List.mem_cons_self, readPath?_of_fails fails member reads⟩

end

section

variable (config : Config) (article : Article) (lang : String) (found : Findings)

/-- The paths that are read in a workspace. -/
def Reads (path : String) : Prop :=
  config.stylesheetPath = some path ∨
    ∃ name, FileTree.IsName name ∧ path = Path.join found.workspace name

private theorem reads_latexSequence {stage : Stage} {path : String}
    (member : stage ∈ latexSequence config article lang found)
    (reads : stage.readPath? = some path) : Reads config found path := by
  simp only [latexSequence, List.mem_append, List.mem_cons, List.not_mem_nil, or_false] at member
  rcases member with (rfl | written) | rfl | rfl
  · cases reads
  · split at written
    · cases written
    · cases List.mem_singleton.mp written
      cases reads
  · cases reads
  · cases reads
    exact Or.inr ⟨latexFile, by decide, rfl⟩

private theorem reads_sequence {kind : Kind} {stage : Stage} {path : String}
    (member : stage ∈ sequence config article lang found kind)
    (reads : stage.readPath? = some path) : Reads config found path := by
  -- the stylesheet apart, a step only reads the file that its program should have made
  cases kind with
  | latex => exact reads_latexSequence config article lang found member reads
  | pdf engine =>
    cases engine with
    | tex =>
      rcases List.mem_append.mp member with member | member
      · exact reads_latexSequence config article lang found member reads
      · cases List.mem_singleton.mp member
        cases reads
        exact Or.inr ⟨pdfFile, by decide, rfl⟩
    | pagedMedia =>
      simp only [sequence, List.mem_cons, List.not_mem_nil, or_false] at member
      rcases member with rfl | rfl | rfl | rfl
      · cases reads
      · exact Or.inl reads
      · cases reads
      · cases reads
        exact Or.inr ⟨pdfFile, by decide, rfl⟩
  | docx =>
    simp only [sequence, List.mem_cons, List.not_mem_nil, or_false] at member
    rcases member with rfl | rfl | rfl
    · exact Or.inl reads
    · cases reads
    · cases reads
      exact Or.inr ⟨docxFile, by decide, rfl⟩
  | html | jats | text => cases member

/-- All that is asked for between making the workspace and removing it is work in it. -/
theorem works_of_follows {kind : Kind} {log : List Exchange} {fault : Option Fault}
    (follows : Follows (sequence config article lang found kind) log fault) :
    ∀ exchange ∈ log, Works config found.workspace exchange.request := by
  intro exchange member
  have stays := follows.stays (staysIn_sequence config article lang found kind) exchange member
  generalize asks : exchange.request = request at stays
  cases stays with
  | currentDirectory => exact .currentDirectory
  | write isName bytes => exact .inside (.write isName bytes)
  | run inside => exact .inside (.run inside)
  | read path =>
    -- that a request stays in the workspace leaves open what it reads; the steps tell
    obtain ⟨stage, later, reads⟩ := follows.readPath? member asks
    rcases reads_sequence config article lang found later reads with configured | ⟨_, isName, rfl⟩
    · exact .stylesheet configured
    · exact .inside (.read isName)

end

theorem walks_of_works {config : Config} {parent workspace : String} {log : List Exchange}
    (works : ∀ exchange ∈ log, Works config workspace exchange.request) :
    Walks config parent (.inside workspace) log (.inside workspace) := by
  induction log with
  | nil => exact .nil _
  | cons exchange log ih =>
    rw [List.forall_mem_cons] at works
    exact .cons (.works works.1) (ih works.2)

/-! ### Whole exports -/

private theorem walks_inMemory {config : Config} {parent css : String} {kind : Kind}
    {log : List Exchange} {fault : Option Fault}
    (follows : Follows (memorySequence config css kind) log fault) :
    Walks config parent .outside log .outside := by
  cases kind with
  | html =>
    rcases follows_singleton_iff.mp follows with ⟨-, passes⟩ | ⟨_, -, fails⟩
    · generalize configured : config.stylesheetPath = path at passes
      cases passes with
      | builtin => exact .nil _
      | stylesheet => exact .cons (.stylesheet configured _) (.nil _)
    · generalize configured : config.stylesheetPath = path at fails
      cases fails with
      | stylesheet | stylesheetUnreadable => exact .cons (.stylesheet configured _) (.nil _)
  | latex | pdf _ | docx | jats | text =>
    rw [(follows_nil_iff.mp follows).1]
    exact .nil _

/-- The exchanges of an export with a machine lead through its phases, and in the end it is in no
workspace. -/
theorem exists_walks {config : Config} {article : Article} {lang : String} {kind : Kind}
    {machine : Machine} {log : List Exchange} {result : Except Fault Artifact}
    (told : Dialogue (make config article lang kind) log result)
    (tells : ∀ exchange ∈ log, machine.Tells exchange) :
    ∃ phase, Walks config (parentPath config machine) .outside log phase ∧
      ∀ workspace, phase ≠ .inside workspace := by
  cases needs : kind.needsPrograms with
  | false =>
    obtain ⟨css, fault, follows⟩ := exists_follows_of_inMemory needs told
    exact ⟨.outside, walks_inMemory follows, nofun⟩
  | true =>
    cases (dialogue_make_iff config article lang kind needs).mp told with
    | unprepared stopped => exact walks_preparation_fails stopped tells
    | @closed found made done fault prepared follows removed =>
      -- preparation, then work, then the removal
      have walks := walks_preparation prepared fun exchange member =>
        tells exchange (List.mem_append_left _ (List.mem_append_left _ member))
      have works := works_of_follows config article lang found follows
      have worked := walks_append_iff.mpr ⟨_, walks, walks_of_works works⟩
      refine ⟨.removed found.workspace, walks_append_iff.mpr ⟨_, worked, ?_⟩, nofun⟩
      exact .cons (.removed _ removed) (.nil _)

end Galley.Export
