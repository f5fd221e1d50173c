import Galley.Proofs.Export.Sharing
import Mathlib.Logic.Relation
/-!
# Exports that run at the same time

Any number of exports share a machine, and ask it for one thing after the other in any order. As
each of them is told what it would be told alone (`Agree.ask`), all of them are where they would be
alone at any time (`Tracks`): after no step, and by induction after any number of them.

## Main result

`exports_independent`: however the requests of the jobs are interleaved, every job returns what it
returns alone in a workspace of the same name, and when all have returned no workspace is left. The
path to the stylesheet must not lead through directories that are only made for workspaces: with
such a path an export may succeed that fails alone (`exports_not_independent`).
-/
namespace Galley.Export

open Galley.Host (Action Exchange FileTree Machine Programs Request)

/-! ### Jobs on one machine -/

/-- A machine and the jobs on it. -/
structure Shared (ι : Type) where
  machine : Machine
  /-- What every job has still to do. -/
  left : ι → Action (Except Fault Artifact)
  /-- What every job has asked so far, and was told. -/
  log : ι → List Exchange

section

variable {ι : Type}

def Shared.start (config : Config) (jobs : ι → Job) (machine : Machine) : Shared ι :=
  ⟨machine, fun i => (jobs i).action config, fun _ => []⟩

/-- There is nothing with this name in a directory, and no job has a workspace with the path. -/
structure Unused (shared : Shared ι) (parent name : String) : Prop where
  absent : ∀ location entries,
    shared.machine.tree.find shared.machine.current parent = .ok (location, .directory entries) →
      FileTree.lookup name entries = none
  unclaimed : ∀ i, ¬ InUse (shared.log i) (Path.join parent name)

/-- The jobs on a machine are where they would be if they were alone. -/
structure Tracks (programs : Programs) (config : Config) (jobs : ι → Job) (start : Machine)
    (shared : Shared ι) (phase : ι → Phase) (alone : ι → FileTree) : Prop where
  machine : shared.machine = { start with tree := shared.machine.tree }
  agree : Agree config start jobs shared.machine.tree phase alone
  along : ∀ i,
    (jobs i).Along programs config start (shared.left i) (shared.log i) (phase i) (alone i)

theorem tracks_start (programs : Programs) (config : Config) (jobs : ι → Job) (start : Machine) :
    Tracks programs config jobs start (.start config jobs start) (fun _ => .outside)
      (fun _ => start.tree) where
  machine := rfl
  agree := ⟨fun _ => .outside, nofun, .untouched rfl fun _ => Or.inl rfl⟩
  along i := .initial programs config (jobs i) start

/-! ### Steps -/

variable {config : Config} {start : Machine} {jobs : ι → Job} {programs : Programs}
  {shared after : Shared ι} {phase : ι → Phase} {alone : ι → FileTree} [DecidableEq ι]

/-- One of the jobs is given an answer. -/
def Shared.answer (shared : Shared ι) (i : ι) {request : Request}
    (next : request.Answer → Action (Except Fault Artifact)) (answer : request.Answer × Machine) :
    Shared ι :=
  ⟨answer.2, Function.update shared.left i (next answer.1),
    Function.update shared.log i (shared.log i ++ [⟨request, answer.1⟩])⟩

/-- Any of the jobs asks the machine for the next thing. New workspaces are unused. -/
inductive Shared.Step (programs : Programs) (jobs : ι → Job) : Shared ι → Shared ι → Prop
  | ask {shared : Shared ι} {i : ι} {request : Request}
    {next : request.Answer → Action (Except Fault Artifact)}
    (asks : shared.left i = .ask request next)
    (unused : ∀ parent, request = .makeScratch parent → Unused shared parent (jobs i).name) :
    Shared.Step programs jobs shared
      (shared.answer i next (Machine.naming programs (jobs i).name request shared.machine))

/-! ### Schedules -/

/-- A job is given the answer to what it asks next. -/
def Shared.next (programs : Programs) (jobs : ι → Job) (shared : Shared ι) (i : ι) : Shared ι :=
  match shared.left i with
  | .done _ => shared
  | .ask request next =>
    shared.answer i next (Machine.naming programs (jobs i).name request shared.machine)

/-- A job may be given that answer. -/
def Shared.Admits (jobs : ι → Job) (shared : Shared ι) (i : ι) : Prop :=
  match shared.left i with
  | .ask (.makeScratch parent) _ => Unused shared parent (jobs i).name
  | _ => True

theorem Shared.step_next (admits : shared.Admits jobs i) :
    Relation.ReflGen (Shared.Step programs jobs) shared (shared.next programs jobs i) := by
  unfold Shared.next
  cases asks : shared.left i with
  | done value => exact .refl
  | ask request next =>
    refine .single (.ask asks fun parent scratch => ?_)
    subst scratch
    rw [Shared.Admits, asks] at admits
    exact admits

def Shared.AdmitsAll (programs : Programs) (jobs : ι → Job) : Shared ι → List ι → Prop
  | _, [] => True
  | shared, i :: rest =>
    shared.Admits jobs i ∧ AdmitsAll programs jobs (shared.next programs jobs i) rest

theorem Shared.runs_of_admitsAll {schedule : List ι}
    (admits : shared.AdmitsAll programs jobs schedule) :
    Relation.ReflTransGen (Shared.Step programs jobs) shared
      (schedule.foldl (Shared.next programs jobs) shared) := by
  induction schedule generalizing shared with
  | nil => exact .refl
  | cons i rest ih => exact (Shared.step_next admits.1).to_reflTransGen.trans (ih admits.2)

/-! ### Runs -/

/-- A request of one job leaves all of them where they would be alone. -/
theorem Tracks.step (tracks : Tracks programs config jobs start shared phase alone)
    (isolated : programs.Isolated) (apart : StylesheetApart config jobs start)
    (step : Shared.Step programs jobs shared after) :
    ∃ phase alone, Tracks programs config jobs start after phase alone := by
  cases step with
  | @ask i request next asks unused =>
    -- what the job would be told alone
    have along := tracks.along i
    rw [asks] at along
    obtain ⟨answer, own, later, asked, leads, along'⟩ := along.exists_next
    -- it is told that, and the trees agree again
    have current : shared.machine.current = start.current := by rw [tracks.machine]
    obtain ⟨tree, same, agree⟩ := tracks.agree.ask isolated apart asked leads
      (fun parent location entries scratch found =>
        (unused parent scratch).absent location entries (current ▸ found))
      (fun parent j scratch inside =>
        (unused parent scratch).unclaimed j ((tracks.along j).walks.inUse nofun inside))
    have answered : Machine.naming programs (jobs i).name request shared.machine =
        (answer, { start with tree }) := by
      rw [tracks.machine]
      exact same
    rw [answered]
    refine ⟨Function.update phase i later, Function.update alone i own, rfl, agree, fun j => ?_⟩
    by_cases here : j = i
    · subst here
      simp only [Shared.answer, Function.update_self]
      exact along'
    · simp only [Shared.answer, Function.update_of_ne here]
      exact tracks.along j

theorem exists_tracks (isolated : programs.Isolated) (apart : StylesheetApart config jobs start)
    {final : Shared ι}
    (runs : Relation.ReflTransGen (Shared.Step programs jobs) (.start config jobs start) final) :
    ∃ phase alone, Tracks programs config jobs start final phase alone := by
  induction runs with
  | refl => exact ⟨_, _, tracks_start programs config jobs start⟩
  | tail _ step ih =>
    obtain ⟨phase, alone, tracks⟩ := ih
    exact tracks.step isolated apart step

/-- **Independence**: if the way to the stylesheet is not through what is only made for workspaces,
then however the requests of exports on one machine are interleaved, each asks and is told what it
would ask and be told alone in a workspace of the same name. It has returned as soon as that is all
asked, and then with what it would return alone. When all have returned, the tree is as before, but
for directories on the way to the configured one for workspaces, and no workspace is left. -/
theorem exports_independent (isolated : programs.Isolated)
    (apart : StylesheetApart config jobs start) {final : Shared ι}
    (runs : Relation.ReflTransGen (Shared.Step programs jobs) (.start config jobs start) final) :
    (∀ i, final.log i <+: (jobs i).transcript programs config start ∧
      ∀ value, final.left i = .done value ↔
        final.log i = (jobs i).transcript programs config start ∧
          value = (jobs i).result programs config start) ∧
      ((∀ i, ∃ value, final.left i = .done value) →
        Kept config start.current start.tree final.machine.tree ∧
          ∀ i parent workspace, (⟨.makeScratch parent, .ok workspace⟩ : Exchange) ∈ final.log i →
            final.machine.tree.find start.current workspace = .error .notFound) := by
  obtain ⟨phase, alone, tracks⟩ := exists_tracks isolated apart runs
  have finished {i : ι} {value : Except Fault Artifact} (done : final.left i = .done value) :
      final.log i = (jobs i).transcript programs config start ∧
        value = (jobs i).result programs config start ∧
        ∀ workspace, phase i ≠ .inside workspace := by
    have along := tracks.along i
    rw [done] at along
    exact along.of_done
  constructor
  · -- what was asked alone begins with what was asked here
    intro i
    refine ⟨⟨_, (tracks.along i).transcript.symm⟩, fun value => ⟨fun done => ?_, ?_⟩⟩
    · obtain ⟨told, returned, -⟩ := finished done
      exact ⟨told, returned⟩
    · rintro ⟨told, rfl⟩
      exact (tracks.along i).done_of_transcript told
  · intro allDone
    have outside (i : ι) (workspace : String) : phase i ≠ .inside workspace := by
      obtain ⟨value, done⟩ := allDone i
      exact (finished done).2.2 workspace
    refine ⟨tracks.agree.kept outside, fun i parent workspace member => ?_⟩
    rcases (tracks.along i).walks.of_scratch member with inside | removed
    · exact absurd inside (outside i workspace)
    · exact tracks.agree.find_eq_notFound outside removed

end

private theorem isolated_scribbling : scribbling.Isolated := by
  intro invocation location
  refine ⟨fun _ => (.finished (some 1) .empty .empty,
    some (.directory [("junk", .file .empty)])), ?_⟩
  intro tree entry _
  rfl

/-- The way to the stylesheet leads through the directory for workspaces. -/
def detour : Config := { workspaceRoot := some "/srv/work", stylesheet := some "/srv/work/../kept" }

/-- A page, which needs no workspace, and a LaTeX export of the same article. -/
def pageAndLatex : Bool → Job
  | false => ⟨⟨"a", none, [], none, none, none, []⟩, "en", .html, "one", by decide⟩
  | true => ⟨⟨"a", none, [], none, none, none, []⟩, "en", .latex, "two", by decide⟩

private theorem admits_detour :
    (Shared.start detour pageAndLatex almostEmpty).AdmitsAll scribbling pageAndLatex
      [true, false, true, true, true, true] := by
  refine ⟨trivial, trivial, ⟨?_, ?_⟩, trivial, trivial, trivial, trivial⟩
  · intro location entries found
    cases found
    rfl
  · rintro i ⟨⟨parent, made⟩, -⟩
    cases i with
    | false => cases made with | tail _ made => cases made
    | true => cases made with | tail _ made => cases made

/-- Where `StylesheetApart` fails: alone the page misses its stylesheet, but it gets made once
another export has made the directory for workspaces. -/
theorem exports_not_independent :
    ∃ final : Shared Bool,
      (scribbling.Isolated ∧
        Relation.ReflTransGen (Shared.Step scribbling pageAndLatex)
          (.start detour pageAndLatex almostEmpty) final ∧
        ∀ i, ∃ value, final.left i = .done value) ∧
      (∃ artifact, final.left false = .done (.ok artifact)) ∧
      (pageAndLatex false).result scribbling detour almostEmpty = .error (.io .notFound) := by
  refine ⟨_, ⟨isolated_scribbling, Shared.runs_of_admitsAll admits_detour, ?_⟩, ⟨_, rfl⟩, rfl⟩
  intro i
  cases i
  · exact ⟨_, rfl⟩
  · exact ⟨_, rfl⟩

/-- A LaTeX and a DOCX export of one article. -/
def latexAndDocx : Bool → Job
  | false => ⟨⟨"a", none, [], none, none, none, []⟩, "en", .latex, "one", by decide⟩
  | true => ⟨⟨"a", none, [], none, none, none, []⟩, "en", .docx, "two", by decide⟩

def rooted : Config := { workspaceRoot := some "/srv/work", stylesheet := some "/srv/kept" }

/-- Both exports make a workspace before one of them goes on. -/
def crossing : List Bool :=
  [false, true, false, true, true, false, true, true, false, false, true]

private theorem admits_crossing :
    (Shared.start rooted latexAndDocx almostEmpty).AdmitsAll scribbling latexAndDocx crossing := by
  -- nothing is to be shown but that the names of the two workspaces are free
  refine ⟨trivial, trivial, ⟨?_, ?_⟩, ⟨?_, ?_⟩, trivial, trivial, trivial, trivial, trivial,
    trivial, trivial, trivial⟩
  · intro location entries found
    cases found
    rfl
  · rintro i ⟨⟨parent, made⟩, -⟩
    cases i with
    | false => cases made with | tail _ made => cases made
    | true => cases made with | tail _ made => cases made
  · intro location entries found
    cases found
    rfl
  · rintro i ⟨⟨parent, made⟩, -⟩
    cases i with
    | false => cases made with | tail _ made => cases made with | tail _ made => cases made
    | true => cases made with | tail _ made => cases made

/-- Two exports cross on a disk where the directory for workspaces is missing, and both fail. -/
theorem exports_independent_crossed :
    ∃ final : Shared Bool,
      (scribbling.Isolated ∧ StylesheetApart rooted latexAndDocx almostEmpty ∧
        Relation.ReflTransGen (Shared.Step scribbling latexAndDocx)
          (.start rooted latexAndDocx almostEmpty) final ∧
        ∀ i, ∃ value, final.left i = .done value) ∧
      (∀ i, final.left i =
        .done ((latexAndDocx i).result scribbling rooted almostEmpty)) ∧
      Kept rooted [] almostEmpty.tree final.machine.tree ∧
      final.machine.tree.find [] "/srv/work/one" = .error .notFound ∧
      final.machine.tree.find [] "/srv/work/two" = .error .notFound := by
  have apart : StylesheetApart rooted latexAndDocx almostEmpty := by
    apply stylesheetApart_of_read
    intro path configured
    cases configured
    exact ⟨_, rfl⟩
  have runs := Shared.runs_of_admitsAll admits_crossing
  have done (i : Bool) : ∃ value, (crossing.foldl (Shared.next scribbling latexAndDocx)
      (.start rooted latexAndDocx almostEmpty)).left i = .done value := by
    cases i
    · exact ⟨_, rfl⟩
    · exact ⟨_, rfl⟩
  obtain ⟨returned, left⟩ := exports_independent isolated_scribbling apart runs
  obtain ⟨kept, gone⟩ := left done
  refine ⟨_, ⟨isolated_scribbling, apart, runs, done⟩, fun i => ?_, kept, ?_, ?_⟩
  · obtain ⟨value, finished⟩ := done i
    have same := (((returned i).2 value).mp finished).2
    rw [finished, same]
  · exact gone false "/srv/work" _ (.tail _ (.head _))
  · exact gone true "/srv/work" _ (.tail _ (.head _))

end Galley.Export
