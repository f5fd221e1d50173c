import Galley.Proofs.Export.Outcome
import Galley.Proofs.Host.Confinement
/-!
# What exports leave behind

An export works in a workspace of its own, which is free ground without it. Whatever is asked for
between making and removing the workspace only changes what is in its place (`Site.runs`), so with
the workspace all of that is gone.

## Main result

`make_cleansUp`: after an export, whatever became of it, the file tree is as before, but for
directories on the way to the configured one for workspaces.
-/
namespace Galley.Export

open Galley.Host (Action Exchange FileTree Location Request Responds Runs)
open Galley.Host.Action (Dialogue)

/-! ### Requests inside a workspace -/

/-- Requests that change nothing outside of a workspace. -/
inductive Stays (workspace : String) : Request → Prop
  | currentDirectory : Stays workspace .currentDirectory
  | read (path : String) : Stays workspace (.read path)
  | write {name : String} (isName : FileTree.IsName name) (bytes : ByteArray) :
    Stays workspace (.write (Path.join workspace name) bytes)
  | run {invocation : Host.Invocation} (inside : invocation.directory = workspace) :
    Stays workspace (.run invocation)

/-- Steps that are done with such requests alone. -/
inductive Stage.StaysIn (workspace : String) : Stage → Prop
  | write {name : String} (isName : FileTree.IsName name) (bytes : ByteArray) :
    StaysIn workspace (.write (Path.join workspace name) bytes)
  | stylesheet (path : Option String) (css : String) : StaysIn workspace (.stylesheet path css)
  | template (path shown : Option String) : StaysIn workspace (.template path shown)
  | make {invocation : Host.Invocation} (inside : invocation.directory = workspace)
    (path : String) (bytes : ByteArray) : StaysIn workspace (.make invocation path bytes)

theorem Located.request_eq {path : String} {log : List Exchange}
    {answer : Except Host.Failure String} (located : Located path log answer) :
    ∀ exchange ∈ log, exchange.request = .currentDirectory := by
  cases located <;> simp

namespace Stage.StaysIn

variable {workspace : String} {stage : Stage} {log : List Exchange}

theorem stays_of_passes (staysIn : stage.StaysIn workspace) (passes : stage.Passes log) :
    ∀ exchange ∈ log, Stays workspace exchange.request := by
  cases staysIn with
  | write isName bytes =>
    cases passes
    simpa using .write isName bytes
  | stylesheet path css =>
    cases passes with
    | builtin => simp
    | stylesheet isText => simpa using .read _
  | template path shown =>
    cases passes with
    | standalone => simp
    | template located =>
      intro exchange member
      rw [located.request_eq exchange member]
      exact .currentDirectory
  | make inside path bytes =>
    cases passes
    simp [Stays.run inside, Stays.read]

theorem stays_of_fails {fault : Fault} (staysIn : stage.StaysIn workspace)
    (fails : stage.Fails log fault) : ∀ exchange ∈ log, Stays workspace exchange.request := by
  cases staysIn with
  | write isName bytes =>
    cases fails
    simpa using .write isName bytes
  | stylesheet path css => cases fails <;> simpa using .read _
  | template path shown =>
    cases fails with
    | template located =>
      intro exchange member
      rw [located.request_eq exchange member]
      exact .currentDirectory
  | make inside path bytes => cases fails <;> simp [Stays.run inside, Stays.read]

end Stage.StaysIn

theorem Follows.stays {workspace : String} {plan : List Stage} {log : List Exchange}
    {fault : Option Fault} (follows : Follows plan log fault)
    (staysIn : ∀ stage ∈ plan, stage.StaysIn workspace) :
    ∀ exchange ∈ log, Stays workspace exchange.request := by
  induction follows with
  | finished => simp
  | pass passes _ ih =>
    rw [List.forall_mem_cons] at staysIn
    rw [List.forall_mem_append]
    exact ⟨staysIn.1.stays_of_passes passes, ih staysIn.2⟩
  | stop fails => exact (staysIn _ List.mem_cons_self).stays_of_fails fails

section

variable (config : Config) (article : Article) (lang : String) (found : Findings)

private theorem staysIn_writing {name : String} (isName : FileTree.IsName name) (text : String) :
    (writing found name text).StaysIn found.workspace :=
  .write isName _

private theorem staysIn_making (command : String) (arguments : List String) (output : String)
    (bytes : ByteArray) :
    (making config found command arguments output bytes).StaysIn found.workspace := by
  apply Stage.StaysIn.make
  rfl

private theorem staysIn_latexSequence :
    ∀ stage ∈ latexSequence config article lang found, stage.StaysIn found.workspace := by
  intro stage member
  simp only [latexSequence, List.mem_append, List.mem_cons, List.not_mem_nil, or_false] at member
  rcases member with (rfl | written) | rfl | rfl
  · exact staysIn_writing found (by decide) _
  · split at written
    · cases written
    · rw [List.mem_singleton.mp written]
      exact staysIn_writing found (by decide) _
  · exact .template _ _
  · exact staysIn_making ..

/-- All that is done between making a workspace and removing it is done in it. -/
theorem staysIn_sequence (kind : Kind) :
    ∀ stage ∈ sequence config article lang found kind, stage.StaysIn found.workspace := by
  have latex := staysIn_latexSequence config article lang found
  intro stage member
  cases kind with
  | latex => exact latex stage member
  | pdf engine =>
    cases engine with
    | tex =>
      rcases List.mem_append.mp member with member | member
      · exact latex stage member
      · rw [List.mem_singleton.mp member]
        exact staysIn_making ..
    | pagedMedia =>
      simp only [sequence, List.mem_cons, List.not_mem_nil, or_false] at member
      rcases member with rfl | rfl | rfl | rfl
      · exact staysIn_writing found (by decide) _
      · exact .stylesheet _ _
      · exact staysIn_writing found (by decide) _
      · exact staysIn_making ..
  | docx =>
    simp only [sequence, List.mem_cons, List.not_mem_nil, or_false] at member
    rcases member with rfl | rfl | rfl
    · exact .stylesheet _ _
    · exact staysIn_writing found (by decide) _
    · exact staysIn_making ..
  | html | jats | text => cases member

end

/-! ### The place of a workspace -/

/-- A path leads to a free location. -/
structure Site (current : Location) (tree : FileTree) (path : String) (location : Location) :
    Prop where
  room : tree.HasRoom location
  located : tree.locate current path = .ok location

namespace Site

variable {current location : Location} {tree after : FileTree} {path : String}
  (site : Site current tree path location)
include site

/-- What is put there does not change where the path leads to. -/
theorem locate_set (content : Option FileTree) :
    (tree.set location content).locate current path = .ok location :=
  FileTree.locate_of_keeps (fun _ => site.room.hasDirectory_set content) site.located

theorem find_eq_notFound : tree.find current path = .error .notFound := by
  have absent : tree.get? location = none := site.room.get?_eq_none
  simp only [FileTree.find, site.located, bind, Except.bind, absent]
  rfl

private theorem written {content : Option FileTree} {name : String} (isName : FileTree.IsName name)
    {bytes : ByteArray}
    (written : (tree.set location content).write current (Path.join path name) bytes = .ok after) :
    ∃ content, after = tree.set location content := by
  -- a file can only be written there while there is a directory in the place
  obtain ⟨there, rfl⟩ := FileTree.write_join (site.locate_set content) isName written
  obtain ⟨entries, found⟩ := FileTree.hasDirectory_iff.mp there
  rw [site.room.get?_set] at found
  subst found
  exact ⟨_, site.room.set_append _ name _⟩

/-- Requests inside a workspace change what is in its place, and nothing else. -/
theorem responds {exchange : Exchange} {content : Option FileTree}
    (stays : Stays path exchange.request)
    (responds : Responds current (tree.set location content) exchange after) :
    ∃ content, after = tree.set location content := by
  cases responds with
  | written written => cases stays with | write isName => exact site.written isName written
  | brokenOff _ _ written => cases stays with | write isName => exact site.written isName written
  | ran found content' =>
    cases stays with
    | run inside =>
      rw [inside, FileTree.find_eq_ok_iff, site.locate_set] at found
      cases found.1
      exact ⟨content', site.room.set_set content content'⟩
  | currentDirectory | read | unwritten | idle => exact ⟨content, rfl⟩
  | temporaryDirectory | isPresent | made | madeSome | scratch | noScratch | removed | absent =>
    cases stays

theorem runs {log : List Exchange} {content : Option FileTree}
    (stays : ∀ exchange ∈ log, Stays path exchange.request)
    (runs : Runs current (tree.set location content) log after) :
    ∃ content, after = tree.set location content := by
  induction log generalizing content with
  | nil => exact ⟨content, Host.runs_nil_iff.mp runs⟩
  | cons exchange log ih =>
    rw [List.forall_mem_cons] at stays
    obtain ⟨between, first, rest⟩ := Host.runs_cons_iff.mp runs
    obtain ⟨left, rfl⟩ := site.responds stays.1 first
    exact ih stays.2 rest

/-- Removing what the path leads to leaves the free location. -/
theorem removed {content : Option FileTree} {answer : Except Host.Failure Unit}
    (responds : Responds current (tree.set location content) ⟨.removeAll path, answer⟩ after) :
    after = tree := by
  cases responds with
  | removed removed =>
    obtain ⟨⟨there, entry⟩, found, gone⟩ := bind_eq_ok_iff.mp removed
    rw [FileTree.find_eq_ok_iff, site.locate_set] at found
    cases found.1
    cases gone
    rw [site.room.set_set, site.room.set_none]
  | absent absent =>
    -- a program removed the directory that it ran in
    have gone : content = none := by
      rw [← site.room.get?_set content]
      cases found : (tree.set location content).get? location with
      | none => rfl
      | some entry =>
        have present := FileTree.find_eq_ok_iff.mpr ⟨site.locate_set content, found⟩
        rw [FileTree.removeAll, present] at absent
        cases absent
    rw [gone, site.room.set_none]

end Site

/-! ### Making a workspace -/

/-- The locations that the path of the configured directory leads through. -/
def rootLocations (config : Config) (current : Location) : List Location :=
  match config.workspaceRootPath with
  | some root => FileTree.passed (FileTree.origin current root) (Text.splitOnChar '/' root)
  | none => []

/-- A tree is as before, but for directories on the way to the configured one. -/
def Kept (config : Config) (current : Location) (before after : FileTree) : Prop :=
  ∀ location, after.labelAt location = before.labelAt location ∨
    location ∈ rootLocations config current ∧ before.labelAt location = none ∧
      after.labelAt location = some .directory

namespace Kept

variable {config : Config} {current : Location} {before between after : FileTree}

theorem refl (config : Config) (current : Location) (tree : FileTree) :
    Kept config current tree tree :=
  fun _ => Or.inl rfl

theorem trans (first : Kept config current before between)
    (second : Kept config current between after) : Kept config current before after := by
  intro location
  rcases second location with same | ⟨member, absent, present⟩
  · rw [same]
    exact first location
  · rcases first location with same | ⟨-, -, new⟩
    · exact Or.inr ⟨member, same ▸ absent, present⟩
    · rw [new] at absent
      cases absent

end Kept

/-- Requests for the directory for workspaces. -/
inductive Approaches (config : Config) : Request → Prop
  | temporaryDirectory : Approaches config .temporaryDirectory
  | currentDirectory : Approaches config .currentDirectory
  | makeDirectories {root : String} (configured : config.workspaceRootPath = some root) :
    Approaches config (.makeDirectories root)

section

variable {config : Config} {current : Location} {before after : FileTree} {log : List Exchange}

private theorem approaches_located {path : String} {answer : Except Host.Failure String}
    (located : Located path log answer) : ∀ exchange ∈ log, Approaches config exchange.request := by
  intro exchange member
  rw [located.request_eq exchange member]
  exact .currentDirectory

theorem approaches_of_passes {directory : String}
    (passes : (Stage.parent config.workspaceRootPath directory).Passes log) :
    ∀ exchange ∈ log, Approaches config exchange.request := by
  generalize configured : config.workspaceRootPath = root at passes
  cases passes with
  | temporary => simpa using .temporaryDirectory
  | root located =>
    rw [List.forall_mem_cons]
    exact ⟨.makeDirectories configured, approaches_located located⟩

theorem approaches_of_fails {directory : String} {fault : Fault}
    (fails : (Stage.parent config.workspaceRootPath directory).Fails log fault) :
    ∀ exchange ∈ log, Approaches config exchange.request := by
  generalize configured : config.workspaceRootPath = root at fails
  cases fails with
  | root => simpa using .makeDirectories configured
  | rootUnplaced located =>
    rw [List.forall_mem_cons]
    exact ⟨.makeDirectories configured, approaches_located located⟩

private theorem kept_makeAlong {root : String} (configured : config.workspaceRootPath = some root)
    {pieces : List String} (part : pieces <+: Text.splitOnChar '/' root)
    (made : before.makeAlong (FileTree.origin current root) pieces = .ok after) :
    Kept config current before after := by
  obtain ⟨rest, whole⟩ := part
  intro location
  refine (FileTree.labelAt_makeAlong made location).imp_right fun ⟨member, new⟩ => ⟨?_, new⟩
  simp only [rootLocations, configured, ← whole]
  exact FileTree.passed_subset_append _ pieces rest member

private theorem Approaches.responds {exchange : Exchange}
    (approaches : Approaches config exchange.request)
    (responds : Responds current before exchange after) : Kept config current before after := by
  cases responds with
  | made made =>
    cases approaches with
    | makeDirectories configured =>
      unfold FileTree.makeDirectories at made
      split at made
      · cases made
      · exact kept_makeAlong configured List.prefix_rfl made
  | madeSome count reason made =>
    cases approaches with
    | makeDirectories configured =>
      exact kept_makeAlong configured (List.take_prefix count _) made
  | currentDirectory | temporaryDirectory => exact .refl config current before
  | isPresent | read | written | unwritten | brokenOff | scratch | noScratch | removed | absent
  | ran | idle => cases approaches

theorem kept_of_approaches (approaches : ∀ exchange ∈ log, Approaches config exchange.request)
    (runs : Runs current before log after) : Kept config current before after := by
  induction log generalizing before with
  | nil =>
    rw [Host.runs_nil_iff.mp runs]
    exact .refl config current before
  | cons exchange log ih =>
    rw [List.forall_mem_cons] at approaches
    obtain ⟨between, first, rest⟩ := Host.runs_cons_iff.mp runs
    exact (approaches.1.responds first).trans (ih approaches.2 rest)

/-- A scratch directory is at a location that was free. -/
theorem exists_site_of_responds {parent path : String}
    (responds : Responds current before ⟨.makeScratch parent, .ok path⟩ after) :
    ∃ location, Site current before path location ∧
      after = before.set location (some (.directory [])) := by
  cases responds with
  | @scratch _ name location entries found isName fresh =>
    obtain ⟨located, there⟩ := FileTree.find_eq_ok_iff.mp found
    refine ⟨location ++ [name], ⟨FileTree.hasRoom_append there fresh, ?_⟩, rfl⟩
    exact (FileTree.locate_join located isName).mpr
      ⟨FileTree.hasDirectory_iff.mpr ⟨entries, there⟩, rfl⟩

private theorem not_scratch_of_approaches
    (approaches : ∀ exchange ∈ log, Approaches config exchange.request) (parent path : String) :
    (⟨.makeScratch parent, .ok path⟩ : Exchange) ∉ log := by
  intro member
  cases approaches _ member

theorem exists_site_of_follows {found : Findings}
    (follows : Follows (preparation config found) log none)
    (runs : Runs current before log after) :
    ∃ tree location, Kept config current before tree ∧
      Site current tree found.workspace location ∧
      after = tree.set location (some (.directory [])) ∧
      ∀ parent path, (⟨.makeScratch parent, .ok path⟩ : Exchange) ∈ log →
        path = found.workspace := by
  obtain ⟨near, last, rfl, passes, ends⟩ | ⟨_, never, -⟩ := follows_cons_iff.mp follows
  · have approaches := approaches_of_passes passes
    obtain ⟨tree, approached, made⟩ := Host.runs_append_iff.mp runs
    obtain ⟨-, makes⟩ | ⟨_, never, -⟩ := follows_singleton_iff.mp ends
    · cases makes
      obtain ⟨_, responds, rest⟩ := Host.runs_cons_iff.mp made
      obtain ⟨location, site, rfl⟩ := exists_site_of_responds responds
      refine ⟨tree, location, kept_of_approaches approaches approached, site,
        Host.runs_nil_iff.mp rest, ?_⟩
      intro parent path member
      rcases List.mem_append.mp member with member | member
      · exact absurd member (not_scratch_of_approaches approaches parent path)
      · cases List.mem_singleton.mp member
        rfl
    · cases never
  · cases never

/-- Without a workspace only directories on the way to it are made. -/
theorem kept_of_follows {found : Findings} {fault : Fault}
    (follows : Follows (preparation config found) log (some fault))
    (runs : Runs current before log after) :
    Kept config current before after ∧
      ∀ parent path, (⟨.makeScratch parent, .ok path⟩ : Exchange) ∉ log := by
  obtain ⟨near, last, rfl, passes, ends⟩ | ⟨_, -, fails⟩ := follows_cons_iff.mp follows
  · have approaches := approaches_of_passes passes
    obtain ⟨tree, approached, unmade⟩ := Host.runs_append_iff.mp runs
    obtain ⟨never, -⟩ | ⟨_, -, fails⟩ := follows_singleton_iff.mp ends
    · cases never
    · cases fails
      obtain ⟨_, responds, rest⟩ := Host.runs_cons_iff.mp unmade
      obtain rfl := Host.runs_nil_iff.mp rest
      cases responds
      refine ⟨kept_of_approaches approaches approached, fun parent path member => ?_⟩
      rcases List.mem_append.mp member with member | member
      · exact not_scratch_of_approaches approaches parent path member
      · cases List.mem_singleton.mp member
  · have approaches := approaches_of_fails fails
    exact ⟨kept_of_approaches approaches runs, not_scratch_of_approaches approaches⟩

end

/-! ### In memory -/

/-- The step of an export without programs, if there is one. -/
def memorySequence (config : Config) (css : String) : Kind → List Stage
  | .html => [.stylesheet config.stylesheetPath css]
  | _ => []

private theorem does_makeInMemory (config : Config) (article : Article) (lang : String)
    {kind : Kind} (needs : kind.needsPrograms = false) :
    ∃ value, Does (makeInMemory config article lang kind)
      (fun css => memorySequence config css kind) value := by
  cases kind with
  | html =>
    have renders (css : String) := does_pure (Rendition.Page.render article lang (.inline css))
    exact ⟨_, (does_bind (does_stylesheet config) _ renders).reindex (fun css => (css, ()))
      fun i => ⟨i.1, rfl⟩⟩
  | jats | text => exact ⟨_, (does_pure _).reindex (fun _ => ()) fun _ => ⟨"", rfl⟩⟩
  | latex | pdf _ | docx => cases needs

theorem exists_follows_of_inMemory {config : Config} {article : Article} {lang : String}
    {kind : Kind} (needs : kind.needsPrograms = false) {log : List Exchange}
    {result : Except Fault Artifact}
    (told : Dialogue (make config article lang kind) log result) :
    ∃ css fault, Follows (memorySequence config css kind) log fault := by
  obtain ⟨value, makes⟩ := does_makeInMemory config article lang needs
  have bytes := does_bind makes (fun text => pure text.toUTF8) fun _ => does_pure _
  have artifacts := does_bind bytes
    (fun bytes => pure (⟨bytes, fileName article.id lang kind, kind.contentType⟩ : Artifact))
    fun _ => does_pure _
  unfold make makeBytes at told
  rw [if_neg (by simp [needs])] at told
  obtain ⟨i, fault, follows, -⟩ := (artifacts log result).mp told
  exact ⟨i.1.1, fault, by simpa using follows⟩

theorem read_of_follows {config : Config} {css : String} {kind : Kind} {log : List Exchange}
    {fault : Option Fault} (follows : Follows (memorySequence config css kind) log fault) :
    ∀ exchange ∈ log, ∃ path, exchange.request = .read path := by
  have reads {fault : Option Fault}
      (follows : Follows [.stylesheet config.stylesheetPath css] log fault) :
      ∀ exchange ∈ log, ∃ path, exchange.request = .read path := by
    rcases follows_singleton_iff.mp follows with ⟨-, passes⟩ | ⟨_, -, fails⟩
    · generalize config.stylesheetPath = path at passes
      cases passes <;> simp
    · generalize config.stylesheetPath = path at fails
      cases fails <;> simp
  cases kind with
  | html => exact reads follows
  | latex | pdf _ | docx | jats | text =>
    rw [(follows_nil_iff.mp follows).1]
    simp

theorem eq_of_reads {current : Location} {before after : FileTree} {log : List Exchange}
    (reads : ∀ exchange ∈ log, ∃ path, exchange.request = .read path)
    (runs : Runs current before log after) : after = before := by
  refine Host.eq_of_looks (fun exchange member => ?_) runs
  obtain ⟨path, isRead⟩ := reads exchange member
  rw [isRead]
  exact .read path

/-! ### Whole exports -/

theorem kept_of_make {config : Config} {article : Article} {lang : String} {kind : Kind}
    {current : Location} {before after : FileTree} {log : List Exchange}
    {result : Except Fault Artifact}
    (told : Dialogue (make config article lang kind) log result)
    (runs : Runs current before log after) : Kept config current before after := by
  cases needs : kind.needsPrograms with
  | false =>
    obtain ⟨css, fault, follows⟩ := exists_follows_of_inMemory needs told
    rw [eq_of_reads (read_of_follows follows) runs]
    exact .refl config current before
  | true =>
    cases (dialogue_make_iff config article lang kind needs).mp told with
    | unprepared stopped => exact (kept_of_follows stopped runs).1
    | closed prepared follows removed =>
      obtain ⟨left, inside, ends⟩ := Host.runs_append_iff.mp runs
      obtain ⟨ready, prepares, works⟩ := Host.runs_append_iff.mp inside
      obtain ⟨tree, location, kept, site, rfl, -⟩ := exists_site_of_follows prepared prepares
      -- what was done in the workspace goes with it
      obtain ⟨content, rfl⟩ := site.runs (follows.stays (staysIn_sequence _ _ _ _ kind)) works
      obtain ⟨_, removes, rest⟩ := Host.runs_cons_iff.mp ends
      rw [Host.runs_nil_iff.mp rest, site.removed removes]
      exact kept

/-- **Cleaning up**: after an export, whatever became of it, the file tree is as before, but for
directories on the way to the configured one for workspaces. No workspace that was made is left, and
where no programs are needed nothing is asked for but a stylesheet. -/
theorem make_cleansUp {config : Config} {article : Article} {lang : String} {kind : Kind}
    {current : Location} {before after : FileTree} {log : List Exchange}
    {result : Except Fault Artifact}
    (told : Dialogue (make config article lang kind) log result)
    (runs : Runs current before log after) :
    Kept config current before after ∧
      (∀ parent path, (⟨.makeScratch parent, .ok path⟩ : Exchange) ∈ log →
        after.find current path = .error .notFound) ∧
      (kind.needsPrograms = false →
        after = before ∧ ∀ exchange ∈ log, ∃ path, exchange.request = .read path) := by
  cases needs : kind.needsPrograms with
  | false =>
    obtain ⟨css, fault, follows⟩ := exists_follows_of_inMemory needs told
    have reads := read_of_follows follows
    obtain rfl := eq_of_reads reads runs
    refine ⟨.refl config current after, fun parent path member => ?_, fun _ => ⟨rfl, reads⟩⟩
    obtain ⟨_, never⟩ := reads _ member
    cases never
  | true =>
    cases (dialogue_make_iff config article lang kind needs).mp told with
    | unprepared stopped =>
      obtain ⟨kept, none⟩ := kept_of_follows stopped runs
      exact ⟨kept, fun parent path member => absurd member (none parent path), nofun⟩
    | @closed found made done fault prepared follows removed =>
      obtain ⟨left, inside, ends⟩ := Host.runs_append_iff.mp runs
      obtain ⟨ready, prepares, works⟩ := Host.runs_append_iff.mp inside
      obtain ⟨tree, location, kept, site, rfl, scratch⟩ := exists_site_of_follows prepared prepares
      have stays := follows.stays (staysIn_sequence config article lang found kind)
      -- all that was done since is in `content`, which goes with the workspace
      obtain ⟨content, rfl⟩ := site.runs stays works
      obtain ⟨_, removes, rest⟩ := Host.runs_cons_iff.mp ends
      obtain rfl := site.removed removes
      obtain rfl := Host.runs_nil_iff.mp rest
      refine ⟨kept, fun parent path member => ?_, nofun⟩
      rcases List.mem_append.mp member with member | member
      · rcases List.mem_append.mp member with member | member
        · rw [scratch parent path member]
          exact site.find_eq_notFound
        · cases stays _ member
      · cases List.mem_singleton.mp member

/-- Programs that fail, and leave another directory in the place of theirs. -/
def scribbling : Host.Programs := fun _ location tree =>
  (.finished (some 1) .empty .empty, tree.set location (some (.directory [("junk", .file .empty)])))

/-- A disk with a single file. -/
def almostEmpty : Host.Machine :=
  ⟨.directory [("srv", .directory [("kept", .file .empty)])], [], "/"⟩

/-- The directory for workspaces is missing, and the converter fails. -/
theorem make_cleansUp_scribbling :
    ∃ log result after,
      (Dialogue (make { workspaceRoot := some "/srv/work" } ⟨"a", none, [], none, none, none, []⟩
          "en" (.pdf .tex)) log result ∧
        Runs [] almostEmpty.tree log after) ∧
      (⟨.makeScratch "/srv/work", .ok "/srv/work/folio-export-000000"⟩ : Exchange) ∈ log ∧
      after.find [] "/srv/work/folio-export-000000" = .error .notFound ∧
      Kept { workspaceRoot := some "/srv/work" } [] almostEmpty.tree after := by
  have confined : scribbling.Confined := fun _ _ _ => ⟨_, rfl⟩
  have told := Action.dialogue_transcript (Host.Machine.handler scribbling)
    (make { workspaceRoot := some "/srv/work" } ⟨"a", none, [], none, none, none, []⟩ "en"
      (.pdf .tex)) almostEmpty
  have runs := Host.Machine.runs_transcript confined
    (make { workspaceRoot := some "/srv/work" } ⟨"a", none, [], none, none, none, []⟩ "en"
      (.pdf .tex)) almostEmpty
  obtain ⟨kept, gone, -⟩ := make_cleansUp told runs
  have member : (⟨.makeScratch "/srv/work", .ok "/srv/work/folio-export-000000"⟩ : Exchange) ∈
      Action.transcript (Host.Machine.handler scribbling)
        (make { workspaceRoot := some "/srv/work" } ⟨"a", none, [], none, none, none, []⟩ "en"
          (.pdf .tex)) almostEmpty := .tail _ (.head _)
  exact ⟨_, _, _, ⟨told, runs⟩, member, gone _ _ member, kept⟩

end Galley.Export
