import Galley.Export.Artifact
import Galley.Proofs.Host.Dialogue
/-!
# Lists of steps

What an export by programs consists of. A step says in which exchanges with the host it succeeds
(`Stage.Passes`) and in which it fails, and with what fault (`Stage.Fails`). `Follows` goes through
a list of steps up to the first one that fails, and `Does` says of an action that its dialogues are
those that follow a list.
-/
namespace Galley.Export

open Galley.Host (Action Exchange Invocation Request)
open Galley.Host.Action (Dialogue)

/-! ### Steps -/

/-- A step of an export, with what it finds out. -/
inductive Stage where
  /-- The directory for workspaces is made, or the one for temporary files is asked for. -/
  | parent (root : Option String) (directory : String)
  | scratch (parent path : String)
  | write (path : String) (bytes : ByteArray)
  /-- The configured stylesheet is read. -/
  | stylesheet (path : Option String) (css : String)
  /-- The path of the configured template is made absolute. -/
  | template (path shown : Option String)
  /-- A program is run, and then its output file read. -/
  | make (invocation : Invocation) (path : String) (bytes : ByteArray)

/-- How a path is made absolute: only a relative one needs the current directory. -/
inductive Located : String → List Exchange → Except Host.Failure String → Prop
  | empty : Located "" [] (.error .emptyPath)
  | rooted {path : String} (nonempty : path ≠ "") (rooted : Path.isAbsolute path = true) :
    Located path [] (.ok (Path.absolute "" path))
  | relative {path : String} (nonempty : path ≠ "") (relative : Path.isAbsolute path = false)
    (current : String) :
    Located path [⟨.currentDirectory, .ok current⟩]
      (.ok (Path.absolute current path))
  | unknown {path : String} (nonempty : path ≠ "") (relative : Path.isAbsolute path = false)
    (reason : Host.Failure) :
    Located path [⟨.currentDirectory, .error reason⟩]
      (.error reason)

namespace Stage

/-- The exchanges in which a step succeeds. -/
inductive Passes : Stage → List Exchange → Prop
  | temporary (directory : String) :
    Passes (.parent none directory) [⟨.temporaryDirectory, directory⟩]
  | root {root directory : String} {log : List Exchange}
    (located : Located root log (.ok directory)) :
    Passes (.parent (some root) directory) (⟨.makeDirectories root, .ok ()⟩ :: log)
  | scratch (parent path : String) :
    Passes (.scratch parent path) [⟨.makeScratch parent, .ok path⟩]
  | write (path : String) (bytes : ByteArray) :
    Passes (.write path bytes) [⟨.write path bytes, .ok ()⟩]
  | builtin : Passes (.stylesheet none Rendition.Stylesheet.builtin) []
  | stylesheet {path css : String} {bytes : ByteArray}
    (isText : String.fromUTF8? bytes = some css) :
    Passes (.stylesheet (some path) css) [⟨.read path, .ok bytes⟩]
  | standalone : Passes (.template none none) []
  | template {path shown : String} {log : List Exchange} (located : Located path log (.ok shown)) :
    Passes (.template (some path) (some shown)) log
  | make {invocation : Invocation} {path : String} {bytes : ByteArray} (stdout stderr : ByteArray)
    (nonempty : bytes.isEmpty = false) :
    Passes (.make invocation path bytes)
      [⟨.run invocation, .finished (some 0) stdout stderr⟩, ⟨.read path, .ok bytes⟩]

/-- The exchanges in which a step fails, and the fault that this is. -/
inductive Fails : Stage → List Exchange → Fault → Prop
  | root {root directory : String} (reason : Host.Failure) :
    Fails (.parent (some root) directory) [⟨.makeDirectories root, .error reason⟩]
      (.workspace reason)
  | rootUnplaced {root directory : String} {log : List Exchange} {reason : Host.Failure}
    (located : Located root log (.error reason)) :
    Fails (.parent (some root) directory) (⟨.makeDirectories root, .ok ()⟩ :: log)
      (.workspace reason)
  | scratch {parent path : String} (reason : Host.Failure) :
    Fails (.scratch parent path) [⟨.makeScratch parent, .error reason⟩] (.workspace reason)
  | write {path : String} {bytes : ByteArray} (reason : Host.Failure) :
    Fails (.write path bytes) [⟨.write path bytes, .error reason⟩] (.io reason)
  | stylesheet {path css : String} (reason : Host.Failure) :
    Fails (.stylesheet (some path) css) [⟨.read path, .error reason⟩] (.io reason)
  | stylesheetUnreadable {path css : String} {bytes : ByteArray}
    (noText : String.fromUTF8? bytes = none) :
    Fails (.stylesheet (some path) css) [⟨.read path, .ok bytes⟩] (.io .invalidText)
  | template {path : String} {shown : Option String} {log : List Exchange} {reason : Host.Failure}
    (located : Located path log (.error reason)) :
    Fails (.template (some path) shown) log (.io reason)
  | unstartable {invocation : Invocation} {path : String} {bytes : ByteArray}
    (reason : Host.Failure) :
    Fails (.make invocation path bytes) [⟨.run invocation, .unstartable reason⟩]
      (.unstartable invocation.program reason)
  | timedOut {invocation : Invocation} {path : String} {bytes : ByteArray} :
    Fails (.make invocation path bytes) [⟨.run invocation, .timedOut⟩]
      (.timedOut invocation.program (invocation.limit.getD (.ofSeconds 0)))
  | failed {invocation : Invocation} {path : String} {bytes : ByteArray} {status : Option Nat}
    (stdout stderr : ByteArray) (unsuccessful : status ≠ some 0) :
    Fails (.make invocation path bytes) [⟨.run invocation, .finished status stdout stderr⟩]
      (.failed invocation.program (status.map Int.ofNat) (Tool.combine stdout stderr))
  | missing {invocation : Invocation} {path : String} {bytes : ByteArray}
    (stdout stderr : ByteArray) :
    Fails (.make invocation path bytes)
      [⟨.run invocation, .finished (some 0) stdout stderr⟩, ⟨.read path, .error .notFound⟩]
      (.missingOutput invocation.program path (Tool.combine stdout stderr))
  | empty {invocation : Invocation} {path : String} {bytes found : ByteArray}
    (stdout stderr : ByteArray) (empty : found.isEmpty = true) :
    Fails (.make invocation path bytes)
      [⟨.run invocation, .finished (some 0) stdout stderr⟩, ⟨.read path, .ok found⟩]
      (.missingOutput invocation.program path (Tool.combine stdout stderr))
  | unreadable {invocation : Invocation} {path : String} {bytes : ByteArray}
    (stdout stderr : ByteArray) {reason : Host.Failure} (other : reason ≠ .notFound) :
    Fails (.make invocation path bytes)
      [⟨.run invocation, .finished (some 0) stdout stderr⟩, ⟨.read path, .error reason⟩]
      (.io reason)

end Stage

/-! ### Following a list of steps -/

/-- Steps done one after the other, up to the first one that fails. The last argument is the fault
of that one, if there is one. -/
inductive Follows : List Stage → List Exchange → Option Fault → Prop
  | finished : Follows [] [] none
  | pass {stage : Stage} {rest : List Stage} {here later : List Exchange} {fault : Option Fault}
    (passes : stage.Passes here) (follows : Follows rest later fault) :
    Follows (stage :: rest) (here ++ later) fault
  | stop {stage : Stage} {rest : List Stage} {here : List Exchange} {fault : Fault}
    (fails : stage.Fails here fault) : Follows (stage :: rest) here (some fault)

theorem follows_nil_iff {log : List Exchange} {fault : Option Fault} :
    Follows [] log fault ↔ log = [] ∧ fault = none := by
  constructor
  · intro follows
    cases follows
    exact ⟨rfl, rfl⟩
  · rintro ⟨rfl, rfl⟩
    exact .finished

theorem follows_cons_iff {stage : Stage} {rest : List Stage} {log : List Exchange}
    {fault : Option Fault} :
    Follows (stage :: rest) log fault ↔
      (∃ here later, log = here ++ later ∧ stage.Passes here ∧ Follows rest later fault) ∨
        ∃ failure, fault = some failure ∧ stage.Fails log failure := by
  constructor
  · intro follows
    cases follows with
    | pass passes follows => exact Or.inl ⟨_, _, rfl, passes, follows⟩
    | stop fails => exact Or.inr ⟨_, rfl, fails⟩
  · rintro (⟨here, later, rfl, passes, follows⟩ | ⟨failure, rfl, fails⟩)
    · exact .pass passes follows
    · exact .stop fails

theorem follows_append_iff {first second : List Stage} {log : List Exchange}
    {fault : Option Fault} :
    Follows (first ++ second) log fault ↔
      (∃ here later, log = here ++ later ∧ Follows first here none ∧ Follows second later fault) ∨
        ∃ failure, fault = some failure ∧ Follows first log (some failure) := by
  -- a step that fails is in one of the two lists, and nothing is asked after it
  induction first generalizing log with
  | nil =>
    constructor
    · intro follows
      exact Or.inl ⟨[], log, rfl, .finished, follows⟩
    · rintro (⟨here, later, rfl, done, follows⟩ | ⟨_, _, stopped⟩)
      · cases done
        exact follows
      · cases stopped
  | cons stage first ih =>
    rw [List.cons_append, follows_cons_iff]
    simp only [ih, follows_cons_iff]
    constructor
    · rintro (⟨here, _, rfl, passes, ⟨there, later, rfl, done, follows⟩ | ⟨failure, rfl, stopped⟩⟩ |
        ⟨failure, rfl, fails⟩)
      · exact Or.inl ⟨here ++ there, later, by simp, Or.inl ⟨here, there, rfl, passes, done⟩,
          follows⟩
      · exact Or.inr ⟨failure, rfl, Or.inl ⟨here, _, rfl, passes, stopped⟩⟩
      · exact Or.inr ⟨failure, rfl, Or.inr ⟨failure, rfl, fails⟩⟩
    · rintro (⟨_, later, rfl, ⟨here, there, rfl, passes, done⟩ | ⟨_, never, _⟩, follows⟩ |
        ⟨failure, rfl, ⟨here, there, rfl, passes, stopped⟩ | ⟨_, same, fails⟩⟩)
      · exact Or.inl ⟨here, there ++ later, by simp, passes,
          Or.inl ⟨there, later, rfl, done, follows⟩⟩
      · cases never
      · exact Or.inl ⟨here, there, rfl, passes, Or.inr ⟨failure, rfl, stopped⟩⟩
      · obtain rfl := Option.some.inj same
        exact Or.inr ⟨failure, rfl, fails⟩

theorem follows_singleton_iff {stage : Stage} {log : List Exchange} {fault : Option Fault} :
    Follows [stage] log fault ↔
      (fault = none ∧ stage.Passes log) ∨
        ∃ failure, fault = some failure ∧ stage.Fails log failure := by
  rw [follows_cons_iff]
  simp only [follows_nil_iff]
  constructor
  · rintro (⟨here, _, rfl, passes, rfl, rfl⟩ | failed)
    · exact Or.inl ⟨rfl, by rwa [List.append_nil]⟩
    · exact Or.inr failed
  · rintro (⟨rfl, passes⟩ | failed)
    · exact Or.inl ⟨log, [], (List.append_nil log).symm, passes, rfl, rfl⟩
    · exact Or.inr failed

/-- The result of steps that would give a value. -/
def settle {α : Type} (value : α) : Option Fault → Except Fault α
  | none => .ok value
  | some fault => .error fault

/-- An action does what is planned when its dialogues are those that follow one of the plans. A plan
gives the steps that come before a value, so there is one for everything that may be found out. -/
def Does {α ι : Type} (step : Step α) (plan : ι → List Stage) (value : ι → α) : Prop :=
  ∀ log result, Dialogue step.run log result ↔
    ∃ (i : ι) (fault : Option Fault), Follows (plan i) log fault ∧ result = settle (value i) fault

section

variable {α β ι κ : Type}

theorem dialogue_pure_step_iff {value : α} {log : List Exchange} {result : Except Fault α} :
    Dialogue (pure value : Step α).run log result ↔ log = [] ∧ result = .ok value :=
  Action.dialogue_pure_iff

/-- Plans may be told apart by anything that reaches all of them. -/
theorem Does.reindex {step : Step α} {plan : ι → List Stage} {value : ι → α}
    (does : Does step plan value) (f : κ → ι) (onto : ∀ i, ∃ j, f j = i) :
    Does step (fun j => plan (f j)) (fun j => value (f j)) := by
  intro log result
  rw [does]
  constructor
  · rintro ⟨i, fault, follows, rfl⟩
    obtain ⟨j, rfl⟩ := onto i
    exact ⟨j, fault, follows, rfl⟩
  · rintro ⟨j, fault, follows, rfl⟩
    exact ⟨f j, fault, follows, rfl⟩

theorem does_pure (value : α) : Does (pure value) (fun _ : Unit => []) (fun _ => value) := by
  intro log result
  rw [dialogue_pure_step_iff]
  constructor
  · rintro ⟨rfl, rfl⟩
    exact ⟨(), none, .finished, rfl⟩
  · rintro ⟨_, fault, follows, rfl⟩
    obtain ⟨rfl, rfl⟩ := follows_nil_iff.mp follows
    exact ⟨rfl, rfl⟩

/-- Plans of actions in sequence are put together. -/
theorem does_bind [Inhabited κ] {step : Step α} {first : ι → List Stage} {value : ι → α}
    {second : ι → κ → List Stage} {result : ι → κ → β} (here : Does step first value)
    (next : α → Step β) (later : ∀ i, Does (next (value i)) (second i) (result i)) :
    Does (step >>= next) (fun i : ι × κ => first i.1 ++ second i.1 i.2)
      (fun i => result i.1 i.2) := by
  intro log outcome
  rw [Action.dialogue_bind_exceptT_iff]
  constructor
  · rintro (⟨log₁, reached, log₂, rfl, told₁, told₂⟩ | ⟨fault, told, rfl⟩)
    · obtain ⟨i, fault, follows, same⟩ := (here log₁ _).mp told₁
      cases fault with
      | some fault => cases same
      | none =>
        cases same
        obtain ⟨j, fault, rest, rfl⟩ := (later i log₂ outcome).mp told₂
        exact ⟨(i, j), fault, follows_append_iff.mpr (Or.inl ⟨log₁, log₂, rfl, follows, rest⟩), rfl⟩
    · obtain ⟨i, fault, follows, same⟩ := (here log _).mp told
      cases fault with
      | none => cases same
      | some fault =>
        cases same
        -- what the second list would find out does not matter any more
        exact ⟨(i, default), some fault, follows_append_iff.mpr (Or.inr ⟨fault, rfl, follows⟩), rfl⟩
  · rintro ⟨⟨i, j⟩, fault, follows, rfl⟩
    rcases follows_append_iff.mp follows with ⟨log₁, log₂, rfl, done, rest⟩ | ⟨fault, rfl, stopped⟩
    · exact Or.inl ⟨log₁, value i, log₂, rfl, (here log₁ _).mpr ⟨i, none, done, rfl⟩,
        (later i log₂ _).mpr ⟨j, fault, rest, rfl⟩⟩
    · exact Or.inr ⟨fault, (here log _).mpr ⟨i, some fault, stopped, rfl⟩, rfl⟩

theorem does_then [Inhabited κ] {step : Step α} {rest : Step β} {first : ι → List Stage}
    {second : κ → List Stage} {value : ι → α} {result : κ → β} (here : Does step first value)
    (later : Does rest second result) :
    Does (step >>= fun _ => rest) (fun i : ι × κ => first i.1 ++ second i.2)
      (fun i => result i.2) :=
  does_bind here (fun _ => rest) fun _ => later

/-- What it takes to do a single step of the list. -/
theorem does_singleton {step : Step α} {stage : ι → Stage} {value : ι → α}
    (passes : ∀ log result, Dialogue step.run log (.ok result) ↔
      ∃ i, (stage i).Passes log ∧ result = value i)
    (fails : ∀ log fault, Dialogue step.run log (.error fault) ↔ ∃ i, (stage i).Fails log fault) :
    Does step (fun i => [stage i]) value := by
  intro log result
  simp only [follows_singleton_iff]
  cases result with
  | ok result =>
    rw [passes]
    constructor
    · rintro ⟨i, passed, rfl⟩
      exact ⟨i, none, Or.inl ⟨rfl, passed⟩, rfl⟩
    · rintro ⟨i, _, ⟨rfl, passed⟩ | ⟨_, rfl, _⟩, same⟩
      · exact ⟨i, passed, Except.ok.inj same⟩
      · cases same
  | error fault =>
    rw [fails]
    constructor
    · rintro ⟨i, failed⟩
      exact ⟨i, some fault, Or.inr ⟨fault, rfl, failed⟩, rfl⟩
    · rintro ⟨i, _, ⟨rfl, _⟩ | ⟨_, rfl, failed⟩, same⟩
      · cases same
      · cases same
        exact ⟨i, failed⟩

end

end Galley.Export
