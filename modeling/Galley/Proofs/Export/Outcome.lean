import Galley.Proofs.Export.Sequence
/-!
# Outcomes of exports

What an export by programs returns, on a host of any kind. Its dialogues are those of `Exports`: the
workspace is made, the steps of the kind are done up to the first that fails, and the workspace is
removed.

## Main result

`make_outcome`: an artifact is returned exactly when every step passes, and it is what the last
program left in the kind's file; otherwise the fault is that of the first step that fails.
-/
namespace Galley.Export

open Galley.Host (Action Exchange Invocation Request)
open Galley.Host.Action (Dialogue)

/-! ### Whole exports -/

section

variable (config : Config) (article : Article) (lang : String) (kind : Kind)

/-- The artifact of an export that went through. -/
def artifactOf (found : Findings) : Artifact :=
  ⟨delivered found kind, fileName article.id lang kind, kind.contentType⟩

/-- The exchanges of a whole export, with what it returns. -/
inductive Exports : List Exchange → Except Fault Artifact → Prop
  /-- There is no workspace. -/
  | unprepared {found : Findings} {log : List Exchange} {fault : Fault}
    (stopped : Follows (preparation config found) log (some fault)) : Exports log (.error fault)
  /-- The workspace is removed in the end, whatever becomes of the steps. -/
  | closed {found : Findings} {made done : List Exchange} {fault : Option Fault}
    (prepared : Follows (preparation config found) made none)
    (follows : Follows (sequence config article lang found kind) done fault)
    (removed : Except Host.Failure Unit) :
    Exports (made ++ done ++ [⟨.removeAll found.workspace, removed⟩])
      (settle (artifactOf article lang kind found) fault)

/-- The directory for workspaces plays no part in what happens in one of them. -/
private theorem sequence_parent (found : Findings) (parent : String) :
    sequence config article lang { found with parent } kind =
      sequence config article lang found kind := by
  cases kind with
  | pdf engine => cases engine <;> rfl
  | _ => rfl

private theorem dialogue_close_iff {workspace : Workspace} {log : List Exchange} {value : Unit} :
    Dialogue workspace.close log value ↔
      ∃ removed, log = [⟨.removeAll workspace.path, removed⟩] := by
  refine Action.dialogue_bind_pure_iff.trans ?_
  constructor
  · rintro ⟨removed, asked, -⟩
    exact ⟨removed, Action.dialogue_request_iff.mp asked⟩
  · rintro ⟨removed, told⟩
    exact ⟨removed, Action.dialogue_request_iff.mpr told, rfl⟩

/-- What happens in a workspace, and that it is removed. -/
private theorem dialogue_inWorkspace_iff {workspace : Workspace} {log : List Exchange}
    {result : Except Fault ByteArray} :
    Dialogue (do
        let result ← ExceptT.lift (makeIn config article lang workspace kind).run
        ExceptT.lift workspace.close
        makeBytes.liftExcept result : Step ByteArray).run log result ↔
      ∃ done removed, Dialogue (makeIn config article lang workspace kind).run done result ∧
        log = done ++ [⟨.removeAll workspace.path, removed⟩] := by
  -- the result is put aside, so that a failure of the steps does not skip the removal
  simp only [Action.dialogue_bind_exceptT_iff, dialogue_lift_iff, dialogue_close_iff]
  constructor
  · rintro (⟨done, made, _, rfl, ⟨_, told, same⟩,
        ⟨_, _, later, rfl, ⟨_, ⟨removed, rfl⟩, -⟩, told'⟩ | ⟨_, ⟨_, -, never⟩, -⟩⟩ |
      ⟨_, ⟨_, -, never⟩, -⟩)
    · obtain rfl := Except.ok.inj same
      obtain ⟨rfl, rfl⟩ := Action.dialogue_pure_iff.mp told'
      exact ⟨done, removed, told, by simp⟩
    · cases never
    · cases never
  · rintro ⟨done, removed, told, rfl⟩
    exact Or.inl ⟨done, result, _, rfl, ⟨result, told, rfl⟩,
      Or.inl ⟨_, (), [], (List.append_nil _).symm, ⟨(), ⟨removed, rfl⟩, trivial⟩, .done _⟩⟩

private theorem dialogue_makeBytes_iff (needs : kind.needsPrograms = true) {log : List Exchange}
    {result : Except Fault ByteArray} :
    Dialogue (makeBytes config article lang kind).run log result ↔
      (∃ found made done fault removed, Follows (preparation config found) made none ∧
        Follows (sequence config article lang found kind) done fault ∧
        log = made ++ done ++ [⟨.removeAll found.workspace, removed⟩] ∧
        result = settle (delivered found kind) fault) ∨
      ∃ found fault, Follows (preparation config found) log (some fault) ∧
        result = .error fault := by
  have creates := does_create config
  have makes (workspace : Workspace) := does_makeIn config article lang needs workspace
  rw [makeBytes, if_pos needs, Action.dialogue_bind_exceptT_iff]
  simp only [dialogue_inWorkspace_iff]
  constructor
  · rintro (⟨made, workspace, _, rfl, told, done, removed, told', rfl⟩ | ⟨fault, told, rfl⟩)
    · obtain ⟨found, fault, prepared, same⟩ := (creates _ _).mp told
      cases fault with
      | some fault => cases same
      | none =>
        cases same
        obtain ⟨later, fault, follows, rfl⟩ := (makes _ _ _).mp told'
        -- one half of the findings is from making the workspace, the other from the steps in it
        refine Or.inl ⟨{ later with parent := found.parent, workspace := found.workspace }, made,
          done, fault, removed, prepared, ?_, by simp, ?_⟩
        · dsimp only at follows
          rwa [← sequence_parent _ _ _ _ _ found.parent] at follows
        · cases kind <;> rfl
    · obtain ⟨found, fault, stopped, same⟩ := (creates _ _).mp told
      cases fault with
      | some fault =>
        cases same
        exact Or.inr ⟨found, fault, stopped, rfl⟩
      | none => cases same
  · rintro (⟨found, made, done, fault, removed, prepared, follows, rfl, rfl⟩ |
      ⟨found, fault, stopped, rfl⟩)
    · exact Or.inl ⟨made, ⟨found.workspace⟩, _, by simp,
        (creates _ _).mpr ⟨found, none, prepared, rfl⟩, done, removed,
        (makes _ _ _).mpr ⟨found, fault, follows, rfl⟩, rfl⟩
    · exact Or.inr ⟨fault, (creates _ _).mpr ⟨found, some fault, stopped, rfl⟩, rfl⟩

theorem dialogue_make_iff (needs : kind.needsPrograms = true) {log : List Exchange}
    {result : Except Fault Artifact} :
    Dialogue (make config article lang kind) log result ↔
      Exports config article lang kind log result := by
  unfold make
  rw [Action.dialogue_bind_exceptT_iff]
  simp only [dialogue_makeBytes_iff _ _ _ _ needs, dialogue_pure_step_iff]
  -- the workspace is closed with the fault still untold, which then decides what is returned
  constructor
  · rintro (⟨_, bytes, _, rfl, ⟨found, made, done, fault, removed, prepared, follows, rfl, same⟩ |
        ⟨_, _, -, never⟩, rfl, rfl⟩ |
      ⟨_, ⟨found, made, done, fault, removed, prepared, follows, rfl, same⟩ |
        ⟨found, fault, stopped, same⟩, rfl⟩)
    · cases fault with
      | some fault => cases same
      | none =>
        cases same
        rw [List.append_nil]
        exact .closed prepared follows removed
    · cases never
    · cases fault with
      | some fault =>
        cases same
        exact .closed prepared follows removed
      | none => cases same
    · cases same
      exact .unprepared stopped
  · intro exports
    cases exports with
    | unprepared stopped => exact Or.inr ⟨_, Or.inr ⟨_, _, stopped, rfl⟩, rfl⟩
    | @closed found made done fault prepared follows removed =>
      cases fault with
      | some fault =>
        exact Or.inr ⟨fault,
          Or.inl ⟨found, made, done, _, removed, prepared, follows, rfl, rfl⟩, rfl⟩
      | none =>
        exact Or.inl ⟨_, delivered found kind, [], (List.append_nil _).symm,
          Or.inl ⟨found, made, done, none, removed, prepared, follows, rfl, rfl⟩, rfl, rfl⟩

theorem exports_ok_iff {log : List Exchange} {artifact : Artifact} :
    Exports config article lang kind log (.ok artifact) ↔
      ∃ found done removed,
        Follows (preparation config found ++ sequence config article lang found kind) done none ∧
        log = done ++ [⟨.removeAll found.workspace, removed⟩] ∧
        artifact = artifactOf article lang kind found := by
  simp only [follows_append_iff]
  constructor
  · intro exports
    generalize told : Except.ok artifact = result at exports
    cases exports with
    | unprepared => cases told
    | @closed found made done fault prepared follows removed =>
      cases fault with
      | some fault => cases told
      | none =>
        cases told
        exact ⟨found, made ++ done, removed, Or.inl ⟨made, done, rfl, prepared, follows⟩, rfl, rfl⟩
  · rintro ⟨found, _, removed, ⟨made, done, rfl, prepared, follows⟩ | ⟨_, never, -⟩, rfl, rfl⟩
    · exact .closed prepared follows removed
    · cases never

theorem exports_error_iff {log : List Exchange} {fault : Fault} :
    Exports config article lang kind log (.error fault) ↔
      (∃ found, Follows (preparation config found) log (some fault)) ∨
        ∃ found made done removed, Follows (preparation config found) made none ∧
          Follows (sequence config article lang found kind) done (some fault) ∧
          log = made ++ done ++ [⟨.removeAll found.workspace, removed⟩] := by
  constructor
  · intro exports
    generalize told : Except.error fault = result at exports
    cases exports with
    | unprepared stopped =>
      cases told
      exact Or.inl ⟨_, stopped⟩
    | @closed found made done outcome prepared follows removed =>
      cases outcome with
      | some outcome =>
        cases told
        exact Or.inr ⟨found, made, done, removed, prepared, follows, rfl⟩
      | none => cases told
  · rintro (⟨found, stopped⟩ | ⟨found, made, done, removed, prepared, follows, rfl⟩)
    · exact .unprepared stopped
    · exact .closed prepared follows removed

/-! ### The last program -/

/-- Each kind ends with a program that should make the file of the kind. -/
theorem exists_sequence_eq (needs : kind.needsPrograms = true) (found : Findings) :
    ∃ earlier invocation, sequence config article lang found kind =
      earlier ++ [.make invocation (Path.join found.workspace ("article." ++ kind.suffix))
        (delivered found kind)] := by
  cases kind with
  | latex => exact ⟨_, _, (List.append_assoc _ [_] [_]).symm⟩
  | docx => exact ⟨[_, _], _, rfl⟩
  | pdf engine =>
    cases engine with
    | tex => exact ⟨_, _, rfl⟩
    | pagedMedia => exact ⟨[_, _, _], _, rfl⟩
  | html | jats | text => cases needs

end

/-- What was read after a program is what it left, and not empty. -/
theorem Follows.make_last {plan : List Stage} {invocation : Invocation} {path : String}
    {bytes : ByteArray} {log : List Exchange}
    (follows : Follows (plan ++ [.make invocation path bytes]) log none) :
    ∃ earlier stdout stderr,
      log = earlier ++
        [⟨.run invocation, .finished (some 0) stdout stderr⟩, ⟨.read path, .ok bytes⟩] ∧
      bytes.isEmpty = false := by
  rcases follows_append_iff.mp follows with ⟨here, last, rfl, -, ends⟩ | ⟨_, never, -⟩
  · rcases follows_singleton_iff.mp ends with ⟨-, passes⟩ | ⟨_, never, -⟩
    · cases passes with
      | make stdout stderr nonempty => exact ⟨here, stdout, stderr, rfl, nonempty⟩
    · cases never
  · cases never

/-! ### What programs print -/

/-- A fault of a program, or of its missing output, that carries a text. -/
def Fault.Carries (fault : Fault) (output : String) : Prop :=
  (∃ program status, fault = .failed program status output) ∨
    ∃ program path, fault = .missingOutput program path output

/-- A text of all that a program printed: the errors stand behind the rest, and on a line of their
own if there are any. -/
def Prints (stdout stderr : ByteArray) (output : String) : Prop :=
  let shown := Text.shownText stdout
  let adjoins := stderr.isEmpty = true ∨ shown = "" ∨ shown.toList.getLast? = some '\n'
  ∃ gap, output = shown ++ gap ++ Text.shownText stderr ∧
    (adjoins ∧ gap = "" ∨ ¬ adjoins ∧ gap = "\n")

theorem shownText_of_isEmpty {bytes : ByteArray} (empty : bytes.isEmpty = true) :
    Text.shownText bytes = "" := by
  have none : bytes = .empty := ByteArray.ext (Array.eq_empty_of_size_eq_zero (beq_iff_eq.mp empty))
  rw [none]
  decide

theorem prints_combine (stdout stderr : ByteArray) :
    Prints stdout stderr (Tool.combine stdout stderr) := by
  unfold Tool.combine
  by_cases silent : stderr.isEmpty = true
  · exact ⟨"", by simp [silent, shownText_of_isEmpty silent], Or.inl ⟨Or.inl silent, rfl⟩⟩
  · by_cases ended : Text.shownText stdout = "" ∨
        (Text.shownText stdout).toList.getLast? = some '\n'
    · exact ⟨"", by simp [silent, ended], Or.inl ⟨Or.inr ended, rfl⟩⟩
    · refine ⟨"\n", by simp [silent, ended], Or.inr ⟨?_, rfl⟩⟩
      rintro (empty | known)
      · exact silent empty
      · exact ended known

/-- A fault that carries what a program printed carries it of the last one that was run. -/
theorem Follows.carries {plan : List Stage} {log : List Exchange} {fault : Fault}
    {output : String} (follows : Follows plan log (some fault)) (carries : fault.Carries output) :
    ∃ earlier invocation status stdout stderr later,
      log = earlier ++ ⟨.run invocation, .finished status stdout stderr⟩ :: later ∧
      Prints stdout stderr output ∧ ∀ exchange ∈ later, ∀ next, exchange.request ≠ .run next := by
  generalize same : some fault = outcome at follows
  induction follows with
  | finished => cases same
  | @pass stage rest here later outcome passes follows ih =>
    obtain ⟨earlier, invocation, status, stdout, stderr, later, rfl, printed, last⟩ := ih same
    exact ⟨here ++ earlier, invocation, status, stdout, stderr, later, by simp, printed, last⟩
  | stop fails =>
    cases same
    -- of the ways to fail a step, those with an output end with the run or a look at its file
    cases fails with
    | @failed invocation _ _ status stdout stderr =>
      obtain ⟨_, _, told⟩ | ⟨_, _, told⟩ := carries <;> cases told
      exact ⟨[], invocation, status, stdout, stderr, [], rfl, prints_combine _ _, by simp⟩
    | @missing invocation _ _ stdout stderr =>
      obtain ⟨_, _, told⟩ | ⟨_, _, told⟩ := carries <;> cases told
      exact ⟨[], invocation, some 0, stdout, stderr, [_], rfl, prints_combine _ _, by simp⟩
    | @empty invocation _ _ _ stdout stderr =>
      obtain ⟨_, _, told⟩ | ⟨_, _, told⟩ := carries <;> cases told
      exact ⟨[], invocation, some 0, stdout, stderr, [_], rfl, prints_combine _ _, by simp⟩
    | _ => obtain ⟨_, _, told⟩ | ⟨_, _, told⟩ := carries <;> cases told

/-! ### What an export returns -/

theorem run_make_eq_iff {σ : Type} (host : Action.Handler (StateM σ)) (start : σ) (config : Config)
    (article : Article) (lang : String) {kind : Kind} (needs : kind.needsPrograms = true)
    {result : Except Fault Artifact} :
    ((make config article lang kind).run host start).1 = result ↔
      Exports config article lang kind
        (Action.transcript host (make config article lang kind) start) result := by
  rw [← dialogue_make_iff _ _ _ _ needs]
  have told := Action.dialogue_transcript host (make config article lang kind) start
  constructor
  · rintro rfl
    exact told
  · exact told.unique

/-- A host with programs that succeed and say so, with a warning, but leave empty files. -/
def emptyHanded : Action.Handler (StateM Unit) := fun request =>
  match request with
  | .currentDirectory => pure (.ok "/")
  | .temporaryDirectory => pure "/tmp"
  | .isPresent _ => pure true
  | .read _ => pure (.ok .empty)
  | .write _ _ => pure (.ok ())
  | .makeDirectories _ => pure (.ok ())
  | .makeScratch parent => pure (.ok (Path.join parent "scratch"))
  | .removeAll _ => pure (.ok ())
  | .run _ => pure (.finished (some 0) "done".toUTF8 "odd".toUTF8)

end Galley.Export
