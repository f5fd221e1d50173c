import Galley.Proofs.Export.Steps
/-!
# The steps of an export

For every kind that needs programs, the steps its export consists of, written down as a list
(`sequence`), and that it does them.

The main lemma is `does_makeIn`: the dialogues of making an artifact in a workspace are those that
follow the list.
-/
namespace Galley.Export

open Galley.Host (Action Exchange Invocation)
open Galley.Host.Action (Dialogue)

/-! ### The steps of a workspace -/

theorem dialogue_ofTask_iff {α : Type} {fault : Host.Failure → Fault}
    {action : Action (Except Host.Failure α)} {log : List Exchange} {result : Except Fault α} :
    Dialogue (Step.ofTask fault action).run log result ↔
      ∃ answer, Dialogue action log answer ∧ result = answer.mapError fault :=
  Action.dialogue_bind_pure_iff

/-- An action whose failure, if it is one, is only told later. -/
theorem dialogue_lift_iff {α : Type} {action : Action α} {log : List Exchange}
    {result : Except Fault α} :
    Dialogue (ExceptT.lift action : Step α).run log result ↔
      ∃ value, Dialogue action log value ∧ result = .ok value := by
  rw [ExceptT.run_lift, map_eq_pure_bind]
  exact Action.dialogue_bind_pure_iff

theorem dialogue_absolute_iff {path : String} {log : List Exchange}
    {answer : Except Host.Failure String} :
    Dialogue (Action.absolute path) log answer ↔ Located path log answer := by
  unfold Action.absolute
  -- only a relative path asks for anything, so the log tells the ways apart
  by_cases empty : path = ""
  · subst empty
    rw [if_pos (by decide), Action.dialogue_pure_iff]
    constructor
    · rintro ⟨rfl, rfl⟩
      exact .empty
    · intro located
      cases located with
      | empty => exact ⟨rfl, rfl⟩
      | rooted nonempty => exact absurd rfl nonempty
      | relative nonempty => exact absurd rfl nonempty
      | unknown nonempty => exact absurd rfl nonempty
  rw [if_neg (by simpa using empty)]
  by_cases rooted : Path.isAbsolute path = true
  · rw [if_pos rooted, Action.dialogue_pure_iff]
    constructor
    · rintro ⟨rfl, rfl⟩
      exact .rooted empty rooted
    · intro located
      cases located with
      | empty => exact absurd rfl empty
      | rooted => exact ⟨rfl, rfl⟩
      | relative _ relative => exact absurd rooted (by simp [relative])
      | unknown _ relative => exact absurd rooted (by simp [relative])
  · rw [if_neg rooted, Action.dialogue_bind_iff]
    have relative : Path.isAbsolute path = false := by simpa using rooted
    constructor
    · rintro ⟨here, current, later, rfl, asked, told⟩
      obtain rfl := Action.dialogue_request_iff.mp asked
      cases current with
      | error reason =>
        obtain ⟨rfl, rfl⟩ := Action.dialogue_pure_iff.mp told
        exact .unknown empty relative reason
      | ok current =>
        obtain ⟨rfl, rfl⟩ := Action.dialogue_pure_iff.mp told
        exact .relative empty relative current
    · intro located
      cases located with
      | empty => exact absurd rfl empty
      | rooted _ rooted => exact absurd rooted (by simp [relative])
      | relative _ _ current =>
        exact ⟨_, .ok current, [], rfl, Action.dialogue_request_iff.mpr rfl, .done _⟩
      | unknown _ _ reason =>
        exact ⟨_, .error reason, [], rfl, Action.dialogue_request_iff.mpr rfl, .done _⟩

/-- A task that is a single step of the list. -/
private theorem does_ofTask {α ι : Type} {fault : Host.Failure → Fault}
    {task : Action (Except Host.Failure α)} {stage : ι → Stage} {value : ι → α}
    (passes : ∀ log answer, Dialogue task log (.ok answer) ↔
      ∃ i, (stage i).Passes log ∧ answer = value i)
    (fails : ∀ log failure, (∃ reason, Dialogue task log (.error reason) ∧ failure = fault reason) ↔
      ∃ i, (stage i).Fails log failure) :
    Does (Step.ofTask fault task) (fun i => [stage i]) value := by
  apply does_singleton
  · intro log result
    rw [dialogue_ofTask_iff, ← passes]
    constructor
    · rintro ⟨answer, told, same⟩
      cases answer with
      | ok answer => cases same; exact told
      | error reason => cases same
    · exact fun told => ⟨.ok result, told, rfl⟩
  · intro log failure
    rw [dialogue_ofTask_iff, ← fails]
    constructor
    · rintro ⟨answer, told, same⟩
      cases answer with
      | ok answer => cases same
      | error reason => cases same; exact ⟨reason, told, rfl⟩
    · rintro ⟨reason, told, rfl⟩
      exact ⟨.error reason, told, rfl⟩

theorem does_write (workspace : Workspace) (name : String) (bytes : ByteArray) :
    Does (workspace.write name bytes) (fun _ : Unit × Unit => [.write (workspace.join name) bytes])
      (fun _ => workspace.join name) := by
  have asks : Does (Step.ofTask .io (Action.write (workspace.join name) bytes))
      (fun _ : Unit => [.write (workspace.join name) bytes]) (fun _ => ()) := by
    apply does_ofTask
    · intro log _
      constructor
      · intro told
        obtain rfl := Action.dialogue_request_iff.mp told
        exact ⟨(), .write _ _, rfl⟩
      · rintro ⟨_, passes, -⟩
        cases passes
        exact Action.dialogue_request_iff.mpr rfl
    · intro log failure
      constructor
      · rintro ⟨reason, told, rfl⟩
        obtain rfl := Action.dialogue_request_iff.mp told
        exact ⟨(), .write reason⟩
      · rintro ⟨_, fails⟩
        cases fails with
        | write reason => exact ⟨reason, Action.dialogue_request_iff.mpr rfl, rfl⟩
  exact does_bind asks (fun _ => pure (workspace.join name)) fun _ => does_pure _

theorem does_write_then {α ι : Type} [Inhabited ι] (workspace : Workspace) (name : String)
    (bytes : ByteArray) {rest : Step α} {plan : ι → List Stage} {value : ι → α}
    (later : Does rest plan value) :
    Does (workspace.write name bytes >>= fun _ => rest)
      (fun i => .write (workspace.join name) bytes :: plan i) value :=
  (does_then (does_write workspace name bytes) later).reindex (fun i => (((), ()), i))
    fun i => ⟨i.2, rfl⟩

theorem does_scratch (parent : String) :
    Does (Step.ofTask .workspace (Action.makeScratch parent)) (fun path => [.scratch parent path])
      (fun path => path) := by
  apply does_ofTask
  · intro log path
    constructor
    · intro told
      obtain rfl := Action.dialogue_request_iff.mp told
      exact ⟨path, .scratch _ _, rfl⟩
    · rintro ⟨_, passes, rfl⟩
      cases passes
      exact Action.dialogue_request_iff.mpr rfl
  · intro log failure
    constructor
    · rintro ⟨reason, told, rfl⟩
      obtain rfl := Action.dialogue_request_iff.mp told
      exact ⟨"", .scratch reason⟩
    · rintro ⟨_, fails⟩
      cases fails with
      | scratch reason => exact ⟨reason, Action.dialogue_request_iff.mpr rfl, rfl⟩

/-! ### The steps of sources -/

theorem dialogue_readText_iff {path : String} {log : List Exchange}
    {answer : Except Host.Failure String} :
    Dialogue (Action.readText path) log answer ↔
      (∃ reason, log = [⟨.read path, .error reason⟩] ∧ answer = .error reason) ∨
        ∃ bytes, log = [⟨.read path, .ok bytes⟩] ∧
          answer = (String.fromUTF8? bytes).elim (.error .invalidText) .ok := by
  rw [Action.readText, Action.dialogue_bind_iff]
  -- what is asked is the same in all cases; the answer decides what is returned
  constructor
  · rintro ⟨_, found, later, rfl, asked, told⟩
    obtain rfl := Action.dialogue_request_iff.mp asked
    cases found with
    | error reason =>
      obtain ⟨rfl, rfl⟩ := Action.dialogue_pure_iff.mp told
      exact Or.inl ⟨reason, rfl, rfl⟩
    | ok bytes =>
      right
      refine ⟨bytes, ?_⟩
      cases text : String.fromUTF8? bytes with
      | some text =>
        simp only [text] at told
        obtain ⟨rfl, rfl⟩ := Action.dialogue_pure_iff.mp told
        exact ⟨rfl, rfl⟩
      | none =>
        simp only [text] at told
        obtain ⟨rfl, rfl⟩ := Action.dialogue_pure_iff.mp told
        exact ⟨rfl, rfl⟩
  · rintro (⟨reason, rfl, rfl⟩ | ⟨bytes, rfl, rfl⟩)
    · exact ⟨_, .error reason, [], rfl, Action.dialogue_request_iff.mpr rfl, .done _⟩
    · refine ⟨_, .ok bytes, [], rfl, Action.dialogue_request_iff.mpr rfl, ?_⟩
      cases text : String.fromUTF8? bytes with
      | some text => simpa only [text] using .done _
      | none => simpa only [text] using .done _

/-- A step for which nothing is asked. -/
private theorem does_silent {α ι : Type} {stage : ι → Stage} {value : ι → α} {known : α}
    (passes : ∀ i log, (stage i).Passes log ↔ log = [] ∧ value i = known)
    (fails : ∀ i log fault, ¬ (stage i).Fails log fault) (i : ι) (reached : value i = known) :
    Does (pure known) (fun i => [stage i]) value := by
  apply does_singleton
  · intro log result
    rw [dialogue_pure_step_iff]
    constructor
    · rintro ⟨rfl, same⟩
      exact ⟨i, (passes i []).mpr ⟨rfl, reached⟩, (Except.ok.inj same).trans reached.symm⟩
    · rintro ⟨j, passed, rfl⟩
      obtain ⟨rfl, rfl⟩ := (passes j log).mp passed
      exact ⟨rfl, rfl⟩
  · intro log fault
    rw [dialogue_pure_step_iff]
    constructor
    · rintro ⟨-, same⟩
      cases same
    · rintro ⟨j, failed⟩
      exact absurd failed (fails j log fault)

theorem does_stylesheet (config : Config) :
    Does (stylesheet config) (fun css => [.stylesheet config.stylesheetPath css])
      (fun css => css) := by
  unfold stylesheet
  cases config.stylesheetPath with
  | none =>
    apply does_silent
    · intro css log
      constructor
      · intro passes
        cases passes
        exact ⟨rfl, rfl⟩
      · rintro ⟨rfl, rfl⟩
        exact .builtin
    · intro css log fault fails
      cases fails
    · rfl
  | some path =>
    -- the file is read once, and fails the step also if its bytes are no text
    apply does_ofTask
    · intro log css
      rw [dialogue_readText_iff]
      constructor
      · rintro (⟨_, -, never⟩ | ⟨bytes, rfl, same⟩)
        · cases never
        · cases text : String.fromUTF8? bytes with
          | none => rw [text] at same; cases same
          | some text' =>
            rw [text] at same
            cases same
            exact ⟨css, .stylesheet text, rfl⟩
      · rintro ⟨_, passes, rfl⟩
        cases passes with
        | stylesheet isText => exact Or.inr ⟨_, rfl, by rw [isText]; rfl⟩
    · intro log failure
      simp only [dialogue_readText_iff]
      constructor
      · rintro ⟨reason, ⟨_, rfl, same⟩ | ⟨bytes, rfl, same⟩, rfl⟩
        · cases same
          exact ⟨"", .stylesheet reason⟩
        · cases text : String.fromUTF8? bytes with
          | none =>
            rw [text] at same
            cases same
            exact ⟨"", .stylesheetUnreadable text⟩
          | some text' => rw [text] at same; cases same
      · rintro ⟨_, fails⟩
        cases fails with
        | stylesheet reason => exact ⟨reason, Or.inl ⟨reason, rfl, rfl⟩, rfl⟩
        | stylesheetUnreadable noText =>
          exact ⟨.invalidText, Or.inr ⟨_, rfl, by rw [noText]; rfl⟩, rfl⟩

theorem does_template (config : Config) :
    Does (latexTemplate config) (fun shown => [.template config.latexTemplatePath shown])
      (fun shown => shown) := by
  unfold latexTemplate
  cases config.latexTemplatePath with
  | none =>
    apply does_silent
    · intro shown log
      constructor
      · intro passes
        cases passes
        exact ⟨rfl, rfl⟩
      · rintro ⟨rfl, rfl⟩
        exact .standalone
    · intro css log fault fails
      cases fails
    · rfl
  | some path =>
    -- the template is only named to the converter, and not read
    have shows (log : List Exchange) (result : Except Fault (Option String)) :
        Dialogue (some <$> Step.ofTask .io (Action.absolute path)).run log result ↔
          ∃ answer, Located path log answer ∧ result = (answer.mapError .io).map some := by
      rw [ExceptT.run_map, map_eq_pure_bind]
      refine Action.dialogue_bind_pure_iff.trans ?_
      simp only [dialogue_ofTask_iff, dialogue_absolute_iff]
      constructor
      · rintro ⟨_, ⟨answer, located, rfl⟩, rfl⟩
        exact ⟨answer, located, rfl⟩
      · rintro ⟨answer, located, rfl⟩
        exact ⟨_, ⟨answer, located, rfl⟩, rfl⟩
    apply does_singleton
    · intro log shown
      rw [shows]
      constructor
      · rintro ⟨answer, located, same⟩
        cases answer with
        | error reason => cases same
        | ok shown => cases same; exact ⟨some shown, .template located, rfl⟩
      · rintro ⟨_, passes, rfl⟩
        cases passes with
        | template located => exact ⟨_, located, rfl⟩
    · intro log failure
      rw [shows]
      constructor
      · rintro ⟨answer, located, same⟩
        cases answer with
        | error reason => cases same; exact ⟨none, .template located⟩
        | ok shown => cases same
      · rintro ⟨_, fails⟩
        cases fails with
        | template located => exact ⟨_, located, rfl⟩

/-! ### Running programs -/

theorem dialogue_run_iff {tool : Tool} {arguments : List String} {directory : String}
    {limit : Option Time.Duration} {log : List Exchange} {result : Except Fault String} :
    Dialogue (tool.run arguments directory limit).run log result ↔
      ∃ outcome,
        log = [⟨.run ⟨tool.program, tool.arguments ++ arguments, directory, limit⟩, outcome⟩] ∧
          result = tool.judge limit outcome := by
  change Dialogue (Action.start _ >>= fun outcome => pure (tool.judge limit outcome)) log result ↔ _
  rw [Action.dialogue_bind_pure_iff]
  exact exists_congr fun outcome => and_congr_left' Action.dialogue_request_iff

theorem dialogue_readOutput_iff {workspace : Workspace} {name program printed : String}
    {log : List Exchange} {result : Except Fault ByteArray} :
    Dialogue (workspace.readOutput name program printed).run log result ↔
      ∃ found, log = [⟨.read (workspace.join name), found⟩] ∧
        result = Workspace.judgeOutput program (workspace.join name) printed found := by
  change Dialogue (Action.read (workspace.join name) >>= fun found =>
    pure (Workspace.judgeOutput program (workspace.join name) printed found)) log result ↔ _
  rw [Action.dialogue_bind_pure_iff]
  exact exists_congr fun found => and_congr_left' Action.dialogue_request_iff

theorem judge_eq_ok_iff {tool : Tool} {limit : Option Time.Duration} {outcome : Host.Outcome}
    {printed : String} :
    tool.judge limit outcome = .ok printed ↔
      ∃ stdout stderr, outcome = .finished (some 0) stdout stderr ∧
        printed = Tool.combine stdout stderr := by
  constructor
  · intro judged
    cases outcome with
    | unstartable | timedOut => cases judged
    | finished status stdout stderr =>
      rw [Tool.judge] at judged
      split at judged
      next success =>
        subst success
        cases judged
        exact ⟨stdout, stderr, rfl, rfl⟩
      · cases judged
  · rintro ⟨stdout, stderr, rfl, rfl⟩
    rfl

theorem judgeOutput_eq_ok_iff {program path printed : String}
    {found : Except Host.Failure ByteArray} {bytes : ByteArray} :
    Workspace.judgeOutput program path printed found = .ok bytes ↔
      found = .ok bytes ∧ bytes.isEmpty = false := by
  constructor
  · intro judged
    unfold Workspace.judgeOutput at judged
    split at judged
    · split at judged
      · cases judged
      next nonempty =>
        cases judged
        exact ⟨rfl, by simpa using nonempty⟩
    · cases judged
    · cases judged
  · rintro ⟨rfl, nonempty⟩
    simp [Workspace.judgeOutput, nonempty]

theorem judgeOutput_of_ne {program path printed : String} {reason : Host.Failure}
    (other : reason ≠ .notFound) :
    Workspace.judgeOutput program path printed (.error reason) = .error (.io reason) := by
  cases reason with
  | notFound => exact absurd rfl other
  | _ => rfl

theorem does_runFor (config : Config) (workspace : Workspace) (command : String)
    (arguments : List String) (output : String) :
    Does (runFor config workspace command arguments output)
      (fun bytes =>
        [.make ⟨(Tool.ofCommand command).program, (Tool.ofCommand command).arguments ++ arguments,
            workspace.path, timeLimit config⟩ (workspace.join output) bytes])
      (fun bytes => bytes) := by
  unfold runFor
  generalize Tool.ofCommand command = tool
  apply does_singleton
  · intro log bytes
    rw [Action.dialogue_bind_exceptT_iff]
    simp only [dialogue_run_iff, dialogue_readOutput_iff]
    constructor
    · rintro (⟨_, printed, _, rfl, ⟨outcome, rfl, judged⟩, found, rfl, same⟩ | ⟨_, _, never⟩)
      · obtain ⟨stdout, stderr, rfl, rfl⟩ := judge_eq_ok_iff.mp judged.symm
        obtain ⟨rfl, nonempty⟩ := judgeOutput_eq_ok_iff.mp same.symm
        exact ⟨bytes, .make stdout stderr nonempty, rfl⟩
      · cases never
    · rintro ⟨_, passes, rfl⟩
      cases passes with
      | make stdout stderr nonempty =>
        exact Or.inl ⟨_, _, _, rfl, ⟨_, rfl, rfl⟩, .ok bytes, rfl,
          (judgeOutput_eq_ok_iff.mpr ⟨rfl, nonempty⟩).symm⟩
  · intro log failure
    rw [Action.dialogue_bind_exceptT_iff]
    simp only [dialogue_run_iff, dialogue_readOutput_iff]
    constructor
    · rintro (⟨_, printed, _, rfl, ⟨outcome, rfl, judged⟩, found, rfl, same⟩ |
        ⟨_, ⟨outcome, rfl, judged⟩, same⟩)
      · obtain ⟨stdout, stderr, rfl, rfl⟩ := judge_eq_ok_iff.mp judged.symm
        refine ⟨.empty, ?_⟩
        -- the program went well, but what it should have made is not there
        unfold Workspace.judgeOutput at same
        split at same
        · split at same
          next found empty => cases same; exact .empty stdout stderr empty
          · cases same
        · cases same; exact .missing stdout stderr
        next reason other =>
          cases same
          exact .unreadable stdout stderr other
      · cases same
        refine ⟨.empty, ?_⟩
        -- the program itself failed, and its file is not asked for
        cases outcome with
        | unstartable reason => cases judged; exact .unstartable reason
        | timedOut => cases judged; exact .timedOut
        | finished status stdout stderr =>
          rw [Tool.judge] at judged
          split at judged
          · cases judged
          next unsuccessful => cases judged; exact .failed stdout stderr unsuccessful
    · rintro ⟨_, fails⟩
      cases fails with
      | unstartable reason => exact Or.inr ⟨_, ⟨_, rfl, rfl⟩, rfl⟩
      | timedOut => exact Or.inr ⟨_, ⟨.timedOut, rfl, rfl⟩, rfl⟩
      | failed stdout stderr unsuccessful =>
        exact Or.inr ⟨_, ⟨_, rfl, by rw [Tool.judge, if_neg unsuccessful]⟩, rfl⟩
      | missing stdout stderr =>
        exact Or.inl ⟨_, _, _, rfl, ⟨_, rfl, rfl⟩, .error .notFound, rfl, rfl⟩
      | empty stdout stderr empty =>
        exact Or.inl ⟨_, _, _, rfl, ⟨_, rfl, rfl⟩, .ok _, rfl,
          by simp [Workspace.judgeOutput, empty]⟩
      | unreadable stdout stderr other =>
        exact Or.inl ⟨_, _, _, rfl, ⟨_, rfl, rfl⟩, .error _, rfl, (judgeOutput_of_ne other).symm⟩

/-! ### The list for each kind -/

/-- What an export finds out on its way. -/
structure Findings where
  /-- The directory for workspaces. -/
  parent : String
  workspace : String
  css : String
  template : Option String
  /-- What the converter made for the TeX engine. -/
  latex : ByteArray
  /-- What the last program made. -/
  bytes : ByteArray
deriving Inhabited

variable (config : Config) (article : Article) (lang : String) (found : Findings)

/-- Running a configured command for an output file of the workspace. -/
def making (command : String) (arguments : List String) (output : String) (bytes : ByteArray) :
    Stage :=
  let tool := Tool.ofCommand command
  .make ⟨tool.program, tool.arguments ++ arguments, found.workspace, timeLimit config⟩
    (Path.join found.workspace output) bytes

/-- A file of the workspace is written. -/
def writing (name : String) (text : String) : Stage :=
  .write (Path.join found.workspace name) text.toUTF8

/-- The steps that make the workspace. -/
def preparation : List Stage :=
  [.parent config.workspaceRootPath found.parent, .scratch found.parent found.workspace]

def latexSequence : List Stage :=
  let entries := Bibliography.entries article.references
  [writing found markdownFile (markdownSource config article lang)] ++
    (if entries.isEmpty then []
      else [writing found FrontMatter.bibliographyFile (Bibliography.print entries)]) ++
    [.template config.latexTemplatePath found.template,
      making config found config.converter
        (latexArguments found.template (Tool.ofCommand config.texEngine).program !entries.isEmpty)
        latexFile found.latex]

/-- The steps of an export in its workspace. -/
def sequence : Kind → List Stage
  | .latex => latexSequence config article lang found
  | .pdf .tex =>
    latexSequence config article lang found ++
      [making config found config.texEngine (texArguments ⟨found.workspace⟩) pdfFile found.bytes]
  | .pdf .pagedMedia =>
    [writing found pageFile (Rendition.Page.render article lang (.linked stylesheetFile)),
      .stylesheet config.stylesheetPath found.css, writing found stylesheetFile found.css,
      making config found config.pagedMediaEngine pagedArguments pdfFile found.bytes]
  | .docx =>
    [.stylesheet config.stylesheetPath found.css,
      writing found pageFile (Rendition.Page.render article lang (.inline found.css)),
      making config found config.converter docxArguments docxFile found.bytes]
  | .html | .jats | .text => []

/-- What an export delivers. -/
def delivered : Kind → ByteArray
  | .latex => found.latex
  | _ => found.bytes

theorem does_makeDocx (workspace : Workspace) :
    Does (makeDocx config article lang workspace)
      (fun i : String × ByteArray =>
        sequence config article lang ⟨"", workspace.path, i.1, none, .empty, i.2⟩ .docx)
      (fun i => i.2) := by
  have runs := does_runFor config workspace config.converter docxArguments docxFile
  have writes (css : String) := does_write_then workspace pageFile
    (Rendition.Page.render article lang (.inline css)).toUTF8 runs
  exact does_bind (does_stylesheet config) _ writes

theorem does_makePaged (workspace : Workspace) :
    Does (makePaged config article lang workspace)
      (fun i : String × ByteArray =>
        sequence config article lang ⟨"", workspace.path, i.1, none, .empty, i.2⟩
          (.pdf .pagedMedia))
      (fun i => i.2) := by
  have runs := does_runFor config workspace config.pagedMediaEngine pagedArguments pdfFile
  have writes (css : String) := does_write_then workspace stylesheetFile css.toUTF8 runs
  exact does_write_then workspace pageFile _ (does_bind (does_stylesheet config) _ writes)

theorem does_makeLatex (workspace : Workspace) :
    Does (makeLatex config article lang workspace)
      (fun i : Option String × ByteArray =>
        latexSequence config article lang ⟨"", workspace.path, "", i.1, i.2, .empty⟩)
      (fun i => i.2) := by
  unfold makeLatex latexSequence
  have runs (template : Option String) := does_runFor config workspace config.converter
    (latexArguments template (Tool.ofCommand config.texEngine).program
      !(Bibliography.entries article.references).isEmpty) latexFile
  have locates := does_bind (does_template config) _ runs
  -- the bibliography is only written where there is one
  cases empty : (Bibliography.entries article.references).isEmpty with
  | true =>
    simp only [empty] at locates ⊢
    exact does_write_then workspace markdownFile _ locates
  | false =>
    simp only [empty] at locates ⊢
    exact does_write_then workspace markdownFile _
      (does_write_then workspace FrontMatter.bibliographyFile _ locates)

/-- The dialogues of making an artifact by programs are those that follow the list of its kind. -/
theorem does_makeIn {kind : Kind} (needs : kind.needsPrograms = true) (workspace : Workspace) :
    Does (makeIn config article lang workspace kind)
      (fun found : Findings =>
        sequence config article lang { found with workspace := workspace.path } kind)
      (fun found => delivered found kind) := by
  -- each kind finds out its own part of what there is to be found out
  cases kind with
  | latex =>
    exact (does_makeLatex config article lang workspace).reindex
      (fun found : Findings => (found.template, found.latex))
      fun i => ⟨⟨"", "", "", i.1, i.2, .empty⟩, rfl⟩
  | docx =>
    exact (does_makeDocx config article lang workspace).reindex
      (fun found : Findings => (found.css, found.bytes))
      fun i => ⟨⟨"", "", i.1, none, .empty, i.2⟩, rfl⟩
  | pdf engine =>
    cases engine with
    | pagedMedia =>
      exact (does_makePaged config article lang workspace).reindex
        (fun found : Findings => (found.css, found.bytes))
        fun i => ⟨⟨"", "", i.1, none, .empty, i.2⟩, rfl⟩
    | tex =>
      have lays := does_runFor config workspace config.texEngine (texArguments workspace) pdfFile
      exact (does_then (does_makeLatex config article lang workspace) lays).reindex
        (fun found : Findings => ((found.template, found.latex), found.bytes))
        fun i => ⟨⟨"", "", "", i.1.1, i.1.2, i.2⟩, rfl⟩
  | html | jats | text => cases needs

/-! ### Making the workspace -/

/-- The directory for temporary files, where none is configured for workspaces. -/
private theorem does_temporary :
    Does (ExceptT.lift Action.temporaryDirectory) (fun directory => [.parent none directory])
      (fun directory => directory) := by
  apply does_singleton
  · intro log directory
    rw [dialogue_lift_iff]
    constructor
    · rintro ⟨_, asked, same⟩
      obtain rfl := Action.dialogue_request_iff.mp asked
      cases same
      exact ⟨directory, .temporary directory, rfl⟩
    · rintro ⟨_, passes, rfl⟩
      cases passes
      exact ⟨directory, Action.dialogue_request_iff.mpr rfl, rfl⟩
  · intro log failure
    rw [dialogue_lift_iff]
    constructor
    · rintro ⟨_, -, never⟩
      cases never
    · rintro ⟨_, fails⟩
      cases fails

/-- The configured directory for workspaces: it is made, and then its place is asked for. -/
private theorem does_root (root : String) :
    Does
      (do
        Step.ofTask .workspace (Action.makeDirectories root)
        Step.ofTask .workspace (Action.absolute root))
      (fun directory => [.parent (some root) directory]) (fun directory => directory) := by
  apply does_singleton
  · intro log directory
    rw [Action.dialogue_bind_exceptT_iff]
    simp only [dialogue_ofTask_iff, dialogue_absolute_iff]
    constructor
    · rintro (⟨_, _, later, rfl, ⟨made, asked, same⟩, answer, located, found⟩ | ⟨_, _, never⟩)
      · obtain rfl := Action.dialogue_request_iff.mp asked
        cases made with
        | error reason => cases same
        | ok =>
          cases answer with
          | error reason => cases found
          | ok => cases found; exact ⟨directory, .root located, rfl⟩
      · cases never
    · rintro ⟨_, passes, rfl⟩
      cases passes with
      | root located =>
        exact Or.inl ⟨_, (), _, rfl, ⟨.ok (), Action.dialogue_request_iff.mpr rfl, rfl⟩,
          _, located, rfl⟩
  · intro log failure
    rw [Action.dialogue_bind_exceptT_iff]
    simp only [dialogue_ofTask_iff, dialogue_absolute_iff]
    constructor
    · rintro (⟨_, _, later, rfl, ⟨made, asked, same⟩, answer, located, found⟩ |
        ⟨_, ⟨made, asked, same⟩, found⟩)
      · obtain rfl := Action.dialogue_request_iff.mp asked
        cases made with
        | error reason => cases same
        | ok =>
          cases answer with
          | error reason => cases found; exact ⟨"", .rootUnplaced located⟩
          | ok => cases found
      · obtain rfl := Action.dialogue_request_iff.mp asked
        cases found
        cases made with
        | error reason => cases same; exact ⟨"", .root reason⟩
        | ok => cases same
    · rintro ⟨_, fails⟩
      cases fails with
      | root reason =>
        exact Or.inr ⟨_, ⟨.error reason, Action.dialogue_request_iff.mpr rfl, rfl⟩, rfl⟩
      | rootUnplaced located =>
        exact Or.inl ⟨_, (), _, rfl, ⟨.ok (), Action.dialogue_request_iff.mpr rfl, rfl⟩,
          _, located, rfl⟩

private theorem does_parent (root : Option String) :
    Does
      (match root with
        | some root => do
          Step.ofTask .workspace (Action.makeDirectories root)
          Step.ofTask .workspace (Action.absolute root)
        | none => ExceptT.lift Action.temporaryDirectory)
      (fun directory => [.parent root directory]) (fun directory => directory) := by
  cases root with
  | none => exact does_temporary
  | some root => exact does_root root

/-- Making a workspace takes the first two steps of the list. -/
theorem does_create (config : Config) :
    Does (Workspace.create config.workspaceRootPath) (preparation config)
      (fun found => ⟨found.workspace⟩) := by
  have makes (parent : String) := does_bind (does_scratch parent)
    (fun path => pure (Workspace.mk path)) fun path => does_pure (Workspace.mk path)
  have creates := (does_bind (does_parent config.workspaceRootPath) _ makes).reindex
    (fun found : Findings => (found.parent, found.workspace, ()))
    fun i => ⟨⟨i.1, i.2.1, "", none, .empty, .empty⟩, rfl⟩
  unfold preparation
  cases root : config.workspaceRootPath with
  | none =>
    simp only [root] at creates
    exact creates
  | some path =>
    simp only [root, bind_assoc] at creates
    exact creates

end Galley.Export
