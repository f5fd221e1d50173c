import Galley.CommandLine.Command
import Galley.Proofs.Export.Cleanup
import Galley.Proofs.Export.FileName
/-!
# Exports by a command line

The artifact is made before its file is touched. So the one request that an export makes outside of
a workspace is the write at the end, and nothing is printed before the answer to it is known.

## Main result

`destination_written_or_untouched`: an export that stops at any step leaves every file as it was and
prints nothing, and one that gets through changes the file at its destination alone.
-/
namespace Galley.CommandLine

open Galley.Host (Action Exchange FileTree Location Request Runs)
open Galley.Host.Action (Asks Dialogue)

/-! ### Reading -/

theorem asks_ofTask {α ε : Type} {p : Request → Prop} {task : Action (Except ε α)}
    (asks : Asks p task) (message : String) (causes : ε → List String) :
    Asks p (Step.ofTask message causes task).run :=
  asks.bind fun _ => .done _

theorem looks_readText (path : String) : Asks Request.Looks (Action.readText path) := by
  refine (Action.asks_request (.read path)).bind fun answer => ?_
  cases answer with
  | error reason => exact .done _
  | ok bytes =>
    dsimp only
    split <;> exact .done _

theorem looks_loadConfig (path : String) : Asks Request.Looks (loadConfig path).run := by
  refine asks_ofTask ((Action.asks_request (.isPresent path)).bind fun present => ?_) _ _
  split
  · refine (looks_readText path).bind fun text => ?_
    cases text <;> exact .done _
  · exact .done _

theorem looks_loadArticle (path : String) : Asks Request.Looks (loadArticle path).run := by
  refine asks_ofTask ((looks_readText path).bind fun text => ?_) _ _
  cases text <;> exact .done _

/-! ### How exports go -/

section

variable (config path : String) (kind : Export.Kind) (lang : String)

/-- An export that does not get to its artifact, with its report, and with the configuration if it
was begun by that. -/
inductive Stops : List Exchange → Option Config → Report → Prop
  | configuration {log : List Exchange} {report : Report}
    (told : Dialogue (loadConfig config).run log (.error report)) : Stops log none report
  | article {here log : List Exchange} {loaded : Config} {report : Report}
    (configured : Dialogue (loadConfig config).run here (.ok loaded))
    (told : Dialogue (loadArticle path).run log (.error report)) : Stops (here ++ log) none report
  | artifact {here there log : List Exchange} {loaded : Config} {article : Article}
    {fault : Export.Fault} (configured : Dialogue (loadConfig config).run here (.ok loaded))
    (read : Dialogue (loadArticle path).run there (.ok article))
    (told : Dialogue (Export.make loaded article lang kind) log (.error fault)) :
    Stops (here ++ there ++ log) (some loaded)
      ⟨"Failed to export " ++ article.id ++ " as " ++ kind.name, faultCauses fault⟩

/-- An export up to its artifact. -/
inductive Makes : List Exchange → Config → Article → Export.Artifact → Prop
  | made {here there log : List Exchange} {loaded : Config} {article : Article}
    {artifact : Export.Artifact} (configured : Dialogue (loadConfig config).run here (.ok loaded))
    (read : Dialogue (loadArticle path).run there (.ok article))
    (told : Dialogue (Export.make loaded article lang kind) log (.ok artifact)) :
    Makes (here ++ there ++ log) loaded article artifact

end

section

variable {config path lang : String} {kind : Export.Kind} {output : Option String}
  {log : List Exchange}

theorem dialogue_ofTask_ok_iff {α ε : Type} {message : String} {causes : ε → List String}
    {task : Action (Except ε α)} {value : α} :
    Dialogue (Step.ofTask message causes task).run log (.ok value) ↔
      Dialogue task log (.ok value) := by
  refine Action.dialogue_bind_pure_iff.trans ⟨?_, fun told => ⟨.ok value, told, rfl⟩⟩
  rintro ⟨_ | _, told, same⟩
  · cases same
  · cases same
    exact told

theorem dialogue_ofTask_error_iff {α ε : Type} {message : String} {causes : ε → List String}
    {task : Action (Except ε α)} {report : Report} :
    Dialogue (Step.ofTask message causes task).run log (.error report) ↔
      ∃ fault, Dialogue task log (.error fault) ∧ report = ⟨message, causes fault⟩ := by
  refine Action.dialogue_bind_pure_iff.trans ⟨?_, ?_⟩
  · rintro ⟨fault | _, told, same⟩
    · cases same
      exact ⟨fault, told, rfl⟩
    · cases same
  · rintro ⟨fault, told, rfl⟩
    exact ⟨.error fault, told, rfl⟩

/-- What the answer to the write at the end means. -/
def judgeWrite (destination : String) : Except Host.Failure Unit → Except Report String
  | .ok () => .ok destination
  | .error reason => .error ⟨"Failed to write " ++ destination, [reason.message]⟩

private theorem dialogue_write_iff {destination : String} {bytes : ByteArray}
    {result : Except Report String} :
    Dialogue (do
        Step.ofTask ("Failed to write " ++ destination)
          (fun reason => [Host.Failure.message reason]) (Action.write destination bytes)
        return destination : Step String).run log result ↔
      ∃ answer, log = [⟨.write destination bytes, answer⟩] ∧
        result = judgeWrite destination answer := by
  constructor
  · intro told
    obtain ⟨here, _, later, rfl, first, ends⟩ | ⟨report, stopped, rfl⟩ :=
      Action.dialogue_bind_exceptT_iff.mp told
    · obtain ⟨rfl, rfl⟩ := Action.dialogue_pure_iff.mp ends
      rw [Action.dialogue_request_iff.mp (dialogue_ofTask_ok_iff.mp first)]
      exact ⟨.ok (), rfl, rfl⟩
    · obtain ⟨reason, asked, rfl⟩ := dialogue_ofTask_error_iff.mp stopped
      rw [Action.dialogue_request_iff.mp asked]
      exact ⟨.error reason, rfl, rfl⟩
  · rintro ⟨answer, rfl, rfl⟩
    have asked : Dialogue (Action.write destination bytes)
        [⟨.write destination bytes, answer⟩] answer := Action.dialogue_request_iff.mpr rfl
    cases answer with
    | ok =>
      exact (dialogue_ofTask_ok_iff.mpr asked).followed (Action.dialogue_pure_iff.mpr ⟨rfl, rfl⟩)
    | error reason => exact (dialogue_ofTask_error_iff.mpr ⟨reason, asked, rfl⟩).stopped

/-- An export stops or makes its artifact, and only then asks for the write. -/
theorem dialogue_exportArticle_iff {result : Except Report String} :
    Dialogue (exportArticle config path kind lang output).run log result ↔
      (∃ loaded report, Stops config path kind lang log loaded report ∧ result = .error report) ∨
        ∃ made loaded article artifact answer,
          Makes config path kind lang made loaded article artifact ∧
          log = made ++ [⟨.write (output.getD (Export.fileName article.id lang kind))
            artifact.bytes, answer⟩] ∧
          result = judgeWrite (output.getD (Export.fileName article.id lang kind)) answer := by
  constructor
  · intro told
    -- every step but the first is only begun with the value of the one before
    obtain ⟨here, loaded, _, rfl, configured, rest⟩ | ⟨report, stopped, rfl⟩ :=
      Action.dialogue_bind_exceptT_iff.mp told
    · obtain ⟨there, article, _, rfl, read, last⟩ | ⟨report, stopped, rfl⟩ :=
        Action.dialogue_bind_exceptT_iff.mp rest
      · obtain ⟨later, artifact, _, rfl, made, written⟩ | ⟨report, stopped, rfl⟩ :=
          Action.dialogue_bind_exceptT_iff.mp last
        · obtain ⟨answer, rfl, rfl⟩ := dialogue_write_iff.mp written
          have made := dialogue_ofTask_ok_iff.mp made
          rw [Export.fileName_of_make made]
          exact Or.inr ⟨_, loaded, article, artifact, answer, .made configured read made, by simp,
            rfl⟩
        · obtain ⟨fault, failed, rfl⟩ := dialogue_ofTask_error_iff.mp stopped
          rw [← List.append_assoc]
          exact Or.inl ⟨some loaded, _, .artifact configured read failed, rfl⟩
      · exact Or.inl ⟨none, report, .article configured stopped, rfl⟩
    · exact Or.inl ⟨none, report, .configuration stopped, rfl⟩
  · rintro (⟨loaded, report, stops, rfl⟩ | ⟨_, _, _, _, answer, makes, rfl, rfl⟩)
    · cases stops with
      | configuration told => exact told.stopped
      | article configured told => exact configured.followed told.stopped
      | artifact configured read told =>
        rw [List.append_assoc]
        exact configured.followed (read.followed
          (Dialogue.stopped (dialogue_ofTask_error_iff.mpr ⟨_, told, rfl⟩)))
    · obtain ⟨configured, read, told⟩ := makes
      rw [List.append_assoc, List.append_assoc, ← Export.fileName_of_make told]
      exact configured.followed (read.followed ((dialogue_ofTask_ok_iff.mpr told).followed
        (dialogue_write_iff.mpr ⟨answer, rfl, rfl⟩)))

/-- What a run leaves behind when its export has ended. -/
def outcomeOf : Except Report String → Outcome
  | .ok destination => ⟨0, destination ++ "\n", ""⟩
  | .error report => ⟨1, "", report.text⟩

theorem dialogue_run_export_iff {words : List String} {verbose : Bool} {outcome : Outcome}
    (asked : Arguments.ofWords words = .ok ⟨config, verbose, .export path kind lang output⟩) :
    Dialogue (run words) log outcome ↔
      ∃ result, Dialogue (exportArticle config path kind lang output).run log result ∧
        outcome = outcomeOf result := by
  have performs : run words = (exportArticle config path kind lang output).run >>= fun result =>
      pure (outcomeOf result) := by
    rw [run, asked]
    dsimp only [Command.perform]
    rw [ExceptT.run_bind, bind_assoc]
    refine bind_congr fun result => ?_
    cases result <;> rfl
  rw [performs]
  exact Action.dialogue_bind_pure_iff

/-! ### What exports leave behind -/

section

variable {current : Location} {before after : FileTree} {loaded : Option Config} {report : Report}

theorem eq_of_loadConfig {result : Except Report Config}
    (told : Dialogue (loadConfig config).run log result) (runs : Runs current before log after) :
    after = before :=
  Host.eq_of_looks ((looks_loadConfig config).of_dialogue told) runs

theorem eq_of_loadArticle {result : Except Report Article}
    (told : Dialogue (loadArticle path).run log result) (runs : Runs current before log after) :
    after = before :=
  Host.eq_of_looks ((looks_loadArticle path).of_dialogue told) runs

/-- Only the making of the artifact can change anything, since all before it is reading. -/
theorem kept_of_artifact {here there later : List Exchange} {loaded : Config} {article : Article}
    {result : Except Report Config} {result' : Except Report Article}
    {result'' : Except Export.Fault Export.Artifact}
    (configured : Dialogue (loadConfig config).run here result)
    (read : Dialogue (loadArticle path).run there result')
    (told : Dialogue (Export.make loaded article lang kind) later result'')
    (runs : Runs current before (here ++ there ++ later) after) :
    Export.Kept loaded current before after := by
  obtain ⟨between, first, last⟩ := Host.runs_append_iff.mp runs
  obtain ⟨start, first, second⟩ := Host.runs_append_iff.mp first
  obtain rfl := eq_of_loadConfig configured first
  obtain rfl := eq_of_loadArticle read second
  exact Export.kept_of_make told last

theorem Stops.untouched (stops : Stops config path kind lang log loaded report)
    (runs : Runs current before log after) :
    (loaded = none → after = before) ∧
      ∀ configured ∈ loaded, Export.Kept configured current before after := by
  cases stops with
  | configuration told => exact ⟨fun _ => eq_of_loadConfig told runs, nofun⟩
  | article configured told =>
    obtain ⟨between, first, second⟩ := Host.runs_append_iff.mp runs
    obtain rfl := eq_of_loadConfig configured first
    exact ⟨fun _ => eq_of_loadArticle told second, nofun⟩
  | artifact configured read told =>
    refine ⟨nofun, ?_⟩
    rintro _ ⟨⟩
    exact kept_of_artifact configured read told runs

theorem Makes.kept {loaded : Config} {article : Article} {artifact : Export.Artifact}
    (makes : Makes config path kind lang log loaded article artifact)
    (runs : Runs current before log after) : Export.Kept loaded current before after := by
  obtain ⟨configured, read, told⟩ := makes
  exact kept_of_artifact configured read told runs

/-- **Exports write last.** When the configuration or the article cannot be had or a step of the
export fails, nothing is printed and every file is as before. When the artifact is made and written,
the file at its destination holds it, and that file alone has changed. Directories on the way to the
configured one for workspaces may be new in both cases, and there is no other way to end than these
and a failure of the write. -/
theorem destination_written_or_untouched {words : List String} {verbose : Bool} {outcome : Outcome}
    (asked : Arguments.ofWords words = .ok ⟨config, verbose, .export path kind lang output⟩)
    (told : Dialogue (run words) log outcome) (runs : Runs current before log after) :
    (∀ loaded report, Stops config path kind lang log loaded report →
      outcome = ⟨1, "", report.text⟩ ∧ (loaded = none → after = before) ∧
      ∀ configured ∈ loaded, Export.Kept configured current before after) ∧
    (∀ made loaded article artifact, Makes config path kind lang made loaded article artifact →
      let destination := output.getD (Export.fileName article.id lang kind)
      log = made ++ [⟨.write destination artifact.bytes, .ok ()⟩] →
      outcome = ⟨0, destination ++ "\n", ""⟩ ∧
      ∃ location, after.find current destination = .ok (location, .file artifact.bytes) ∧
        (output = none → location = current ++ [destination]) ∧
        ∀ other, other ≠ location → after.labelAt other = before.labelAt other ∨
          other ∈ Export.rootLocations loaded current ∧ before.labelAt other = none ∧
            after.labelAt other = some .directory) ∧
    ((∃ loaded report, Stops config path kind lang log loaded report) ∨
      ∃ made loaded article artifact answer,
        Makes config path kind lang made loaded article artifact ∧
        log = made ++ [⟨.write (output.getD (Export.fileName article.id lang kind))
          artifact.bytes, answer⟩]) := by
  -- the answers decide how the export ends, so it is enough to say how it can end with them
  have ends {result : Except Report String}
      (exported : Dialogue (exportArticle config path kind lang output).run log result) :
      outcome = outcomeOf result :=
    told.unique ((dialogue_run_export_iff asked).mpr ⟨result, exported, rfl⟩)
  refine ⟨fun loaded report stops => ⟨?_, stops.untouched runs⟩, ?_, ?_⟩
  · exact ends (dialogue_exportArticle_iff.mpr (Or.inl ⟨loaded, report, stops, rfl⟩))
  · rintro made loaded article artifact makes destination rfl
    have exported : Dialogue (exportArticle config path kind lang output).run _
        (.ok destination) := dialogue_exportArticle_iff.mpr
      (Or.inr ⟨made, loaded, article, artifact, .ok (), makes, rfl, rfl⟩)
    refine ⟨ends exported, ?_⟩
    -- up to the write only the artifact is made, and the write changes the file it is asked for
    obtain ⟨between, first, last⟩ := Host.runs_append_iff.mp runs
    obtain ⟨_, responds, rest⟩ := Host.runs_cons_iff.mp last
    obtain rfl := Host.runs_nil_iff.mp rest
    cases responds with
    | written written =>
      obtain ⟨location, located, found, same⟩ := FileTree.exists_find_of_write written
      refine ⟨location, found, ?_, fun other different => ?_⟩
      · rintro rfl
        exact Export.eq_append_of_locate_fileName located
      · rw [same other different]
        exact makes.kept first other
  · obtain ⟨result, exported, -⟩ := (dialogue_run_export_iff asked).mp told
    obtain ⟨loaded, report, stops, -⟩ | ⟨made, loaded, article, artifact, answer, makes, rfl, -⟩ :=
      dialogue_exportArticle_iff.mp exported
    · exact Or.inl ⟨loaded, report, stops⟩
    · exact Or.inr ⟨made, loaded, article, artifact, answer, makes, rfl⟩

end

end

/-! ### On a desk -/

/-- An article with nothing in it. -/
def note : Article := ⟨"a", none, [], none, none, none, []⟩

def noteText : String := "\x7b\"id\":\"a\"\x7d"

/-- The article's file, and what an earlier export has made of it. -/
def desk : FileTree :=
  .directory [("a.json", .file noteText.toUTF8), ("article_a_en.pdf", .file "earlier".toUTF8),
    ("tmp", .directory [])]

/-- The findings of an export there that gets to its first program. -/
def deskFindings : Export.Findings := ⟨"/tmp", Path.join "/tmp" "w", "", none, .empty, .empty⟩

private theorem dialogue_loadConfig_absent (path : String) :
    Dialogue (loadConfig path).run [⟨.isPresent path, false⟩] (.ok .default) :=
  dialogue_ofTask_ok_iff.mpr (.ask (.done _))

private theorem dialogue_loadArticle_note (path : String) :
    Dialogue (loadArticle path).run [⟨.read path, .ok noteText.toUTF8⟩] (.ok note) := by
  have isText : String.fromUTF8? noteText.toUTF8 = some noteText := by decide +kernel
  have spells : Article.ofFileText noteText = .ok note := by with_unfolding_all rfl
  have read : Dialogue (Action.readText path) [⟨.read path, .ok noteText.toUTF8⟩] (.ok noteText) :=
    Export.dialogue_readText_iff.mpr (Or.inr ⟨noteText.toUTF8, rfl, by rw [isText]; rfl⟩)
  refine dialogue_ofTask_ok_iff.mpr (Action.dialogue_bind_iff.mpr ⟨_, _, [], rfl, read, ?_⟩)
  rw [← spells]
  exact .done _

/-- The desk with a workspace. -/
private def deskWith (entries : List (String × FileTree)) : FileTree :=
  desk.set ["tmp", "w"] (some (.directory entries))

/-- The converter is run, leaves something else in its workspace, and fails. -/
private theorem exists_stops_desk :
    ∃ log report after, Stops "folio.yml" "a.json" (.pdf .tex) "en" log (some .default) report ∧
      Runs [] desk log after := by
  have prepared : Export.Follows (Export.preparation .default deskFindings) _ none :=
    .pass (.temporary _) (.pass (.scratch _ _) .finished)
  have failed : Export.Follows (Export.sequence .default note "en" deskFindings (.pdf .tex)) _ _ :=
    .pass (.write _ _) (.pass .standalone
      (.stop (.failed .empty .empty (nofun : some 1 ≠ some 0))))
  have exported := Export.Exports.closed prepared failed (.ok ())
  refine ⟨_, _, desk, .artifact (dialogue_loadConfig_absent _) (dialogue_loadArticle_note _)
    ((Export.dialogue_make_iff _ _ _ _ rfl).mpr exported), ?_⟩
  have found : desk.find [] "/tmp" = .ok (["tmp"], .directory []) := rfl
  have isName : FileTree.IsName "w" := by decide
  have written (bytes : ByteArray) : (deskWith []).write []
      (Path.join (Path.join "/tmp" "w") Export.markdownFile) bytes =
        .ok (deskWith [("article.md", .file bytes)]) := rfl
  have there (bytes : ByteArray) : (deskWith [("article.md", .file bytes)]).find []
      (Path.join "/tmp" "w") = .ok (["tmp", "w"], .directory [("article.md", .file bytes)]) := rfl
  have removed : (deskWith [("junk", .file .empty)]).removeAll [] (Path.join "/tmp" "w") =
      .ok desk := rfl
  refine .cons (.isPresent _ _ _) (.cons (.read _ _ _) (.cons (.temporaryDirectory _ _) ?_))
  refine .cons (.scratch found isName rfl) (.cons (.written (written _)) ?_)
  refine .cons (.ran (there _) (some (.directory [("junk", .file .empty)])) _) ?_
  exact .cons (.removed removed) (.nil desk)

private theorem exists_makes_desk :
    ∃ made artifact, Makes "folio.yml" "a.json" .text "en" made .default note artifact ∧
      Runs [] desk made desk := by
  have told : Dialogue (Export.make .default note "en" .text) [] (.ok _) := .done _
  refine ⟨_, _, .made (dialogue_loadConfig_absent _) (dialogue_loadArticle_note _) told, ?_⟩
  exact .cons (.isPresent _ _ _) (.cons (.read _ _ _) (.nil desk))

/-- A converter that fails loses nothing of what an earlier export has made, and an export that
needs no programs puts its file beside it. -/
theorem destination_written_or_untouched_desk :
    (∃ log outcome after, Dialogue (run ["export", "a.json", "--format", "pdf"]) log outcome ∧
      Runs [] desk log after ∧ outcome.status = 1 ∧ outcome.stdout = "" ∧
      after.labelAt ["article_a_en.pdf"] = some (.file "earlier".toUTF8)) ∧
    ∃ log outcome after, Dialogue (run ["export", "a.json", "--format", "text"]) log outcome ∧
      Runs [] desk log after ∧ outcome = ⟨0, "article_a_en.txt\n", ""⟩ ∧
      ∃ bytes, after.find [] "article_a_en.txt" = .ok (["article_a_en.txt"], .file bytes) := by
  constructor
  · have asked : Arguments.ofWords ["export", "a.json", "--format", "pdf"] =
        .ok ⟨"folio.yml", false, .export "a.json" (.pdf .tex) "en" none⟩ := rfl
    obtain ⟨log, report, after, stops, runs⟩ := exists_stops_desk
    have told := (dialogue_run_export_iff asked).mpr
      ⟨_, dialogue_exportArticle_iff.mpr (Or.inl ⟨_, report, stops, rfl⟩), rfl⟩
    obtain ⟨same, -, kept⟩ := (destination_written_or_untouched asked told runs).1 _ report stops
    refine ⟨log, _, after, told, runs, by rw [same], by rw [same], ?_⟩
    obtain unchanged | ⟨never, -⟩ := kept .default rfl ["article_a_en.pdf"]
    · rw [unchanged]
      rfl
    · cases never
  · have asked : Arguments.ofWords ["export", "a.json", "--format", "text"] =
        .ok ⟨"folio.yml", false, .export "a.json" .text "en" none⟩ := rfl
    have name : Export.fileName note.id "en" .text = "article_a_en.txt" := by decide
    obtain ⟨made, artifact, makes, runs⟩ := exists_makes_desk
    have told := (dialogue_run_export_iff asked).mpr ⟨_, dialogue_exportArticle_iff.mpr
      (Or.inr ⟨made, _, note, artifact, .ok (), makes, rfl, rfl⟩), rfl⟩
    have written : desk.write [] (Export.fileName note.id "en" .text) artifact.bytes =
        .ok (desk.set ["article_a_en.txt"] (some (.file artifact.bytes))) := by
      rw [name]
      rfl
    have runs := Host.runs_append_iff.mpr ⟨desk, runs, .cons (.written written) (.nil _)⟩
    obtain ⟨same, location, found, here, -⟩ :=
      (destination_written_or_untouched asked told runs).2.1 made _ note artifact makes rfl
    rw [here rfl] at found
    simp only [Option.getD_none, name] at same found
    exact ⟨_, _, _, told, runs, same, _, found⟩

end Galley.CommandLine
