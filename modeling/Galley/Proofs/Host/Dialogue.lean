import Galley.Host.Action
/-!
# Dialogues

A dialogue of an action with a host is the list of the questions that it asks, each with the answer
it got. What an action does on all hosts is what its dialogues say: every host leads to exactly one
of them (`dialogue_transcript`), and a dialogue decides the value of the action
(`Dialogue.unique`).
-/
namespace Galley.Host

/-- A question to the host and the answer to it. -/
structure Exchange where
  request : Request
  answer : request.Answer

namespace Action

variable {α β σ : Type}

instance : LawfulMonad Action :=
  LawfulMonad.mk' Action bind_pure (fun _ _ => rfl) bind_assoc

/-- An action that gets these answers asks these questions, and ends with this value. -/
inductive Dialogue : Action α → List Exchange → α → Prop
  | done (value : α) : Dialogue (.done value) [] value
  | ask {request : Request} {next : request.Answer → Action α} {answer : request.Answer}
    {log : List Exchange} {value : α} (rest : Dialogue (next answer) log value) :
    Dialogue (.ask request next) (⟨request, answer⟩ :: log) value

theorem dialogue_done_iff {value result : α} {log : List Exchange} :
    Dialogue (.done value) log result ↔ log = [] ∧ result = value := by
  constructor
  · intro told
    cases told
    exact ⟨rfl, rfl⟩
  · rintro ⟨rfl, rfl⟩
    exact .done result

theorem dialogue_pure_iff {value result : α} {log : List Exchange} :
    Dialogue (pure value) log result ↔ log = [] ∧ result = value :=
  dialogue_done_iff

theorem dialogue_ask_iff {request : Request} {next : request.Answer → Action α}
    {log : List Exchange} {value : α} :
    Dialogue (.ask request next) log value ↔
      ∃ answer rest, log = ⟨request, answer⟩ :: rest ∧ Dialogue (next answer) rest value := by
  constructor
  · intro told
    cases told with
    | ask rest => exact ⟨_, _, rfl, rest⟩
  · rintro ⟨answer, rest, rfl, told⟩
    exact .ask told

theorem dialogue_request_iff {r : Request} {answer : r.Answer} {log : List Exchange} :
    Dialogue (request r) log answer ↔ log = [⟨r, answer⟩] := by
  rw [request, dialogue_ask_iff]
  constructor
  · rintro ⟨other, rest, rfl, told⟩
    obtain ⟨rfl, rfl⟩ := dialogue_done_iff.mp told
    rfl
  · rintro rfl
    exact ⟨answer, [], rfl, .done answer⟩

/-- A dialogue of two actions in sequence is a dialogue of the first one and then one of the
second, which knows the value of the first. -/
theorem dialogue_bind_iff {action : Action α} {next : α → Action β} {log : List Exchange}
    {result : β} :
    Dialogue (action >>= next) log result ↔
      ∃ here value later, log = here ++ later ∧ Dialogue action here value ∧
        Dialogue (next value) later result := by
  constructor
  · intro told
    induction action generalizing log with
    | done value => exact ⟨[], value, log, rfl, .done value, told⟩
    | ask request go ih =>
      obtain ⟨answer, rest, rfl, after⟩ := dialogue_ask_iff.mp told
      obtain ⟨here, value, later, rfl, first, second⟩ := ih answer after
      exact ⟨⟨request, answer⟩ :: here, value, later, rfl, .ask first, second⟩
  · rintro ⟨here, value, later, rfl, first, second⟩
    induction first with
    | done value => exact second
    | ask _ ih => exact .ask (ih second)

/-- A pure step after an action asks nothing. -/
theorem dialogue_bind_pure_iff {action : Action α} {f : α → β} {log : List Exchange} {result : β} :
    Dialogue (action >>= fun value => pure (f value)) log result ↔
      ∃ value, Dialogue action log value ∧ result = f value := by
  rw [dialogue_bind_iff]
  simp only [dialogue_pure_iff]
  constructor
  · rintro ⟨here, value, later, rfl, told, rfl, rfl⟩
    exact ⟨value, by rwa [List.append_nil], rfl⟩
  · rintro ⟨value, told, rfl⟩
    exact ⟨log, value, [], (List.append_nil log).symm, told, rfl, rfl⟩

theorem Dialogue.unique {action : Action α} {log : List Exchange} {first second : α}
    (one : Dialogue action log first) (other : Dialogue action log second) : first = second := by
  induction one with
  | done value => exact (dialogue_done_iff.mp other).2.symm
  | ask _ ih =>
    obtain ⟨_, _, same, told⟩ := dialogue_ask_iff.mp other
    cases same
    exact ih told

section

variable {ε : Type} {first : ExceptT ε Action α} {next : α → ExceptT ε Action β}

theorem Dialogue.followed {here later : List Exchange} {value : α} {result : Except ε β}
    (told : Dialogue first.run here (.ok value)) (rest : Dialogue (next value).run later result) :
    Dialogue (first >>= next).run (here ++ later) result := by
  rw [ExceptT.run_bind]
  exact dialogue_bind_iff.mpr ⟨here, .ok value, later, rfl, told, rest⟩

theorem Dialogue.stopped {log : List Exchange} {reason : ε}
    (told : Dialogue first.run log (.error reason)) :
    Dialogue (first >>= next).run log (.error reason) := by
  rw [ExceptT.run_bind]
  exact dialogue_bind_iff.mpr
    ⟨log, .error reason, [], (List.append_nil log).symm, told, .done _⟩

/-- With an early end the second action is only begun if the first one gives a value. -/
theorem dialogue_bind_exceptT_iff {log : List Exchange} {result : Except ε β} :
    Dialogue (first >>= next).run log result ↔
      (∃ here value later, log = here ++ later ∧ Dialogue first.run here (.ok value) ∧
        Dialogue (next value).run later result) ∨
        ∃ reason, Dialogue first.run log (.error reason) ∧ result = .error reason := by
  constructor
  · intro told
    rw [ExceptT.run_bind] at told
    obtain ⟨here, reached, later, rfl, told, rest⟩ := dialogue_bind_iff.mp told
    cases reached with
    | ok value => exact Or.inl ⟨here, value, later, rfl, told, rest⟩
    | error reason =>
      -- nothing is asked after a failure
      obtain ⟨rfl, rfl⟩ := dialogue_pure_iff.mp rest
      exact Or.inr ⟨reason, by rwa [List.append_nil], rfl⟩
  · rintro (⟨here, value, later, rfl, told, rest⟩ | ⟨reason, told, rfl⟩)
    · exact told.followed rest
    · exact told.stopped

end

/-- Whatever the answers are, an action only asks questions with some property. -/
inductive Asks (p : Request → Prop) : Action α → Prop
  | done (value : α) : Asks p (.done value)
  | ask {request : Request} {next : request.Answer → Action α} (here : p request)
    (later : ∀ answer, Asks p (next answer)) : Asks p (.ask request next)

section

variable {p : Request → Prop}

theorem asks_request {r : Request} (here : p r) : Asks p (request r) := .ask here .done

theorem Asks.bind {action : Action α} {next : α → Action β} (first : Asks p action)
    (second : ∀ value, Asks p (next value)) : Asks p (action >>= next) := by
  induction first with
  | done value => exact second value
  | ask here _ ih => exact .ask here ih

theorem Asks.of_dialogue {action : Action α} {log : List Exchange} {value : α}
    (asks : Asks p action) (told : Dialogue action log value) :
    ∀ exchange ∈ log, p exchange.request := by
  induction told with
  | done => exact List.forall_mem_nil _
  | ask _ ih =>
    cases asks with
    | ask here later => exact List.forall_mem_cons.mpr ⟨here, ih (later _)⟩

end

/-! ### Hosts -/

/-- The dialogue of an action with a host that starts in some state. -/
def transcript (host : Handler (StateM σ)) : Action α → σ → List Exchange
  | .done _, _ => []
  | .ask request next, state =>
    let (answer, after) := host request state
    ⟨request, answer⟩ :: transcript host (next answer) after

theorem run_ask (host : Handler (StateM σ)) {request : Request}
    (next : request.Answer → Action α) (state : σ) :
    (Action.ask request next).run host state =
      (next (host request state).1).run host (host request state).2 :=
  rfl

theorem dialogue_transcript (host : Handler (StateM σ)) (action : Action α) (start : σ) :
    Dialogue action (transcript host action start) (action.run host start).1 := by
  induction action generalizing start with
  | done value => exact .done value
  | ask request next ih => exact .ask (ih (host request start).1 (host request start).2)

/-- The state of a host after it was asked some questions. -/
def stateAfter (host : Handler (StateM σ)) (start : σ) (log : List Exchange) : σ :=
  log.foldl (fun state exchange => (host exchange.request state).2) start

/-- Every answer in a transcript is the host's, in the state that the questions before left. -/
theorem answer_of_transcript_eq {host : Handler (StateM σ)} {action : Action α} {start : σ}
    {earlier later : List Exchange} {exchange : Exchange}
    (told : transcript host action start = earlier ++ exchange :: later) :
    (host exchange.request (stateAfter host start earlier)).1 = exchange.answer := by
  induction earlier generalizing action start with
  | nil =>
    cases action with
    | done value => cases told
    | ask request next =>
      obtain ⟨rfl, -⟩ := List.cons.inj told
      rfl
  | cons first earlier ih =>
    cases action with
    | done value => cases told
    | ask request next =>
      obtain ⟨rfl, rest⟩ := List.cons.inj told
      exact ih rest

end Action
end Galley.Host
