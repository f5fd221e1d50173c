import Galley.Proofs.Lock.Purge
/-!
# Documents lock independently

What is done to one document never shows on another. All operations but purges are on one document,
and a purge treats every document by its own lock alone, if it comes to it: a lock without an expiry
makes it break off, which other documents feel.

## Main result

`documents_independent`: with all operations on other documents left out, a session tells the same
about a document and ends with the same lock on it, unless some purge breaks off before it comes to
the document; and every lock names the document it is filed under.

The relation behind it ties the whole session to the one with operations left out: both have one
clock, and the same lock filed under the document. The stores may differ everywhere else, where the
second one has no locks.
-/
namespace Galley.Lock

open Galley.Time (Timestamp Span)

/-- The document that an operation is on. The clock and the purges are on none. -/
def Operation.document? : Operation → Option String
  | .acquire document _ | .release document _ | .holder document
  | .storeAcquire document _ _ _ | .storeRelease document _ | .storeGet document => some document
  | .advance _ | .setClock _ | .askTtl | .purge _ _ _ => none

namespace Store

theorem release_fst_congr {first second : Store} {document : String}
    (same : first.get? document = second.get? document) (holder : String) :
    (first.release document holder).1 = (second.release document holder).1 := by
  unfold release
  rw [same]
  split
  · split <;> rfl
  · rfl

theorem get?_of_mem {store : Store} {entry : String × EditLock} (member : entry ∈ store.filed) :
    store.get? entry.1 = some entry.2 := by
  obtain ⟨before, after, split⟩ := List.append_of_mem member
  refine List.lookup_eq_some_iff.mpr ⟨before, after, split, fun other earlier => ?_⟩
  -- the document would stand twice
  have distinct := store.distinct
  rw [split, List.map_append, List.nodup_append] at distinct
  have ne := distinct.2.2 other.1 (List.mem_map_of_mem earlier) entry.1 (by simp)
  simpa using Ne.symm ne

/-! ### Names of locks -/

/-- Every lock is filed under the document that it names. -/
def Named (store : Store) : Prop :=
  ∀ document lock, store.get? document = some lock → lock.document = document

theorem named_empty : Named .empty := fun _ _ found => nomatch found

theorem Named.release {store : Store} (named : store.Named) (document holder : String) :
    (store.release document holder).2.Named := by
  intro other lock found
  by_cases same : other = document
  · subst same
    rw [get?_release_self] at found
    exact named other lock (Option.filter_eq_some_iff.mp found).1
  · rw [get?_release_of_ne same] at found
    exact named other lock found

theorem Named.sweep {store : Store} (named : store.Named) (reached : String → Bool)
    (now : Timestamp) (ttl : Span) : (store.sweep reached now ttl).Named := by
  intro document lock found
  rw [get?_sweep] at found
  exact named document lock (Option.filter_eq_some_iff.mp found).1

end Store

namespace Session

theorem named_attempt {session : Session} (named : session.store.Named) (document holder : String)
    (now : Timestamp) (ttl : Span) : (session.attempt document holder now ttl).2.store.Named := by
  intro other lock found
  by_cases same : other = document
  · subst same
    rw [get?_attempt_self] at found
    split at found
    next => cases found; rfl
    next => exact named other lock found
  · rw [get?_attempt_of_ne same] at found
    exact named other lock found

theorem named_step {session : Session} (named : session.store.Named) (operation : Operation) :
    (session.step operation).2.store.Named := by
  cases operation with
  | acquire document holder => exact named_attempt named document holder _ _
  | storeAcquire document holder now ttl => exact named_attempt named document holder now ttl
  | release document holder | storeRelease document holder => exact named.release document holder
  | purge now ttl reached =>
    obtain ⟨swept, purge⟩ := session.exists_sweep_of_purge now ttl reached
    rw [purge]
    exact named.sweep swept now ttl
  | advance => simp only [step]; split <;> exact named
  | holder | setClock | askTtl | storeGet => exact named

theorem named_run {session : Session} (named : session.store.Named)
    (operations : List Operation) : (session.run operations).2.store.Named := by
  induction operations generalizing session with
  | nil => exact named
  | cons operation rest ih => exact ih (named_step named operation)

/-! ### One operation and one document -/

/-- An operation on one document leaves the lock on another. -/
theorem get?_step_of_ne {session : Session} {operation : Operation} {document other : String}
    (on : operation.document? = some other) (ne : document ≠ other) :
    (session.step operation).2.store.get? document = session.store.get? document := by
  cases operation with
  | acquire | storeAcquire =>
    cases on
    exact get?_attempt_of_ne ne
  | release | storeRelease =>
    cases on
    exact Store.get?_release_of_ne ne
  | holder | storeGet => rfl
  | advance | setClock | askTtl | purge => cases on

/-- The documents that a purge came to before it broke off. -/
def Event.brokenAt? (event : Event) : Option (List String) :=
  match event.operation, event.response with
  | .purge _ _ reached, .overflow => some reached
  | _, _ => none

/-- The event is no purge that broke off before it came to the document. -/
def Event.Attends (event : Event) (document : String) : Prop :=
  ∀ reached ∈ event.brokenAt?, document ∈ reached

instance (event : Event) (document : String) : Decidable (event.Attends document) :=
  inferInstanceAs (Decidable (∀ _ ∈ _, _))

/-- A purge that comes to a document drops its lock if that is stale. -/
theorem get?_purge_of_attends {session : Session} {document : String} {now : Timestamp}
    {ttl : Span} {reached : List String}
    (attends : (session.event (.purge now ttl reached)).Attends document) :
    (session.step (.purge now ttl reached)).2.store.get? document =
      (session.store.get? document).filter fun lock => ¬ lock.IsStale now ttl := by
  by_cases expire : ∀ entry ∈ session.store.filed, entry.2.Expires ttl
  · simp [step, Store.purge?_of_expires expire, Store.get?_sweep]
  · have broken : session.store.purge? now ttl = none := Store.purge?_of_not_expires expire
    have come : document ∈ reached :=
      attends reached (by simp [event, step, broken, Event.brokenAt?])
    simp [step, broken, Store.get?_sweep, come]

/-- A purge of a store with no lock but one on the document drops it if it is stale. -/
theorem get?_purge_of_alone {session : Session} {document : String}
    (alone : ∀ other ≠ document, session.store.get? other = none) (now : Timestamp) (ttl : Span)
    (reached : List String) :
    (session.step (.purge now ttl reached)).2.store.get? document =
      (session.store.get? document).filter fun lock => ¬ lock.IsStale now ttl := by
  by_cases expire : ∀ entry ∈ session.store.filed, entry.2.Expires ttl
  · simp [step, Store.purge?_of_expires expire, Store.get?_sweep]
  · have broken : session.store.purge? now ttl = none := Store.purge?_of_not_expires expire
    -- it breaks off at the lock on the document, which is not stale and stays
    simp only [Classical.not_forall] at expire
    obtain ⟨entry, member, lasting⟩ := expire
    have filed := Store.get?_of_mem member
    have same : entry.1 = document := Decidable.byContradiction fun ne => by
      rw [alone entry.1 ne] at filed
      cases filed
    have fresh : ¬ entry.2.IsStale now ttl := by
      rintro ⟨expiry, expires, -⟩
      exact lasting (by simp [EditLock.Expires, expires])
    rw [same] at filed
    simp [step, broken, Store.get?_sweep, filed, Option.filter, fresh]

/-! ### Two sessions that agree on a document -/

/-- Two sessions with one clock and the same lock filed under a document, which is the only lock of
the second one. -/
structure AgreeOn (document : String) (first second : Session) : Prop where
  now : first.now = second.now
  ttl : first.ttl = second.ttl
  filed : first.store.get? document = second.store.get? document
  alone : ∀ other ≠ document, second.store.get? other = none

variable {document : String} {first second : Session}

theorem AgreeOn.attempt (agree : AgreeOn document first second) (holder : String)
    (now : Timestamp) (ttl : Span) :
    (first.attempt document holder now ttl).1 = (second.attempt document holder now ttl).1 ∧
      (first.attempt document holder now ttl).2.store.get? document =
        (second.attempt document holder now ttl).2.store.get? document := by
  have free : first.store.openTo? document holder now ttl =
      second.store.openTo? document holder now ttl :=
    Store.openTo?_congr agree.filed
  exact ⟨by rw [attempt_fst, attempt_fst, free],
    by rw [get?_attempt_self, get?_attempt_self, free, agree.filed]⟩

/-- An operation on the document gets the same response in both sessions. -/
theorem AgreeOn.event (agree : AgreeOn document first second) {operation : Operation}
    (on : operation.document? = some document) :
    first.event operation = second.event operation := by
  suffices same : (first.step operation).1 = (second.step operation).1 by
    rw [Session.event, Session.event, agree.now, same]
  cases operation with
  | acquire other holder =>
    cases on
    simp only [step, ← agree.now, ← agree.ttl]
    exact (agree.attempt holder first.now first.ttl).1
  | storeAcquire other holder time life =>
    cases on
    exact (agree.attempt holder time life).1
  | storeRelease other holder =>
    cases on
    exact congrArg Response.flag (Store.release_fst_congr agree.filed holder)
  | holder other =>
    cases on
    simp only [step, liveLock?, agree.filed, agree.now, agree.ttl]
  | storeGet other =>
    cases on
    exact congrArg Response.lock agree.filed
  | release => rfl
  | advance | setClock | askTtl | purge => cases on

/-- An operation on the document keeps two sessions in agreement. -/
theorem AgreeOn.step_of_on (agree : AgreeOn document first second) {operation : Operation}
    (on : operation.document? = some document) :
    AgreeOn document (first.step operation).2 (second.step operation).2 where
  now := by rw [now_step, now_step, agree.now]
  ttl := by rw [ttl_step, ttl_step, agree.ttl]
  alone other ne := (get?_step_of_ne on ne).trans (agree.alone other ne)
  filed := by
    cases operation with
    | acquire other holder =>
      cases on
      simp only [step, ← agree.now, ← agree.ttl]
      exact (agree.attempt holder first.now first.ttl).2
    | storeAcquire other holder time life =>
      cases on
      exact (agree.attempt holder time life).2
    | release other holder | storeRelease other holder =>
      cases on
      simp only [step, Store.get?_release_self, agree.filed]
    | holder | storeGet => exact agree.filed
    | advance | setClock | askTtl | purge => cases on

/-- So does an operation on the clock, or on the whole store if it comes to the document. -/
theorem AgreeOn.step_of_none (agree : AgreeOn document first second) {operation : Operation}
    (onNone : operation.document? = none) (attends : (first.event operation).Attends document) :
    AgreeOn document (first.step operation).2 (second.step operation).2 := by
  suffices stores :
      (first.step operation).2.store.get? document =
        (second.step operation).2.store.get? document ∧
      ∀ other ≠ document, (second.step operation).2.store.get? other = none by
    exact ⟨by rw [now_step, now_step, agree.now], by rw [ttl_step, ttl_step, agree.ttl], stores.1,
      stores.2⟩
  cases operation with
  | purge time life reached =>
    -- the sweep looks at every lock by itself, so what it leaves here depends on nothing else
    rw [get?_purge_of_attends attends, get?_purge_of_alone agree.alone, agree.filed]
    refine ⟨rfl, fun other ne => ?_⟩
    obtain ⟨swept, purge⟩ := second.exists_sweep_of_purge time life reached
    rw [purge, Store.get?_sweep, agree.alone other ne]
    rfl
  | advance span =>
    simp only [step, agree.now]
    split <;> exact ⟨agree.filed, agree.alone⟩
  | setClock | askTtl => exact ⟨agree.filed, agree.alone⟩
  | acquire | release | holder | storeAcquire | storeRelease | storeGet => cases onNone

/-- An operation on another document may be left out. -/
theorem AgreeOn.skip (agree : AgreeOn document first second) {operation : Operation}
    {other : String} (on : operation.document? = some other) (ne : document ≠ other) :
    AgreeOn document (first.step operation).2 second where
  now := by
    have still : reading first.now operation = first.now := by
      cases operation with
      | advance | setClock => cases on
      | _ => rfl
    rw [now_step, still, agree.now]
  ttl := by rw [ttl_step, agree.ttl]
  filed := (get?_step_of_ne on ne).trans agree.filed
  alone := agree.alone

/-! ### Runs -/

/-- Operations without those on other documents. -/
def onlyOn (document : String) (operations : List Operation) : List Operation :=
  operations.filter fun operation => operation.document?.all (· = document)

/-- What a history tells of a document. -/
def told (document : String) (events : List Event) : List Event :=
  events.filter fun event => event.operation.document? = some document

private theorem told_history_of_on {operation : Operation}
    (on : operation.document? = some document) (session : Session) (rest : List Operation) :
    told document (session.history (operation :: rest)) =
      session.event operation :: told document ((session.step operation).2.history rest) :=
  List.filter_cons_of_pos (decide_eq_true on)

private theorem told_history_of_off {operation : Operation}
    (off : operation.document? ≠ some document) (session : Session) (rest : List Operation) :
    told document (session.history (operation :: rest)) =
      told document ((session.step operation).2.history rest) :=
  List.filter_cons_of_neg fun shown => off (of_decide_eq_true shown)

theorem AgreeOn.run (agree : AgreeOn document first second) {operations : List Operation}
    (attends : ∀ event ∈ first.history operations, event.Attends document) :
    told document (first.history operations) =
        told document (second.history (onlyOn document operations)) ∧
      AgreeOn document (first.run operations).2 (second.run (onlyOn document operations)).2 := by
  induction operations generalizing first second with
  | nil => exact ⟨rfl, agree⟩
  | cons operation rest ih =>
    rw [history, List.forall_mem_cons] at attends
    cases on : operation.document? with
    | none =>
      -- both sessions take the step, and nothing of it is told
      have taken : onlyOn document (operation :: rest) = operation :: onlyOn document rest :=
        List.filter_cons_of_pos (by simp [on])
      obtain ⟨same, last⟩ := ih (agree.step_of_none on attends.1) attends.2
      rw [taken, told_history_of_off (by simp [on]), told_history_of_off (by simp [on])]
      exact ⟨same, last⟩
    | some other =>
      by_cases own : document = other
      · -- both sessions take the step, and tell the same of it
        subst own
        have taken : onlyOn document (operation :: rest) = operation :: onlyOn document rest :=
          List.filter_cons_of_pos (by simp [on])
        obtain ⟨same, last⟩ := ih (agree.step_of_on on) attends.2
        rw [taken, told_history_of_on on, told_history_of_on on, agree.event on, same]
        exact ⟨rfl, last⟩
      · -- only the whole session takes it, and nothing of it is told
        have left : onlyOn document (operation :: rest) = onlyOn document rest :=
          List.filter_cons_of_neg (by simpa [on] using Ne.symm own)
        obtain ⟨same, last⟩ := ih (agree.skip on own) attends.2
        rw [left, told_history_of_off (by simpa [on] using Ne.symm own)]
        exact ⟨same, last⟩

/-! ### Main theorem -/

/-- Two editors on two documents. A purge drops the lock on one of them, and another one breaks off
at the other lock, behind the first document. -/
def crossedOperations : List Operation :=
  [.acquire "draft" "ada", .acquire "notes" "bob", .setClock (.ofMillis 200000),
    .acquire "notes" "bob", .storeRelease "draft" "bob", .purge (.ofMillis 310000) defaultTtl [],
    .holder "draft", .storeAcquire "notes" "bob" (.ofMillis 8210266876799000) (.ofMillis 5),
    .storeAcquire "draft" "bob" (.ofMillis 200000) (.ofMillis 5),
    .purge (.ofMillis 310000) defaultTtl ["draft"], .release "notes" "bob"]

end Session
end Galley.Lock
