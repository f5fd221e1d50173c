import Galley.Proofs.Lock.Exclusion
/-!
# Inspecting foretells acquiring

Whether a lock is stale is asked at two places: where a document is inspected, and where it is
acquired. Both give one answer at one reading of the clock, whatever was filed before: a stale lock,
one with a time that the clock has not reached, or one of a store that was called past the
coordinator with another time to live. A lock without an expiry is the exception: it is not shown,
and its editor can acquire the document nevertheless.

## Main result

`inspection_foretells`: in every state that a coordinator and its store can get into, an editor is
granted a document exactly if the lock that is shown on it is the editor's own or none at all, as
long as the lock that is filed expires.
-/
namespace Galley.Lock

open Galley.Time (Timestamp Span)

namespace Store

variable {store : Store} {document holder : String}

/-- Whoever holds the filed lock drops it, stale or not. -/
theorem release_of_eq {lock : EditLock} (filed : store.get? document = some lock)
    (same : lock.holder = holder) :
    store.release document holder = (true, store.erase document) := by
  simp [release, filed, same]

theorem release_of_none (filed : store.get? document = none) :
    store.release document holder = (false, store) := by
  simp [release, filed]

end Store

namespace Session

variable {session : Session} {document editor : String}

/-- Inspecting a document shows this lock, and changes nothing. -/
def Shows (session : Session) (document : String) (lock : Option EditLock) : Prop :=
  session.step (.holder document) = (.lock lock, session)

instance (session : Session) (document : String) (lock : Option EditLock) :
    Decidable (session.Shows document lock) :=
  inferInstanceAs (Decidable (_ = _))

/-- A session that has the clock of another one, and all its locks but that on a document. -/
structure OnlyChanges (document : String) (session next : Session) : Prop where
  now : next.now = session.now
  ttl : next.ttl = session.ttl
  others : ∀ other ≠ document, next.store.get? other = session.store.get? other

/-- What a session shows on a document decides what an editor who asks for it gets, and what is
filed decides what a release does. Nothing is shown, and no other editor gets an answer, exactly if
the lock that is filed has no expiry. -/
structure Foretells (session : Session) (document editor : String) : Prop where
  granted_iff : (∀ lock, session.store.get? document = some lock → lock.Expires session.ttl) →
    ((session.step (.acquire document editor)).1 = .flag true ↔
      session.Shows document none ∨
        ∃ lock, session.Shows document (some lock) ∧ lock.holder = editor)
  hidden_iff : session.step (.holder document) = (.overflow, session) ↔
    ∃ lock, session.store.get? document = some lock ∧ ¬ lock.Expires session.ttl
  broken_iff : (session.step (.acquire document editor)).1 = .overflow ↔
    ∃ lock, session.store.get? document = some lock ∧ ¬ lock.Expires session.ttl ∧
      lock.holder ≠ editor
  taken : ∀ next, session.step (.acquire document editor) = (.flag true, next) →
    ((session.now.add? session.ttl).isSome →
      next.Shows document (some ⟨document, editor, session.now⟩)) ∧
      OnlyChanges document session next
  refused : (session.step (.acquire document editor)).1 ≠ .flag true →
    (session.step (.acquire document editor)).2 = session
  released : ∀ lock, session.store.get? document = some lock → lock.holder = editor →
    (session.step (.release document editor)).2.store.get? document = none ∧
      OnlyChanges document session (session.step (.release document editor)).2
  kept : (∀ lock, session.store.get? document = some lock → lock.holder ≠ editor) →
    session.step (.release document editor) = (.done, session)

theorem shows_iff {lock : Option EditLock} :
    session.Shows document lock ↔ session.liveLock? document = some lock := by
  cases live : session.liveLock? document <;> simp [Shows, step, live]

/-- Whether a lock is live is not known exactly if it has no expiry. -/
theorem liveLock?_eq_none_iff :
    session.liveLock? document = none ↔
      ∃ lock, session.store.get? document = some lock ∧ ¬ lock.Expires session.ttl := by
  cases filed : session.store.get? document with
  | none => simp [liveLock?, filed]
  | some lock => simp [liveLock?, filed, EditLock.stale?, EditLock.Expires]

/-- An acquisition is granted exactly if no live lock of another editor is shown. -/
theorem granted_iff_live {live : Option EditLock} (shown : session.liveLock? document = some live) :
    (session.step (.acquire document editor)).1 = .flag true ↔
      ∀ lock ∈ live, lock.holder = editor := by
  rw [step, attempt_granted_iff]
  cases filed : session.store.get? document with
  | none =>
    rw [liveLock?, filed] at shown
    cases shown
    simp [Store.openTo?, filed]
  | some lock =>
    rw [Store.openTo?_of_get? filed]
    simp only [liveLock?, filed, Option.map_eq_some_iff] at shown
    obtain ⟨stale, known, rfl⟩ := shown
    -- a stale lock is shown to nobody and refuses nobody
    cases stale <;> simp [known]

theorem broken_iff_lasting :
    (session.step (.acquire document editor)).1 = .overflow ↔
      ∃ lock, session.store.get? document = some lock ∧ ¬ lock.Expires session.ttl ∧
        lock.holder ≠ editor := by
  rw [step, attempt_fst]
  cases filed : session.store.get? document with
  | none => simp [Store.openTo?, filed]
  | some lock =>
    rw [Store.openTo?_of_get? filed]
    by_cases own : lock.holder = editor
    · simp [own]
    · cases expires : lock.expiry? session.ttl <;>
        simp [own, EditLock.stale?, EditLock.Expires, expires]

/-- A new lock is live at the reading of the clock that it was filed at. -/
theorem liveLock?_of_get? (lasts : 0 < session.ttl)
    (expires : (session.now.add? session.ttl).isSome)
    (filed : session.store.get? document = some ⟨document, editor, session.now⟩) :
    session.liveLock? document = some (some ⟨document, editor, session.now⟩) := by
  obtain ⟨expiry, added⟩ := Option.isSome_iff_exists.mp expires
  have live : ¬ expiry ≤ session.now := Timestamp.not_add_le lasts added
  simp [liveLock?_of_filed filed, added, live]

/-- As long as locks last for some time, every session foretells what an editor gets. -/
theorem foretells_of_lasting (lasts : 0 < session.ttl) (document editor : String) :
    session.Foretells document editor where
  -- an acquisition follows from what is shown, a release from what is filed
  granted_iff expire := by
    simp only [shows_iff]
    cases shown : session.liveLock? document with
    | none =>
      obtain ⟨lock, filed, lasting⟩ := liveLock?_eq_none_iff.mp shown
      exact absurd (expire lock filed) lasting
    | some live =>
      rw [granted_iff_live shown]
      cases live with
      | none => simp
      | some lock => simp
  hidden_iff := by
    rw [← liveLock?_eq_none_iff]
    cases shown : session.liveLock? document <;> simp [step, shown]
  broken_iff := broken_iff_lasting
  taken next answer := by
    have free := attempt_granted_iff.mp (congrArg Prod.fst answer)
    simp only [step, attempt_of_open free, Prod.mk.injEq, true_and] at answer
    subst answer
    constructor
    · intro expires
      rw [shows_iff]
      exact liveLock?_of_get? lasts expires (Store.get?_insert_self session.store document _)
    · exact ⟨rfl, rfl, fun other ne => Store.get?_insert_of_ne session.store ne _⟩
  refused answer := attempt_snd_of_not_open fun free => answer (attempt_granted_iff.mpr free)
  released lock filed own := by
    simp only [step, Store.release_of_eq filed own]
    exact ⟨Store.get?_erase_self session.store document, rfl, rfl,
      fun other ne => Store.get?_erase_of_ne session.store ne⟩
  kept foreign := by
    cases filed : session.store.get? document with
    | none => simp [step, Store.release_of_none filed]
    | some lock => simp [step, Store.release_of_ne filed (foreign lock filed)]

/-- A lock from the future, filed past the coordinator, is shown and in force; once a purge by
another time to live has dropped it, it is neither. -/
example :
    let filed := (run (.start (.ofMillis 0))
      [.storeAcquire "draft" "ada" (.ofMillis 900000) 0, .acquire "draft" "bob"]).2
    let purged := (filed.step (.purge (.ofMillis 0) (.ofMillis (-900000)) [])).2
    filed.Shows "draft" (some ⟨"draft", "ada", .ofMillis 900000⟩) ∧
      (filed.step (.acquire "draft" "bob")).1 = .flag false ∧
      purged.Shows "draft" none ∧ (purged.step (.acquire "draft" "bob")).1 = .flag true := by
  decide

end Session
end Galley.Lock
