import Galley.Lock.Session
/-!
# Laws of the lock store

What filing and dropping locks do to the lock that a document has, when the two operations of an
editor succeed, and what a purge leaves.
-/
namespace Galley.Lock

open Galley.Time (Timestamp Span)

namespace Store

/-! ### Filing and dropping -/

private theorem lookup_putLock_self (document : String) (lock : EditLock)
    (filed : List (String × EditLock)) :
    (putLock document lock filed).lookup document = some lock := by
  induction filed with
  | nil => simp [putLock]
  | cons entry rest ih =>
    obtain ⟨key, old⟩ := entry
    simp only [putLock]
    split
    next same => simp [same]
    next other => rw [List.lookup_cons, beq_false_of_ne (Ne.symm other)]; exact ih

private theorem lookup_putLock_of_ne {document other : String} (ne : other ≠ document)
    (lock : EditLock) (filed : List (String × EditLock)) :
    (putLock document lock filed).lookup other = filed.lookup other := by
  induction filed with
  | nil => simp [putLock, ne]
  | cons entry rest ih =>
    obtain ⟨key, old⟩ := entry
    simp only [putLock]
    split
    next same => subst same; simp [List.lookup_cons, beq_false_of_ne ne]
    next _ => rw [List.lookup_cons, List.lookup_cons, ih]

@[simp] theorem get?_insert_self (store : Store) (document : String) (lock : EditLock) :
    (store.insert document lock).get? document = some lock :=
  lookup_putLock_self document lock store.filed

theorem get?_insert_of_ne (store : Store) {document other : String} (ne : other ≠ document)
    (lock : EditLock) : (store.insert document lock).get? other = store.get? other :=
  lookup_putLock_of_ne ne lock store.filed

private theorem lookup_filter {filed : List (String × EditLock)}
    (distinct : (filed.map Prod.fst).Nodup) (stays : String × EditLock → Bool)
    (document : String) :
    (filed.filter stays).lookup document =
      (filed.lookup document).filter fun lock => stays (document, lock) := by
  induction filed with
  | nil => rfl
  | cons entry rest ih =>
    obtain ⟨key, lock⟩ := entry
    rw [List.map_cons, List.nodup_cons] at distinct
    by_cases same : key = document
    · subst same
      rw [List.lookup_cons_self]
      cases stay : stays (key, lock) with
      | true =>
        rw [List.filter_cons_of_pos stay, List.lookup_cons_self]
        simp [Option.filter, stay]
      | false =>
        -- the document stands nowhere else, so nothing comes out from behind the dropped lock
        have gone : rest.lookup key = none := by
          rw [List.lookup_eq_none_iff]
          refine fun other member => bne_iff_ne.mpr fun equal => ?_
          exact distinct.1 (List.mem_map.mpr ⟨other, member, equal.symm⟩)
        rw [List.filter_cons_of_neg (by simp [stay]), ih distinct.2, gone]
        simp [Option.filter, stay]
    · -- a lock on another document is passed over, kept or not
      have passed (locks : List (String × EditLock)) :
          ((key, lock) :: locks).lookup document = locks.lookup document := by
        rw [List.lookup_cons, beq_false_of_ne (Ne.symm same)]
      rw [passed, ← ih distinct.2]
      cases stay : stays (key, lock) with
      | true => rw [List.filter_cons_of_pos stay, passed]
      | false => rw [List.filter_cons_of_neg (by simp [stay])]

/-- A document keeps its lock if the test lets it stand. -/
theorem get?_keep (store : Store) (stays : String × EditLock → Bool) (document : String) :
    (store.keep stays).get? document =
      (store.get? document).filter fun lock => stays (document, lock) :=
  lookup_filter store.distinct stays document

theorem get?_erase_of_ne (store : Store) {document other : String} (ne : other ≠ document) :
    (store.erase document).get? other = store.get? other := by
  rw [erase, get?_keep]
  cases store.get? other <;> simp [Option.filter, ne]

theorem get?_erase_self (store : Store) (document : String) :
    (store.erase document).get? document = none := by
  rw [erase, get?_keep]
  cases store.get? document <;> simp [Option.filter]

/-! ### The operations of an editor -/

variable {store other : Store} {document holder : String} {now : Timestamp} {ttl : Span}

/-- On a document with a lock, the lock's editor can acquire, and anyone once the lock is stale. -/
theorem openTo?_of_get? {lock : EditLock} (filed : store.get? document = some lock) :
    store.openTo? document holder now ttl =
      if lock.holder = holder then some true else lock.stale? now ttl := by
  simp [openTo?, filed]

/-- Whether a document is open depends on nothing but the lock filed for it. -/
theorem openTo?_congr (same : store.get? document = other.get? document) :
    store.openTo? document holder now ttl = other.openTo? document holder now ttl := by
  unfold openTo?
  rw [same]

theorem tryAcquire?_of_open (free : store.openTo? document holder now ttl = some true) :
    store.tryAcquire? document holder now ttl =
      some (true, store.insert document ⟨document, holder, now⟩) := by
  simp [tryAcquire?, free]

theorem tryAcquire?_of_busy (busy : store.openTo? document holder now ttl = some false) :
    store.tryAcquire? document holder now ttl = some (false, store) := by
  simp [tryAcquire?, busy]

theorem tryAcquire?_of_none (unknown : store.openTo? document holder now ttl = none) :
    store.tryAcquire? document holder now ttl = none := by
  simp [tryAcquire?, unknown]

/-- Only the editor of a lock drops it. -/
theorem release_of_ne {lock : EditLock} (filed : store.get? document = some lock)
    (ne : lock.holder ≠ holder) : store.release document holder = (false, store) := by
  simp [release, filed, ne]

theorem get?_release_of_ne {key : String} (ne : key ≠ document) :
    (store.release document holder).2.get? key = store.get? key := by
  unfold release
  split
  · split
    · exact get?_erase_of_ne store ne
    · rfl
  · rfl

/-- Nobody but the editor who releases a document loses a lock on it. -/
theorem get?_release_self :
    (store.release document holder).2.get? document =
      (store.get? document).filter fun lock => lock.holder ≠ holder := by
  unfold release
  cases found : store.get? document with
  | none => exact found
  | some lock =>
    by_cases same : lock.holder = holder
    · simp [Option.filter, same, get?_erase_self]
    · simp [Option.filter, same, found]

/-! ### Purging -/

/-- A sweep drops a lock that it comes to and that is stale, and no other. -/
theorem get?_sweep (store : Store) (reached : String → Bool) (now : Timestamp) (ttl : Span)
    (document : String) :
    (store.sweep reached now ttl).get? document =
      (store.get? document).filter fun lock => ¬ (reached document ∧ lock.IsStale now ttl) := by
  rw [sweep, get?_keep]
  congr 1
  funext lock
  simp

theorem purge?_of_expires (expire : ∀ entry ∈ store.filed, entry.2.Expires ttl) :
    store.purge? now ttl =
      some (store.filed.countP fun entry => entry.2.IsStale now ttl,
        store.sweep (fun _ => true) now ttl) := by
  have split := List.length_eq_countP_add_countP (fun entry : String × EditLock =>
    decide (entry.2.IsStale now ttl)) (l := store.filed)
  have kept : (store.sweep (fun _ => true) now ttl).filed.length =
      store.filed.countP fun entry => ¬ decide (entry.2.IsStale now ttl) = true := by
    change (store.filed.filter _).length = _
    rw [List.countP_eq_length_filter]
    simp
  -- the store counts what it lost
  have lost : store.size - (store.sweep (fun _ => true) now ttl).size =
      store.filed.countP fun entry => decide (entry.2.IsStale now ttl) := by
    unfold size
    omega
  rw [purge?, if_pos expire, ← lost]

theorem purge?_of_not_expires (lasting : ¬ ∀ entry ∈ store.filed, entry.2.Expires ttl) :
    store.purge? now ttl = none :=
  if_neg lasting

end Store

/-! ### Attempts to acquire -/

namespace Session

variable {session : Session} {document holder : String} {now : Timestamp} {ttl : Span}

theorem attempt_of_open (free : session.store.openTo? document holder now ttl = some true) :
    session.attempt document holder now ttl =
      (.flag true,
        { session with store := session.store.insert document ⟨document, holder, now⟩ }) := by
  rw [attempt, Store.tryAcquire?_of_open free]

theorem attempt_of_busy (busy : session.store.openTo? document holder now ttl = some false) :
    session.attempt document holder now ttl = (.flag false, session) := by
  rw [attempt, Store.tryAcquire?_of_busy busy]

theorem attempt_of_none (unknown : session.store.openTo? document holder now ttl = none) :
    session.attempt document holder now ttl = (.overflow, session) := by
  rw [attempt, Store.tryAcquire?_of_none unknown]

/-- What an attempt answers is whether the document is open to the editor. -/
theorem attempt_fst :
    (session.attempt document holder now ttl).1 =
      (session.store.openTo? document holder now ttl).elim .overflow .flag := by
  cases free : session.store.openTo? document holder now ttl with
  | none => rw [attempt_of_none free]; rfl
  | some answer =>
    cases answer with
    | true => rw [attempt_of_open free]; rfl
    | false => rw [attempt_of_busy free]; rfl

theorem attempt_granted_iff :
    (session.attempt document holder now ttl).1 = .flag true ↔
      session.store.openTo? document holder now ttl = some true := by
  rw [attempt_fst]
  cases session.store.openTo? document holder now ttl <;> simp

/-- Without success an attempt changes nothing. -/
theorem attempt_snd_of_not_open
    (busy : session.store.openTo? document holder now ttl ≠ some true) :
    (session.attempt document holder now ttl).2 = session := by
  cases free : session.store.openTo? document holder now ttl with
  | none => rw [attempt_of_none free]
  | some answer =>
    cases answer with
    | true => exact absurd free busy
    | false => rw [attempt_of_busy free]

theorem get?_attempt_self :
    (session.attempt document holder now ttl).2.store.get? document =
      if session.store.openTo? document holder now ttl = some true then
        some ⟨document, holder, now⟩
      else session.store.get? document := by
  split
  next free => rw [attempt_of_open free, Store.get?_insert_self]
  next busy => rw [attempt_snd_of_not_open busy]

theorem get?_attempt_of_ne {key : String} (ne : key ≠ document) :
    (session.attempt document holder now ttl).2.store.get? key = session.store.get? key := by
  by_cases free : session.store.openTo? document holder now ttl = some true
  · rw [attempt_of_open free]
    exact Store.get?_insert_of_ne session.store ne _
  · rw [attempt_snd_of_not_open free]

theorem attempt_now : (session.attempt document holder now ttl).2.now = session.now := by
  by_cases free : session.store.openTo? document holder now ttl = some true
  · rw [attempt_of_open free]
  · rw [attempt_snd_of_not_open free]

theorem attempt_ttl : (session.attempt document holder now ttl).2.ttl = session.ttl := by
  by_cases free : session.store.openTo? document holder now ttl = some true
  · rw [attempt_of_open free]
  · rw [attempt_snd_of_not_open free]

end Session
end Galley.Lock
