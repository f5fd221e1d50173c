import Galley.Lock.EditLock
/-!
# The lock store

Locks filed by document. Acquiring checks the lock there is and writes the new one in one step. An
operation that asks whether a lock without an expiry is stale breaks off.
-/
namespace Galley.Lock

open Galley.Time (Timestamp Span)

/-- Locks by document; no document stands twice. -/
structure Store where
  filed : List (String × EditLock)
  distinct : (filed.map Prod.fst).Nodup
deriving DecidableEq, Repr

namespace Store

def empty : Store := ⟨[], List.nodup_nil⟩

def get? (store : Store) (document : String) : Option EditLock := store.filed.lookup document

/-- Files a lock in its document's place, or at the end. -/
def putLock (document : String) (lock : EditLock) :
    List (String × EditLock) → List (String × EditLock)
  | [] => [(document, lock)]
  | (key, old) :: rest =>
    if key = document then (key, lock) :: rest else (key, old) :: putLock document lock rest

theorem mem_documents_putLock {document key : String} {lock : EditLock}
    {filed : List (String × EditLock)} :
    key ∈ (putLock document lock filed).map Prod.fst ↔
      key = document ∨ key ∈ filed.map Prod.fst := by
  induction filed with
  | nil => simp [putLock]
  | cons entry rest ih =>
    obtain ⟨first, old⟩ := entry
    simp only [putLock]
    split
    next same => subst same; simp
    next other =>
      simp only [List.map_cons, List.mem_cons, ih]
      exact or_left_comm

theorem nodup_putLock {document : String} {lock : EditLock} {filed : List (String × EditLock)}
    (distinct : (filed.map Prod.fst).Nodup) :
    ((putLock document lock filed).map Prod.fst).Nodup := by
  induction filed with
  | nil => simp [putLock]
  | cons entry rest ih =>
    obtain ⟨first, old⟩ := entry
    rw [List.map_cons, List.nodup_cons] at distinct
    simp only [putLock]
    -- a lock on the document is replaced where it stands, else the new one is put further back
    split
    next same => simpa using distinct
    next other =>
      rw [List.map_cons, List.nodup_cons, mem_documents_putLock]
      exact ⟨fun found => found.elim other distinct.1, ih distinct.2⟩

def insert (store : Store) (document : String) (lock : EditLock) : Store :=
  ⟨putLock document lock store.filed, nodup_putLock store.distinct⟩

/-- The entries that a test lets stand. -/
def keep (store : Store) (stays : String × EditLock → Bool) : Store :=
  ⟨store.filed.filter stays, store.distinct.sublist (List.filter_sublist.map Prod.fst)⟩

def erase (store : Store) (document : String) : Store :=
  store.keep fun entry => entry.1 != document

def size (store : Store) : Nat := store.filed.length

def isEmpty (store : Store) : Bool := store.filed.isEmpty

/-- A document is open to an editor if it is not locked, if the editor holds it, or if its lock is
stale; the last is asked of a lock of another editor only. -/
def openTo? (store : Store) (document holder : String) (now : Timestamp) (ttl : Span) :
    Option Bool :=
  match store.get? document with
  | none => some true
  | some lock => if lock.holder = holder then some true else lock.stale? now ttl

/-- Takes the lock if the document is open to the editor. -/
def tryAcquire? (store : Store) (document holder : String) (now : Timestamp) (ttl : Span) :
    Option (Bool × Store) :=
  (store.openTo? document holder now ttl).map fun free =>
    if free then (true, store.insert document ⟨document, holder, now⟩) else (false, store)

/-- Drops the lock if the editor holds it, stale or not. -/
def release (store : Store) (document holder : String) : Bool × Store :=
  match store.get? document with
  | some lock => if lock.holder = holder then (true, store.erase document) else (false, store)
  | none => (false, store)

/-- What a sweep leaves that comes to the locks on these documents: it drops the stale ones. -/
def sweep (store : Store) (reached : String → Bool) (now : Timestamp) (ttl : Span) : Store :=
  store.keep fun entry => !(reached entry.1 && decide (entry.2.IsStale now ttl))

/-- Drops every stale lock, and counts them. -/
def purge? (store : Store) (now : Timestamp) (ttl : Span) : Option (Nat × Store) :=
  if ∀ entry ∈ store.filed, entry.2.Expires ttl then
    let left := store.sweep (fun _ => true) now ttl
    some (store.size - left.size, left)
  else none

end Store
end Galley.Lock
