import Galley.Json.Printer
import Galley.Json.Reader
import Galley.Time.Rfc3339
/-!
# Edit locks

A lock names the document it is for, the editor who holds it and when it was last acquired. It is
stale once its time to live has passed since then, which has to be an instant of the calendar.
-/
namespace Galley.Lock

open Galley.Time (Timestamp Span)

structure EditLock where
  document : String
  holder : String
  acquiredAt : Timestamp
deriving DecidableEq, Repr

namespace EditLock

/-- The instant from which on the lock is stale. There is none if its time to live leads out of the
calendar. -/
def expiry? (lock : EditLock) (ttl : Span) : Option Timestamp := lock.acquiredAt.add? ttl

/-- Whether the lock is stale by now; without an expiry the question has no answer. -/
def stale? (lock : EditLock) (now : Timestamp) (ttl : Span) : Option Bool :=
  (lock.expiry? ttl).map fun expiry => decide (expiry ≤ now)

def Expires (lock : EditLock) (ttl : Span) : Prop := (lock.expiry? ttl).isSome = true

instance (lock : EditLock) (ttl : Span) : Decidable (lock.Expires ttl) :=
  inferInstanceAs (Decidable (_ = _))

def IsStale (lock : EditLock) (now : Timestamp) (ttl : Span) : Prop :=
  ∃ expiry, lock.expiry? ttl = some expiry ∧ expiry ≤ now

theorem stale?_eq_some_true_iff {lock : EditLock} {now : Timestamp} {ttl : Span} :
    lock.stale? now ttl = some true ↔ lock.IsStale now ttl := by
  simp [stale?, IsStale]

instance (lock : EditLock) (now : Timestamp) (ttl : Span) : Decidable (lock.IsStale now ttl) :=
  decidable_of_iff _ stale?_eq_some_true_iff

/-! ### JSON -/

def toJson (lock : EditLock) : Json.Value :=
  .object [("document", .string lock.document), ("holder", .string lock.holder),
    ("acquired_at", .string lock.acquiredAt.text)]

/-- Fields read so far. -/
structure Draft where
  document : Option String := none
  holder : Option String := none
  acquiredAt : Option Timestamp := none

/-- A point in time in a string. -/
def timeReader : Json.Reader Timestamp :=
  Json.stringAs "an RFC 3339 formatted date and time string" fun text =>
    (Timestamp.ofText text).mapError Time.Unreadable.message

/-- How a lock is spelled. -/
def record : Json.Record Draft EditLock where
  name := "EditLock"
  fields :=
    [{ names := ["document"], required := true, isSet := fun draft => draft.document.isSome,
       read := fun draft =>
         Json.Reader.map (fun document => { draft with document := some document }) Json.string },
     { names := ["holder"], required := true, isSet := fun draft => draft.holder.isSome,
       read := fun draft =>
         Json.Reader.map (fun holder => { draft with holder := some holder }) Json.string },
     { names := ["acquired_at"], required := true, isSet := fun draft => draft.acquiredAt.isSome,
       read := fun draft =>
         Json.Reader.map (fun time => { draft with acquiredAt := some time }) timeReader }]
  empty := {}
  finish := fun draft => do
    return ⟨← draft.document, ← draft.holder, ← draft.acquiredAt⟩

def ofText (text : String) : Except Json.Fault EditLock := Json.decode record.reader text

end EditLock
end Galley.Lock
