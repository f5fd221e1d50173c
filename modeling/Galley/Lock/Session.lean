import Galley.Lock.Store
/-!
# Lock sessions

A coordinator grants and releases locks in a store by the reading of a clock. A session runs
operations on a coordinator, its clock and its store, one after the other. An operation that breaks
off gives no answer, and the session goes on with what it left.
-/
namespace Galley.Lock

open Galley.Time (Timestamp Span)

/-- How long a lock stays live without being acquired again: five minutes. -/
def defaultTtl : Span := .ofMillis 300000

/-- What can be asked of a coordinator, of its clock, and of its store directly. A purge comes to
the locks in any order; `reached` are the documents whose locks it has come to when it breaks
off. -/
inductive Operation where
  | acquire (document holder : String)
  | release (document holder : String)
  | holder (document : String)
  | advance (span : Span)
  | setClock (now : Timestamp)
  | askTtl
  | storeAcquire (document holder : String) (now : Timestamp) (ttl : Span)
  | storeRelease (document holder : String)
  | storeGet (document : String)
  | purge (now : Timestamp) (ttl : Span) (reached : List String)
deriving DecidableEq, Repr

inductive Response where
  | done
  | flag (b : Bool)
  | lock (lock : Option EditLock)
  | count (n : Nat)
  | span (ttl : Span)
  /-- No answer: the operation broke off at a sum that lies outside the calendar. -/
  | overflow
deriving DecidableEq, Repr

/-- A coordinator with its store and the reading of its clock. -/
structure Session where
  store : Store
  now : Timestamp
  ttl : Span
deriving DecidableEq, Repr

namespace Session

def start (now : Timestamp) : Session := ⟨.empty, now, defaultTtl⟩

/-- The live lock on a document, unless its lock has no expiry. -/
def liveLock? (session : Session) (document : String) : Option (Option EditLock) :=
  match session.store.get? document with
  | none => some none
  | some lock =>
    (lock.stale? session.now session.ttl).map fun stale => if stale then none else some lock

/-- An acquisition by some reading of a clock and some time to live. -/
def attempt (session : Session) (document holder : String) (now : Timestamp) (ttl : Span) :
    Response × Session :=
  match session.store.tryAcquire? document holder now ttl with
  | some (granted, store) => (.flag granted, { session with store })
  | none => (.overflow, session)

/-- One operation. -/
def step (session : Session) : Operation → Response × Session
  | .acquire document holder => session.attempt document holder session.now session.ttl
  | .release document holder =>
    (.done, { session with store := (session.store.release document holder).2 })
  | .holder document => ((session.liveLock? document).elim .overflow .lock, session)
  | .advance span =>
    match session.now.add? span with
    | some now => (.done, { session with now })
    | none => (.overflow, session)
  | .setClock now => (.done, { session with now })
  | .askTtl => (.span session.ttl, session)
  | .storeAcquire document holder now ttl => session.attempt document holder now ttl
  | .storeRelease document holder =>
    let (released, store) := session.store.release document holder
    (.flag released, { session with store })
  | .storeGet document => (.lock (session.store.get? document), session)
  | .purge now ttl reached =>
    match session.store.purge? now ttl with
    | some (count, store) => (.count count, { session with store })
    | none =>
      (.overflow, { session with store := session.store.sweep reached.contains now ttl })

/-- Operations in sequence: their responses, and the session after them. -/
def run (session : Session) : List Operation → List Response × Session
  | [] => ([], session)
  | operation :: rest =>
    let (response, next) := session.step operation
    let (responses, last) := run next rest
    (response :: responses, last)

end Session
end Galley.Lock
