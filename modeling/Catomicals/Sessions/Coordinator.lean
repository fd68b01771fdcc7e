import Catomicals.Base.Method
import Catomicals.Base.Table
import Catomicals.Sessions.Scan

/-!
# The session coordinator

The coordinator appends batches of events to session logs. A session found on disk is adopted first:
its torn tail is cut off and an open turn is closed. It is not tracked then, so this happens at
every batch.
-/
namespace Catomicals.Sessions

open Base Method

structure SessionState where
  header : SessionHeader
  /-- The next seq the backend expects to append. -/
  cursor : ℕ
  materialized : Bool

/-- The tracked sessions, and the log files on disk by the ids of their directories. -/
structure SessionCoordinator where
  states : Table SessionId SessionState
  files : Table SessionId Bytes
  /-- A session is tracked under the id of its header. -/
  keyed : ∀ id state, states.get id = some state → state.header.id = id

structure StoredPrefix where
  header : SessionHeader
  events : List SessionEvent
  /-- The offset to truncate to, if bytes follow the preserved prefix. -/
  tornMarker : Option ℕ

inductive SessionError where
  | scan (error : ScanError)
  | corruptIdentity (requested found : SessionId)
  | notFound (id : SessionId)
  | lostLog (id : SessionId)
  | identityMismatch (requested found : SessionId)
  | unsupportedVersion (id : SessionId) (version : ℤ)
  | unsupportedEvent (id : SessionId) (type : String) (seq : ℕ)
  | seqMismatch (id : SessionId) (expected index got : ℕ)
  | logExists (id : SessionId)

namespace SessionCoordinator

/-- A call on the coordinator. A call that fails keeps what it wrote. -/
abbrev Action (α : Type) := Method SessionCoordinator SessionError α

def write (c : SessionCoordinator) (id : SessionId) (file : Bytes) : SessionCoordinator :=
  { c with files := c.files.put id file }

/-- The tracked state of a session after a batch of the given length was appended. -/
def advance (c : SessionCoordinator) (id : SessionId) (count : ℕ) : SessionCoordinator :=
  match h : c.states.get id with
  | none => c
  | some state =>
    { c with
      states := c.states.put id { state with cursor := state.cursor + count, materialized := true }
      keyed := by
        intro id' state' h'
        rw [Table.get_put] at h'
        split_ifs at h' with hid
        · cases h'
          rw [hid]
          exact c.keyed id state h
        · exact c.keyed id' state' h' }

variable (J : Json) (id : SessionId)

def loadStored : Action (Option StoredPrefix) := do
  let c ← get
  match c.files.get id with
  | none => return none
  | some buffer =>
    let scan ← lift ((scanLog J buffer).mapError .scan)
    lift (require (scan.header.id = id) (.corruptIdentity id scan.header.id))
    return some ⟨scan.header, scan.events,
      if scan.committedBytes < buffer.length then some scan.committedBytes else none⟩

variable (header : SessionHeader) (events : List SessionEvent)

/-- Append lines to the file of the header, creating it if it is missing. -/
def appendLines : Action Unit :=
  modify fun c =>
    c.write header.id ((c.files.get header.id).getD [] ++ eventLines J events)

def repair (offset : ℕ) : Action Unit :=
  modify fun c => c.write header.id (((c.files.get header.id).getD []).take offset)

/-- Write the header line and the first batch, unless there is a file already. -/
def materialize : Action Unit := do
  let c ← get
  lift (require ((c.files.get header.id).isNone = true) (.logExists header.id))
  modify fun c =>
    c.write header.id (joinRecords newline [J.stringifyHeader header] ++ eventLines J events)

def appendBatch (isMaterialized : Bool) : Action Unit :=
  if isMaterialized then appendLines J header events else materialize J header events

/-- Make a repair durable: truncate the torn tail, then append the closers. -/
def commitRepair (tornMarker : Option ℕ) (closers : List SessionEvent) : Action Unit := do
  match tornMarker with
  | some offset => repair header offset
  | none => pure ()
  if closers.length > 0 then appendLines J header closers else pure ()

def assertVersion : Except SessionError Unit :=
  require (header.version = sessionFormatVersion) (.unsupportedVersion header.id header.version)

def isSupported (event : SessionEvent) : Bool :=
  event.body.type ∈ knownSessionEventTypes || event.ignorable

def assertEventsSupported : Except SessionError Unit :=
  match events.find? (!isSupported ·) with
  | none => .ok ()
  | some event => .error (.unsupportedEvent header.id event.body.type event.seq)

def adopt : Action SessionState := do
  let stored ← loadStored J id
  let stored ← lift (orError stored (.notFound id))
  lift (require (stored.header.id = id) (.identityMismatch id stored.header.id))
  lift (assertVersion stored.header)
  lift (assertEventsSupported stored.header stored.events)
  let closers := interruptedTurnClosers stored.events
  if stored.tornMarker.isSome ∨ closers.length > 0 then
    commitRepair J stored.header stored.tornMarker closers
    let repaired ← loadStored J id
    let repaired ← lift (orError repaired (.lostLog id))
    return ⟨repaired.header, repaired.events.length, true⟩
  else
    return ⟨stored.header, stored.events.length, true⟩

/-- The tracked state of a session, or the state it is adopted with. -/
def stateOf : Action SessionState := do
  let c ← get
  match c.states.get id with
  | some state => return state
  | none => adopt J id

def assertContiguous (cursor : ℕ) (events : List SessionEvent) : Except SessionError Unit :=
  match events.zipIdx.find? fun e => e.1.seq ≠ cursor + e.2 with
  | none => .ok ()
  | some (event, i) => .error (.seqMismatch id (cursor + i) i event.seq)

def append (events : List SessionEvent) : Action Unit :=
  if events.length = 0 then pure ()
  else do
    let state ← stateOf J id
    lift (assertContiguous id state.cursor events)
    appendBatch J state.header events state.materialized
    -- an adopted state is dropped here, only a tracked one is kept
    modify fun c => c.advance id events.length

def assignSeqs (cursor : ℕ) (partials : List EventDraft) : List SessionEvent :=
  partials.mapIdx fun i draft => ⟨draft, cursor + i⟩

def appendAuto (partials : List EventDraft) : Action (List SessionEvent) :=
  if partials.length = 0 then return []
  else do
    let state ← stateOf J id
    let events := assignSeqs state.cursor partials
    appendBatch J state.header events state.materialized
    modify fun c => c.advance id events.length
    return events

end SessionCoordinator

end Catomicals.Sessions
