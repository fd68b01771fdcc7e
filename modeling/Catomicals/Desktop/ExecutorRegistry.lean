import Catomicals.Base.Bytes
import Catomicals.Base.Cooperative
import Catomicals.Base.Processes
import Catomicals.Desktop.Url
import Mathlib.Tactic.Common

/-!
# The registry of executor sessions

`desktop/src/executors/registry.ts`. Session records are mutable objects that tasks keep across
awaits, so they live in a heap of their own (`records`), and the map of session ids only says which
record an id stands for now. Probe processes are not part of the model.
-/
namespace Catomicals.Desktop

open Base

inductive ExecutorProviderId where
  | codex | deepseek | claudeCode
deriving DecidableEq

def ExecutorProviderId.canResume : ExecutorProviderId → Bool
  | .codex => true
  | .deepseek => false
  | .claudeCode => true

inductive ExecutorSessionState where
  | idle | running | completed | interrupted | failed | disposed
deriving DecidableEq

inductive ExecutorLastError where
  | interrupted | outputLimit | spawnFailed | processFailed

structure SessionRecord where
  sessionId : String
  provider : ExecutorProviderId
  nativeSessionId : Option String
  state : ExecutorSessionState
  running : Option ℕ
  (interruptRequested disposed mcp : Bool)
  lastError : Option ExecutorLastError

inductive ProcessError where
  | outputLimit
  | spawn (code : String)

structure ProcessResult where
  exitCode : Option ℤ
  signalled : Bool
  stdout : String
  error : Option ProcessError

/-- What the registry is built with: whether prompts are prepared, and how a provider's output is
read. -/
structure ExecutorHost where
  preparesPrompt : Bool
  extractNativeSessionId : ExecutorProviderId → String → Option String
  extractFinalText : ExecutorProviderId → String → Except String (Option String)

def validSessionId (sessionId : String) : Bool :=
  let cs := sessionId.toList
  1 ≤ cs.length && cs.length ≤ 80 && cs.all fun c => c.isAlphanum || c == '_' || c == '-'

def validNativeSessionId (nativeSessionId : String) : Bool :=
  match nativeSessionId.toList with
  | [] => false
  | first :: rest => first.isAlphanum && rest.length ≤ 255
      && rest.all fun c => c.isAlphanum || ['.', '_', ':', '-'].contains c

/-- A prompt can be sent: not blank, no longer than the limit, and without NUL. -/
def validPrompt (limit : ℕ) (prompt : String) : Bool :=
  !isBlank prompt && utf16Length prompt ≤ limit && !prompt.toList.contains '\x00'

/-- The registry's fields, the heap of session records, the processes started, and whether a
`disposeAll` has begun and completed. -/
structure ExecutorRegistry where
  sessions : List (String × ℕ)
  pendingSessionIds : List String
  nativeSessionOwners : List ((ExecutorProviderId × String) × String)
  records : List SessionRecord
  processes : Processes ℕ
  (sweeping swept : Bool)

def ExecutorRegistry.fresh : ExecutorRegistry := ⟨[], [], [], [], [], false, false⟩

namespace ExecutorRegistry

/-- Where a task of the registry goes on, with the variables it still uses. -/
inductive Pending where
  | createProfile (provider : ExecutorProviderId) (sessionId : String)
  | createProbe (provider : ExecutorProviderId) (sessionId : String)
  | createResources (provider : ExecutorProviderId) (sessionId : String) (mcp : Bool)
  | createCleanup (sessionId : String)
  | sendPrompt (ref : ℕ)
  | sendProcess (ref pid : ℕ)
  | disposeResources (ref : ℕ)
  | disposeAllResources (refs : List ℕ)
  | disposeHost (pids : List ℕ)

/-- What an awaited step returned; for a prompt also whether a process can start. -/
inductive Reply where
  | profile (succeeded : Bool)
  | probed (available mcp : Bool)
  | resources (succeeded : Bool)
  | prompt (prepared : Option String) (starts : Bool)
  | completed (result : ProcessResult)
  | released (succeeded : Bool)

/-- The calls on the registry, and the exit of a process. -/
inductive Call where
  | create (provider : ExecutorProviderId) (sessionId : String)
  | send (sessionId prompt : String) (starts : Bool)
  | interrupt (sessionId : String)
  | dispose (sessionId : String)
  | disposeAll
  | exit (pid : ℕ)

/-- What a part of a task leaves: the registry, and the continuations that wait. -/
abbrev Segment := ExecutorRegistry × List Pending

def update (ref : ℕ) (f : SessionRecord → SessionRecord) (s : ExecutorRegistry) :
    ExecutorRegistry :=
  { s with records := s.records.modify ref f }

def requiredSession (sessionId : String) (s : ExecutorRegistry) : Option (ℕ × SessionRecord) :=
  if validSessionId sessionId then do
    let ref ← s.sessions.lookup sessionId
    let record ← s.records[ref]?
    pure (ref, record)
  else none

def releaseNativeSession (record : SessionRecord) (s : ExecutorRegistry) : ExecutorRegistry :=
  match record.nativeSessionId with
  | none => s
  | some nativeSessionId =>
    if s.nativeSessionOwners.lookup (record.provider, nativeSessionId) = some record.sessionId then
      { s with nativeSessionOwners :=
          s.nativeSessionOwners.filter fun o => o.1 ≠ (record.provider, nativeSessionId) }
    else s

def bindNativeSession (ref : ℕ) (record : SessionRecord) (nativeSessionId : String)
    (s : ExecutorRegistry) : Except String ExecutorRegistry := do
  require (validNativeSessionId nativeSessionId) "invalid native session id"
  let key := (record.provider, nativeSessionId)
  require ((s.nativeSessionOwners.lookup key).getD record.sessionId = record.sessionId)
    "executor native session already bound"
  let s' := if record.nativeSessionId = some nativeSessionId then s
    else releaseNativeSession record s
  pure { s' with
    records := s'.records.modify ref fun r => { r with nativeSessionId := some nativeSessionId }
    nativeSessionOwners := (key, record.sessionId) ::
      s'.nativeSessionOwners.filter fun o => o.1 ≠ key }

def create (provider : ExecutorProviderId) (sessionId : String) (s : ExecutorRegistry) : Segment :=
  if validSessionId sessionId ∧ (s.sessions.lookup sessionId).isNone
      ∧ sessionId ∉ s.pendingSessionIds then
    ({ s with pendingSessionIds := sessionId :: s.pendingSessionIds },
      [.createProfile provider sessionId])
  else (s, [])

/-- The `finally` of `create`. -/
def createDone (sessionId : String) (s : ExecutorRegistry) : ExecutorRegistry :=
  { s with pendingSessionIds := s.pendingSessionIds.filter (· ≠ sessionId) }

def register (provider : ExecutorProviderId) (sessionId : String) (mcp : Bool)
    (s : ExecutorRegistry) : ExecutorRegistry :=
  let record : SessionRecord :=
    { sessionId, provider, nativeSessionId := none, state := .idle, running := none
      interruptRequested := false, disposed := false, mcp, lastError := none }
  createDone sessionId
    { s with
      records := s.records ++ [record]
      sessions := s.sessions.filter (fun e => e.1 ≠ sessionId) ++ [(sessionId, s.records.length)] }

variable (H : ExecutorHost)

/-- `send` once the prompt is prepared: the record is not looked at again, and a start that throws
leaves it running. -/
def startProcess (ref : ℕ) (prepared : String) (starts : Bool) (s : ExecutorRegistry) : Segment :=
  if validPrompt 32000 prepared then
    if starts then
      let pid := s.processes.length
      ({ s.update ref fun r => { r with state := .running, running := some pid } with
          processes := s.processes.start ref }, [.sendProcess ref pid])
    else (s.update ref fun r => { r with state := .running }, [])
  else (s, [])

def send (sessionId prompt : String) (starts : Bool) (s : ExecutorRegistry) : Segment :=
  match s.requiredSession sessionId with
  | none => (s, [])
  | some (ref, record) =>
    if record.state ≠ .disposed ∧ record.state ≠ .running ∧ validPrompt 20000 prompt
        ∧ (record.nativeSessionId.isSome → record.provider.canResume) then
      let s' := s.update ref fun r => { r with interruptRequested := false, lastError := none }
      if H.preparesPrompt then (s', [.sendPrompt ref]) else startProcess ref prompt starts s'
    else (s, [])

/-- How a completed process changes the record of its session. -/
def conclude (ref : ℕ) (record : SessionRecord) (result : ProcessResult) (s : ExecutorRegistry) :
    ExecutorRegistry :=
  let failed (error : ExecutorLastError) (t : ExecutorRegistry) :=
    t.update ref fun r => { r with state := .failed, lastError := some error }
  if record.interruptRequested then
    s.update ref fun r => { r with state := .interrupted, lastError := some .interrupted }
  else if result.exitCode ≠ some 0 ∨ result.signalled ∨ result.error.isSome then
    failed (match result.error with
      | some .outputLimit => .outputLimit
      | some (.spawn _) => .spawnFailed
      | none => .processFailed) s
  else
    let bound := match (record.nativeSessionId <|>
        H.extractNativeSessionId record.provider result.stdout).filter (· ≠ "") with
      | some nativeSessionId => bindNativeSession ref record nativeSessionId s
      | none => .ok s
    match bound with
    | .error _ => failed .processFailed s
    | .ok s' =>
      match H.extractFinalText record.provider result.stdout with
      | .ok (some _) => s'.update ref fun r => { r with state := .completed }
      | _ => failed .processFailed s'

/-- `send` once its process has completed. -/
def completed (ref : ℕ) (result : ProcessResult) (s : ExecutorRegistry) : ExecutorRegistry :=
  let s' := s.update ref fun r => { r with running := none }
  match s'.records[ref]? with
  | none => s'
  | some record => if record.disposed then s' else conclude H ref record result s'

def interruptProcess (ref pid : ℕ) (s : ExecutorRegistry) : ExecutorRegistry :=
  { s.update ref fun r => { r with interruptRequested := true } with
      processes := s.processes.signal pid }

def interrupt (sessionId : String) (s : ExecutorRegistry) : ExecutorRegistry :=
  match s.requiredSession sessionId with
  | some (ref, record) =>
    match record.state, record.running with
    | .running, some pid => interruptProcess ref pid s
    | _, _ => s
  | none => s

def disposedRecord (record : SessionRecord) : SessionRecord :=
  { record with state := .disposed, disposed := true, running := none }

def stopProcess (ref : ℕ) (record : SessionRecord) (s : ExecutorRegistry) : ExecutorRegistry :=
  match record.running with
  | some pid => interruptProcess ref pid s
  | none => s

def dispose (sessionId : String) (s : ExecutorRegistry) : Segment :=
  match s.requiredSession sessionId with
  | none => (s, [])
  | some (ref, record) =>
    let s' := stopProcess ref record s
    let s'' := { s'.update ref disposedRecord with
        sessions := s'.sessions.filter fun e => e.1 ≠ sessionId }
    (releaseNativeSession record s'', [.disposeResources ref])

/-- The first part of `disposeSessionResources`. -/
def releaseSession (ref : ℕ) (s : ExecutorRegistry) : ExecutorRegistry :=
  match s.records[ref]? with
  | some record => releaseNativeSession record s
  | none => s

def disposeAll (s : ExecutorRegistry) : Segment :=
  let refs := s.sessions.map Prod.snd
  let s' := refs.foldl (fun t ref => t.update ref disposedRecord) s
  (refs.foldl (fun t ref => releaseSession ref t) { s' with sessions := [], sweeping := true },
    [.disposeAllResources refs])

def runningPids (ps : Processes ℕ) : List ℕ :=
  (List.range ps.length).filter fun pid => decide (ps.Running pid)

/-- `host.dispose` sends a signal to every process that has not completed. -/
def disposeHost (s : ExecutorRegistry) : Segment :=
  let pids := runningPids s.processes
  ({ s with processes := pids.foldl (fun ps pid => ps.signal pid) s.processes },
    [.disposeHost pids])

def call : Call → ExecutorRegistry → Segment
  | .create provider sessionId => create provider sessionId
  | .send sessionId prompt starts => send H sessionId prompt starts
  | .interrupt sessionId => fun s => (interrupt sessionId s, [])
  | .dispose sessionId => dispose sessionId
  | .disposeAll => disposeAll
  | .exit pid => fun s => ({ s with processes := s.processes.exit pid }, [])

def resume : Pending → Reply → ExecutorRegistry → Option Segment
  | .createProfile provider sessionId, .profile succeeded, s =>
    if succeeded then some (s, [.createProbe provider sessionId])
    else some (createDone sessionId s, [])
  | .createProbe provider sessionId, .probed available mcp, s =>
    if available = false then some (createDone sessionId s, [])
    else if mcp ∨ provider = .deepseek then
      some (s, [.createResources provider sessionId mcp])
    else some (register provider sessionId mcp s, [])
  | .createResources provider sessionId mcp, .resources succeeded, s =>
    if succeeded then some (register provider sessionId mcp s, [])
    else some (s, [.createCleanup sessionId])
  | .createCleanup sessionId, .released _, s => some (createDone sessionId s, [])
  | .sendPrompt ref, .prompt prepared starts, s =>
    match prepared with
    | some text => some (startProcess ref text starts s)
    | none => some (s, [])
  | .sendProcess ref pid, .completed result, s =>
    if s.processes.Exited pid then some (completed H ref result s, []) else none
  | .disposeResources _, .released _, s => some (s, [])
  | .disposeAllResources _, .released _, s => some (disposeHost s)
  | .disposeHost pids, .released _, s =>
    if ∀ pid ∈ pids, s.processes.Exited pid then some ({ s with swept := true }, []) else none
  | _, _, _ => none

def program : Program ExecutorRegistry Call Pending Reply := ⟨call H, resume H⟩

end ExecutorRegistry

end Catomicals.Desktop
