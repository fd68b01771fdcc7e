import Catomicals.Desktop.WalletSupervisor

/-!
# The supervisor of the personal signer process

`desktop/src/signers/personal-supervisor.ts`. Every configuration begins a generation: it stops the
child, writes the configuration, spawns a new child and waits for its ready line. Every await is a
continuation; the file operations of one function are one await.
-/
namespace Catomicals.Desktop

open Base

inductive PersonalSignerErrorCode where
  | provisioningPermissions | provisioningInvalid | configWriteFailed | spawnFailed | readyInvalid
  | readyTimeout | profileUnavailable | onepasswordUnavailable | secureEnclaveUnavailable
  | certificateUnavailable | listenerUnavailable | transportStopped | processFailed

structure PersonalSignerRuntimeSettings where
  protocol : String
  (signingRounds roundTimeoutMs sessionTimeoutMs : ℤ)
  chainScope : Option ChainScopeDocument
  signingSuiteId : Option String
deriving DecidableEq

inductive PersonalSignerStatus where
  | unconfigured
  | starting (generation : ℕ)
  | ready (generation : ℕ)
  | failed (errorCode : PersonalSignerErrorCode) (generation : ℕ)
  | stopped (generation : ℕ)

def defaultChainScope : ChainScopeDocument := ⟨1, "bitcoin", "bitcoin.signet"⟩

def defaultSigningSuite : String := "btc.bip340.frost-secp256k1-tr.v1"

variable (input : PersonalSignerRuntimeSettings)

def signingContract : Except String (ChainScopeDocument × String) := do
  let chainScope := input.chainScope.getD defaultChainScope
  let signingSuiteId := input.signingSuiteId.getD defaultSigningSuite
  require (chainScope.schemaVersion = 1 ∧ chainScope.chain = "bitcoin"
      ∧ chainScope.network.startsWith "bitcoin." ∧ signingSuiteId = defaultSigningSuite
    ∨ chainScope.schemaVersion = 1 ∧ chainScope.chain = "fractal-bitcoin"
      ∧ chainScope.network.startsWith "fractal-bitcoin."
      ∧ signingSuiteId = "fractal-bitcoin.bip340.frost-secp256k1-tr.v1")
    "personal signer backend does not implement the selected signing suite"
  pure (chainScope, signingSuiteId)

def validateRuntime : Except String (ChainScopeDocument × String) := do
  require (input.protocol = "frost-secp256k1-tr-v1" ∧ input.signingRounds = 2
    ∧ 1000 ≤ input.roundTimeoutMs ∧ input.roundTimeoutMs ≤ 120000
    ∧ input.roundTimeoutMs * 2 ≤ input.sessionTimeoutMs ∧ input.sessionTimeoutMs ≤ 900000)
    "invalid personal signer runtime settings"
  signingContract input

/-- The settings with the contract they select, by which a configuration is remembered. -/
def settingsKey : Except String PersonalSignerRuntimeSettings := do
  let (chainScope, signingSuiteId) ← validateRuntime input
  pure { input with chainScope := some chainScope, signingSuiteId := some signingSuiteId }

def includes (value part : String) : Bool := decide (part.toList <:+: value.toList)

def mappedStderr (value : String) : PersonalSignerErrorCode :=
  if includes value "1Password signer package" then .onepasswordUnavailable
  else if includes value "Secure Enclave"
    || includes value "device signer package could not be opened" then .secureEnclaveUnavailable
  else if includes value "personal signer profile" then .profileUnavailable
  else if includes value "signer certificate"
    || includes value "signer transport configuration" then .certificateUnavailable
  else if includes value "signer listener could not start" then .listenerUnavailable
  else if includes value "signer transport stopped" then .transportStopped
  else .processFailed

/-- The fields of the supervisor, the processes spawned, and whether a `dispose` has resolved. -/
structure PersonalSignerSupervisor where
  child : Option ℕ
  statusValue : PersonalSignerStatus
  (activeKey pendingKey : Option PersonalSignerRuntimeSettings)
  pending : Option ℕ
  generation : ℕ
  (disposed disposeResolved : Bool)
  processes : Processes PersonalSignerRuntimeSettings

def PersonalSignerSupervisor.fresh : PersonalSignerSupervisor :=
  ⟨none, .unconfigured, none, none, none, 0, false, false, []⟩

namespace PersonalSignerSupervisor

inductive Purpose where
  | unconfigured (generation : ℕ)
  | activation (key : PersonalSignerRuntimeSettings) (generation : ℕ)
  | disposal
deriving DecidableEq

/-- Where a task of the supervisor goes on, with the variables it still uses. -/
inductive Pending where
  | provisioning (key : PersonalSignerRuntimeSettings) (generation : ℕ)
  | stopTerm (purpose : Purpose) (child : ℕ)
  | stopKill (purpose : Purpose)
  | stopped (purpose : Purpose)
  | writingConfig (key : PersonalSignerRuntimeSettings) (generation : ℕ)
  | configOpened (key : PersonalSignerRuntimeSettings) (generation : ℕ)
  | closingIdle (generation : ℕ)
  | closing (key : PersonalSignerRuntimeSettings) (generation child : ℕ)
  | listening (key : PersonalSignerRuntimeSettings) (generation child : ℕ) (ready completed : Bool)
  | activated (key : PersonalSignerRuntimeSettings) (generation : ℕ) (ready : Bool)
  | finished (generation : ℕ)
deriving DecidableEq

inductive Provisioning where
  | permissions | invalid | missing | found

/-- What an awaited step returned, or what a listener of a child is told. -/
inductive Reply where
  | provisioned (result : Provisioning)
  | raced (closed : Bool)
  | wrote (succeeded : Bool)
  | hooked (succeeded spawns : Bool)
  | closedFile
  | readyLine (accepted : Bool)
  | readyTimeout
  | childError
  | childClosed (code : Option ℕ) (stderr : String)
  | settled

/-- The calls on the supervisor, and the exit of a process. -/
inductive Call where
  | configure (runtime : PersonalSignerRuntimeSettings)
  | dispose
  | exit (pid : ℕ)

/-- What a part of a task leaves: the supervisor, and the continuations that wait. -/
abbrev Segment := PersonalSignerSupervisor × List Pending

def finishFailure (generation : ℕ) (errorCode : PersonalSignerErrorCode)
    (s : PersonalSignerSupervisor) : PersonalSignerSupervisor :=
  if generation = s.generation then { s with statusValue := .failed errorCode generation } else s

def stopChild (purpose : Purpose) (s : PersonalSignerSupervisor) : Segment :=
  match s.child with
  | none => (s, [.stopped purpose])
  | some child =>
    ({ s with child := none, processes := s.processes.signal child }, [.stopTerm purpose child])

/-- What the callers of `stopChild` do when it has returned. -/
def afterStop (purpose : Purpose) (s : PersonalSignerSupervisor) : Segment :=
  match purpose with
  | .unconfigured generation =>
    ({ s with activeKey := none, statusValue := .unconfigured }, [.finished generation])
  | .activation key generation => (s, [.writingConfig key generation])
  | .disposal => ({ s with statusValue := .stopped s.generation, disposeResolved := true }, [])

def configure (runtime : PersonalSignerRuntimeSettings) (s : PersonalSignerSupervisor) : Segment :=
  if s.disposed then (s, [])
  else
    match settingsKey runtime with
    | .error _ => (s, [])
    | .ok key =>
      if s.pendingKey = some key ∧ s.pending.isSome then (s, [])
      else if s.activeKey = some key then (s, [])
      else
        let generation := s.generation + 1
        ({ s with generation, pendingKey := some key, pending := some generation },
          [.provisioning key generation])

/-- A second call returns at once, so it has resolved. -/
def dispose (s : PersonalSignerSupervisor) : Segment :=
  if s.disposed then ({ s with disposeResolved := true }, [])
  else stopChild .disposal
    { s with disposed := true, generation := s.generation + 1, activeKey := none }

def call : Call → PersonalSignerSupervisor → Segment
  | .configure runtime => configure runtime
  | .dispose => dispose
  | .exit pid => fun s => ({ s with processes := s.processes.exit pid }, [])

variable (key : PersonalSignerRuntimeSettings) (generation : ℕ)

def provisioned (result : Provisioning) (s : PersonalSignerSupervisor) : Segment :=
  match result with
  | .permissions => (finishFailure generation .provisioningPermissions s, [.finished generation])
  | .invalid => (finishFailure generation .provisioningInvalid s, [.finished generation])
  | .missing => stopChild (.unconfigured generation) s
  | .found =>
    if s.disposed ∨ generation ≠ s.generation then (s, [.finished generation])
    else stopChild (.activation key generation) s

/-- `activate` after the verified open of the configuration: the file is closed before the task goes
on and records the child. -/
def configOpened (succeeded spawns : Bool) (s : PersonalSignerSupervisor) : Segment :=
  if succeeded = false ∨ s.disposed ∨ generation ≠ s.generation then
    (s, [.closingIdle generation])
  else if spawns then
    ({ s with statusValue := .starting generation, processes := s.processes.start key },
      [.closing key generation s.processes.length])
  else
    (finishFailure generation .spawnFailed { s with statusValue := .starting generation },
      [.closingIdle generation])

variable (child : ℕ)

def dropChild (s : PersonalSignerSupervisor) : PersonalSignerSupervisor :=
  { s with child := if s.child = some child then none else s.child }

def failReady (completed : Bool) (errorCode : PersonalSignerErrorCode)
    (s : PersonalSignerSupervisor) : Segment :=
  if completed then (s, [])
  else
    let s' := finishFailure generation errorCode (dropChild child s)
    ({ s' with processes := s'.processes.signal child }, [.activated key generation false])

def acceptReady (completed : Bool) (s : PersonalSignerSupervisor) : Segment :=
  (if generation = s.generation then { s with statusValue := .ready generation } else s,
    if completed then [] else [.activated key generation true])

def childClosed (ready completed : Bool) (code : Option ℕ) (stderr : String)
    (s : PersonalSignerSupervisor) : Segment :=
  let s' := dropChild child s
  if ready = false then
    failReady key generation child completed
      (if code = some 0 then .processFailed else mappedStderr stderr) s'
  else if s'.disposed = false ∧ generation = s'.generation then
    ({ s' with activeKey := none, statusValue := .failed (mappedStderr stderr) generation }, [])
  else (s', [])

def keepListening (k : Pending) (r : Segment) : Option Segment := some (r.1, k :: r.2)

/-- The listeners of `awaitReady`: the output's is removed after an accepted ready line, the timer
once the result is known, and the end of the child is heard last. -/
def listening (ready completed : Bool) : Reply → PersonalSignerSupervisor → Option Segment
  | .readyLine accepted, s =>
    if ready then none
    else if accepted then
      keepListening (.listening key generation child true true)
        (acceptReady key generation completed s)
    else
      keepListening (.listening key generation child ready true)
        (failReady key generation child completed .readyInvalid s)
  | .readyTimeout, s =>
    if completed then none
    else
      keepListening (.listening key generation child ready true)
        (failReady key generation child completed .readyTimeout s)
  | .childError, s =>
    keepListening (.listening key generation child ready true)
      (failReady key generation child completed .spawnFailed s)
  | .childClosed code stderr, s =>
    if s.processes.Exited child then
      some (childClosed key generation child ready completed code stderr s)
    else none
  | _, _ => none

def resume : Pending → Reply → PersonalSignerSupervisor → Option Segment
  | .provisioning key generation, .provisioned result, s =>
    some (provisioned key generation result s)
  | .stopTerm purpose child, .raced closed, s =>
    if closed then
      if s.processes.Exited child then some (s, [.stopped purpose]) else none
    else some ({ s with processes := s.processes.signal child }, [.stopKill purpose])
  | .stopKill purpose, .raced _, s => some (s, [.stopped purpose])
  | .stopped purpose, .settled, s => some (afterStop purpose s)
  | .writingConfig key generation, .wrote succeeded, s =>
    if succeeded then some (s, [.configOpened key generation])
    else some (finishFailure generation .configWriteFailed s, [.finished generation])
  | .configOpened key generation, .hooked succeeded spawns, s =>
    some (configOpened key generation succeeded spawns s)
  | .closingIdle generation, .closedFile, s => some (s, [.finished generation])
  | .closing key generation child, .closedFile, s =>
    some ({ s with child := some child }, [.listening key generation child false false])
  | .listening key generation child ready completed, reply, s =>
    listening key generation child ready completed reply s
  | .activated key generation ready, .settled, s =>
    some ({ s with activeKey := if ready then some key else s.activeKey }, [.finished generation])
  | .finished generation, .settled, s =>
    if s.pending = some generation then some ({ s with pending := none, pendingKey := none }, [])
    else some (s, [])
  | _, _, _ => none

def program : Program PersonalSignerSupervisor Call Pending Reply := ⟨call, resume⟩

end PersonalSignerSupervisor

end Catomicals.Desktop
