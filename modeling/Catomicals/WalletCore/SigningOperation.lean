import Catomicals.WalletCore.SigningStore

/-!
# The personal signing coordinator

The coordinator keeps a session machine for each live operation. Every call asks the machine first
and the store afterwards, and a call that fails in between leaves what it has done to the machine.
-/
namespace Catomicals.WalletCore

open Base Method WalletStorage ThresholdSigner ThresholdSessionMachine

structure BeginPersonalSigningOperation where
  (operationId intentId : Uuid)
  (sessionId taprootSighash policyDigest chainSnapshotDigest : Bytes32)
  selectedParticipants : UInt16 × UInt16
  expiresAt : Time

structure PersonalRoundOneDispatch where
  signerId : UInt16
  context : SignerRequestContext

structure PersonalRoundTwoDispatch where
  signerId : UInt16
  context : SignerRequestContext
  signingPackageHex : String

structure PersonalAbortDispatch where
  signerId : UInt16
  context : SignerRequestContext
  reasonCode : String
  deriving DecidableEq

structure PersonalSigningTermination where
  status : OperationStatus
  aborts : List PersonalAbortDispatch
  deriving DecidableEq

inductive PersonalSigningRecovery where
  | readyToFinalize
  | resumeRoundTwo (dispatches : List PersonalRoundTwoDispatch)
  | finalized (signature : Bytes)
  | terminatedInterruptedCommitmentRound
  | terminal (status : OperationStatus)

structure PersonalOperationAuthorization where
  authorizationId : Uuid
  operationBindingDigest : Bytes32
  consumed : Bool

namespace PersonalOperationAuthorization

def validate (a : PersonalOperationAuthorization) (expectedBindingDigest : Bytes32) :
    Except GateError Unit := do
  require (a.consumed = false) .nonceReused
  require (a.operationBindingDigest = expectedBindingDigest) .personalOperationMismatch

def consumeAfterCommit (a : PersonalOperationAuthorization) : PersonalOperationAuthorization :=
  { a with consumed := true }

end PersonalOperationAuthorization

def personalOperationBindingDigest (P : WalletStorage.Platform) (profile : PersonalSignerProfile)
    (request : BeginPersonalSigningOperation) : Bytes32 :=
  P.sha256 ("catomicals/personal-signing-operation/v1\x00".toUTF8.toList ++
    (profile.bindingDigest P).bytes ++ profile.walletId.bytes ++ profile.profileId.bytes ++
    profile.signerSetId.bytes ++ beBytes 8 profile.signerEpoch.toNat ++
    profile.groupPubkeyXonly.bytes ++ request.operationId.bytes ++ request.intentId.bytes ++
    request.sessionId.bytes ++ request.taprootSighash.bytes ++ request.policyDigest.bytes ++
    request.chainSnapshotDigest.bytes ++ beBytes 2 1 ++ beBytes 2 2 ++ beBytes 2 3 ++
    beBytes 2 request.selectedParticipants.1.toNat ++
    beBytes 2 request.selectedParticipants.2.toNat ++ beBytes 2 profile.minSigners.toNat ++
    beBytes 2 profile.maxSigners.toNat ++ timeBytes request.expiresAt)

variable (pair : UInt16 × UInt16)

def validatePair : Except PersonalSigningError Unit :=
  require (pair = (1, 2) ∨ pair = (1, 3) ∨ pair = (2, 3)) .invalidParticipantPair

def pairSigners : List UInt16 := [pair.1, pair.2]

def sortedSigners : List UInt16 :=
  if pair.1 < pair.2 then [pair.1, pair.2]
  else if pair.2 < pair.1 then [pair.2, pair.1]
  else [pair.1]

def requestContext (operation : OperationRow) (identity : ProviderIdentity)
    (requestNonce : Bytes32) : SignerRequestContext where
  protocolVersion := signerProviderProtocolVersion
  walletId := operation.walletId
  signerSetId := operation.signerSetId
  signerEpoch := operation.signerEpoch
  signerId := identity.signerId
  deviceId := identity.deviceId
  deviceGeneration := identity.deviceGeneration
  operationId := operation.operationId
  intentId := operation.intentId
  sessionId := operation.sessionId
  taprootSighash := operation.taprootSighash
  policyDigest := operation.policyDigest
  groupPubkeyXonly := operation.groupPubkeyXonly
  verifyingShareDigest := identity.verifyingShareDigest
  minSigners := operation.threshold
  maxSigners := operation.maxSigners
  chainSnapshotDigest := operation.chainSnapshotDigest
  requestNonce := requestNonce
  expiresAt := operation.expiresAt

def identitiesMatchProfile (profile : PersonalSignerProfile)
    (identities : Table UInt16 ProviderIdentity) : Bool :=
  profile.participants.all fun participant =>
    match identities.get participant.signerId with
    | none => false
    | some identity =>
      identity.walletId = profile.walletId ∧ identity.signerSetId = profile.signerSetId ∧
        identity.signerEpoch = profile.signerEpoch ∧
        identity.groupPubkeyXonly = profile.groupPubkeyXonly ∧
        identity.verifyingShareDigest = participant.verifyingShareDigest

def validateRecoveredReceipt (operation : OperationRow)
    (identities : Table UInt16 ProviderIdentity) (receipt : ReceiptRow) :
    Except PersonalSigningError Unit := do
  let identity ← orError (identities.get receipt.signerId) .providerIdentityDrift
  require ((receipt.signerId = operation.selectedParticipants.1 ∨
      receipt.signerId = operation.selectedParticipants.2) ∧
    receipt.deviceId = identity.deviceId ∧
    receipt.deviceGeneration = identity.deviceGeneration ∧
    receipt.receivedAt ≤ operation.expiresAt) .providerIdentityDrift

variable (identities : Table UInt16 ProviderIdentity)

def boundParticipant (operationBinding : Bytes32)
    (signerId : UInt16) : Except PersonalSigningError BoundParticipant := do
  let identity ← orError (identities.get signerId) .providerIdentityDrift
  return ⟨signerId, identity.deviceId, identity.deviceGeneration, operationBinding⟩

def boundParticipants (selected : UInt16 × UInt16) (operationBinding : Bytes32) :
    Except PersonalSigningError (Table UInt16 BoundParticipant) := do
  let first ← boundParticipant identities operationBinding selected.1
  let second ← boundParticipant identities operationBinding selected.2
  return (Table.empty.put selected.1 first).put selected.2 second

def requestContexts (operation : OperationRow) (draw : UInt16 → Bytes32) (signers : List UInt16) :
    Except PersonalSigningError (Table UInt16 SignerRequestContext) :=
  signers.foldlM (fun contexts signerId => do
    let identity ← orError (identities.get signerId) .providerIdentityDrift
    return contexts.put signerId (requestContext operation identity (draw signerId))) .empty

def roundOneDispatches (contexts : Table UInt16 SignerRequestContext) :
    List PersonalRoundOneDispatch :=
  (sortedSigners pair).filterMap fun signerId =>
    (contexts.get signerId).map fun context => ⟨signerId, context⟩

def roundTwoDispatches (contexts : Table UInt16 SignerRequestContext)
    (signingPackageHex : String) : List PersonalRoundTwoDispatch :=
  (sortedSigners pair).filterMap fun signerId =>
    (contexts.get signerId).map fun context => ⟨signerId, context, signingPackageHex⟩

/-- The abort requests to the two signers. -/
def abortDispatches (operation : OperationRow) (draw : UInt16 → Bytes32) (reasonCode : String) :
    Except PersonalSigningError (List PersonalAbortDispatch) :=
  (pairSigners operation.selectedParticipants).mapM fun signerId => do
    let identity ← orError (identities.get signerId) .providerIdentityDrift
    return ⟨signerId, requestContext operation identity (draw signerId), reasonCode⟩

variable (S : CoordinatorSuite)

/-- A record with its machine and the open requests. -/
structure LiveOperation where
  record : OperationRow
  machine : S.Machine
  participants : Table UInt16 BoundParticipant
  (roundOneContexts roundTwoContexts : Table UInt16 SignerRequestContext)

structure PreparedOperation where
  record : NewPersonalSigningOperation
  machine : S.Machine
  participants : Table UInt16 BoundParticipant

/-- The operations of a profile that are live in this process. -/
structure PersonalSigningCoordinator (K : PersonalSigningStore) where
  profile : PersonalSignerProfile
  identities : Table UInt16 ProviderIdentity
  store : K.State
  operations : Table Uuid (LiveOperation S)

variable {S : CoordinatorSuite} {K : PersonalSigningStore} {α : Type}

def runMachine (x : ThresholdSessionMachine.Action S.toFrostSuite α) (m : S.Machine) :
    Except PersonalSigningError (α × S.Machine) :=
  match x m with
  | (.ok a, m') => .ok (a, m')
  | (.error e, _) => .error (.machine e)

def newMachine (profile : PersonalSignerProfile) (sessionId message policyDigest : Bytes32)
    (minSigners : UInt16) (deadline : Time) (selected : UInt16 × UInt16)
    (participants : Table UInt16 BoundParticipant) (now : Time) :
    Except PersonalSigningError S.Machine := do
  let keys ← (profile.publicKeys S).mapError .signing
  (new sessionId message policyDigest minSigners deadline
    ((sortedSigners selected).filterMap participants.get) keys now).mapError .machine

namespace PersonalSigningCoordinator

abbrev Action (S : CoordinatorSuite) (K : PersonalSigningStore) (α : Type) :=
  Method (PersonalSigningCoordinator S K) PersonalSigningError α

def new (profile : PersonalSignerProfile) (identities : List ProviderIdentity) (store : K.State) :
    Except PersonalSigningError (PersonalSigningCoordinator S K) := do
  let identities : Table UInt16 ProviderIdentity :=
    Table.empty.applyAll (identities.map fun identity => .put identity.signerId identity)
  require (identities.card = 3 ∧ identitiesMatchProfile profile identities = true)
    .providerIdentityDrift
  return ⟨profile, identities, store, .empty⟩

variable (c : PersonalSigningCoordinator S K)

def setStore (store : K.State) : PersonalSigningCoordinator S K :=
  { c with store := store }

def insertOperation (operationId : Uuid)
    (operation : LiveOperation S) : PersonalSigningCoordinator S K :=
  { c with operations := c.operations.put operationId operation }

/-- Change the live operation with an id, if there is one. -/
def updateOperation (operationId : Uuid)
    (f : LiveOperation S → LiveOperation S) : PersonalSigningCoordinator S K :=
  match c.operations.get operationId with
  | none => c
  | some operation => c.insertOperation operationId (f operation)

def onStore (x : Method K.State PersonalSigningError α) : Action S K α :=
  zoom store setStore id x

variable (operationId : Uuid)

def liveOperation : Action S K (LiveOperation S) := do
  let c ← get
  lift (orError (c.operations.get operationId) .operationNotFound)

def onMachine (operation : LiveOperation S)
    (x : ThresholdSessionMachine.Action S.toFrostSuite α) : Action S K α :=
  zoom (fun _ => operation.machine)
    (fun c machine => c.updateOperation operationId fun o => { o with machine := machine })
    .machine x

def setRecord (f : OperationRow → OperationRow) : Action S K Unit :=
  modify fun c => c.updateOperation operationId fun o => { o with record := f o.record }

def newRecord (S : CoordinatorSuite) (profile : PersonalSignerProfile)
    (request : BeginPersonalSigningOperation) (now : Time) : NewPersonalSigningOperation where
  operationId := request.operationId
  walletId := profile.walletId
  profileId := profile.profileId
  signerSetId := profile.signerSetId
  signerEpoch := profile.signerEpoch
  intentId := request.intentId
  sessionId := request.sessionId
  taprootSighash := request.taprootSighash
  policyDigest := request.policyDigest
  chainSnapshotDigest := request.chainSnapshotDigest
  groupPubkeyXonly := profile.groupPubkeyXonly
  profileBindingDigest := profile.bindingDigest S.toPlatform
  operationBindingDigest := personalOperationBindingDigest S.toPlatform profile request
  allowedParticipants := (1, 2, 3)
  selectedParticipants := request.selectedParticipants
  threshold := profile.minSigners
  maxSigners := profile.maxSigners
  expiresAt := request.expiresAt
  createdAt := now

/-- Everything that is checked before the store is written. -/
def prepareOperation (request : BeginPersonalSigningOperation) (now : Time) :
    Action S K (PreparedOperation S) := do
  let c ← get
  lift (require ((c.operations.get request.operationId).isNone = true)
    .operationAlreadyActive)
  let stored ← onStore (K.operation request.operationId)
  lift (require (stored = none) .operationAlreadyActive)
  lift (validatePair request.selectedParticipants)
  lift (require (now < request.expiresAt) .expired)
  let participants ← lift (boundParticipants c.identities request.selectedParticipants
    (personalOperationBindingDigest S.toPlatform c.profile request))
  let machine ← lift (newMachine c.profile request.sessionId request.taprootSighash
    request.policyDigest c.profile.minSigners request.expiresAt request.selectedParticipants
    participants now)
  return ⟨newRecord S c.profile request now, machine, participants⟩

def activatePrepared (durable : OperationRow) (prepared : PreparedOperation S)
    (draw : UInt16 → Bytes32) : Action S K (List PersonalRoundOneDispatch) := do
  lift (require
    (durable.operationBindingDigest = prepared.record.operationBindingDigest ∧
      durable.status = .collectingCommitments) .responseBindingMismatch)
  let c ← get
  let contexts ← lift (requestContexts c.identities durable draw
    (pairSigners durable.selectedParticipants))
  modify fun c => c.insertOperation operationId
    ⟨durable, prepared.machine, prepared.participants, contexts, .empty⟩
  return roundOneDispatches durable.selectedParticipants contexts

/-- A call of the coordinator while the capability of its caller is held. -/
def holding (x : Action S K α) :
    Method (PersonalSigningCoordinator S K × PersonalOperationAuthorization) PersonalSigningError
      α :=
  zoom Prod.fst (fun s c => (c, s.2)) id x

/-- The store spends the authorization before it is marked consumed. -/
def beginAuthorized (request : BeginPersonalSigningOperation) (now : Time)
    (draw : UInt16 → Bytes32) :
    Method (PersonalSigningCoordinator S K × PersonalOperationAuthorization) PersonalSigningError
      (List PersonalRoundOneDispatch) := do
  let prepared ← holding (prepareOperation request now)
  let (_, authorization) ← get
  lift ((authorization.validate prepared.record.operationBindingDigest).mapError
    .authorization)
  let durable ← holding (onStore
    (K.createAuthorizedOperation authorization.authorizationId prepared.record now))
  modify fun (c, authorization) => (c, authorization.consumeAfterCommit)
  holding (activatePrepared request.operationId durable prepared draw)

variable (signerId : UInt16)

def receiptFor (round : SigningRound) (context : SignerRequestContext)
    (requestBindingDigest : Bytes32) (payload : Bytes) (now : Time) : ReceiptRow :=
  ⟨operationId, signerId, round, context.deviceId, context.deviceGeneration,
    requestBindingDigest, payload, now⟩

/-- The machine takes the commitment before the store its receipt. -/
def acceptRoundOne (response : SignerRoundOneResponse) (now : Time) : Action S K Unit := do
  let operation ← liveOperation operationId
  let context ← lift
    (orError (operation.roundOneContexts.get signerId) .responseBindingMismatch)
  lift (require
    (response.requestBindingDigest = bindingDigest S.toPlatform context) .responseBindingMismatch)
  let payload ← lift
    (orError (S.decodeHex response.commitmentHex) .responseBindingMismatch)
  let commitment ← lift
    (orError (S.deserializeCommitments payload) .responseBindingMismatch)
  let participant ← lift
    (orError (operation.participants.get signerId) .providerIdentityDrift)
  onMachine operationId operation
    (addCommitment participant commitment now)
  onStore (K.recordReceipt (receiptFor operationId signerId .commitment context
    response.requestBindingDigest payload now))
  modify fun c => c.updateOperation operationId fun o =>
    { o with roundOneContexts := o.roundOneContexts.delete signerId }

/-- The machine freezes before the record. -/
def freezeCommitments (now : Time) (draw : UInt16 → Bytes32) :
    Action S K (List PersonalRoundTwoDispatch) := do
  let operation ← liveOperation operationId
  lift (require (operation.roundOneContexts.card = 0) .wrongPhase)
  let session ← onMachine operationId operation (ThresholdSessionMachine.freezeCommitments now)
  let signingPackage ← lift
    ((S.serializePackage session.signingPackage).mapError .signing)
  onStore (K.freeze operationId operation.record.operationBindingDigest signingPackage now)
  setRecord operationId (frozenRow signingPackage now)
  let c ← get
  let contexts ← lift (requestContexts c.identities
    (frozenRow signingPackage now operation.record) draw
    (pairSigners operation.record.selectedParticipants))
  modify fun c => c.updateOperation operationId fun o =>
    { o with roundTwoContexts := contexts }
  return roundTwoDispatches operation.record.selectedParticipants contexts
    (S.encodeHex signingPackage)

/-- The machine takes the share before the store its receipt. -/
def acceptRoundTwo (response : SignerRoundTwoResponse) (now : Time) : Action S K Unit := do
  let operation ← liveOperation operationId
  let context ← lift
    (orError (operation.roundTwoContexts.get signerId) .responseBindingMismatch)
  lift (require
    (response.requestBindingDigest = bindingDigest S.toPlatform context) .responseBindingMismatch)
  let payload ← lift
    (orError (S.decodeHex response.signatureShareHex) .responseBindingMismatch)
  let share ← lift (orError (S.deserializeShare payload) .responseBindingMismatch)
  let participant ← lift
    (orError (operation.participants.get signerId) .providerIdentityDrift)
  onMachine operationId operation
    (addSignatureShare participant share now)
  onStore (K.recordReceipt (receiptFor operationId signerId .signatureShare context
    response.requestBindingDigest payload now))
  modify fun c => c.updateOperation operationId fun o =>
    { o with roundTwoContexts := o.roundTwoContexts.delete signerId }

/-- The machine is finalized before the record. -/
def finalize (now : Time) : Action S K Bytes := do
  let operation ← liveOperation operationId
  lift (require (operation.roundTwoContexts.card = 0) .wrongPhase)
  let signature ← onMachine operationId operation (ThresholdSessionMachine.finalize now)
  let bytes ← lift ((signatureToBytes S signature).mapError .signing)
  onStore (K.complete operationId operation.record.operationBindingDigest bytes now)
  setRecord operationId (completedRow bytes now)
  return bytes

/-- The machine expires before the record. -/
def expire (now : Time) (draw : UInt16 → Bytes32) :
    Action S K (Option PersonalSigningTermination) := do
  let operation ← liveOperation operationId
  let expired ← onMachine operationId operation (ThresholdSessionMachine.expire now)
  if expired = false then
    return none
  else
    onStore (K.terminate operationId operation.record.operationBindingDigest .expired "deadline"
      now)
    setRecord operationId (terminatedRow .expired "deadline" now)
    let c ← get
    let aborts ← lift (abortDispatches c.identities
      (terminatedRow .expired "deadline" now operation.record) draw "deadline")
    return some ⟨.expired, aborts⟩

variable (record : OperationRow)

/-- A recorded commitment, taken again. -/
def replayCommitment (identities : Table UInt16 ProviderIdentity)
    (participants : Table UInt16 BoundParticipant) (now : Time)
    (machine : S.Machine) (receipt : ReceiptRow) :
    Except PersonalSigningError S.Machine := do
  validateRecoveredReceipt record identities receipt
  let commitment ← orError (S.deserializeCommitments receipt.payload) .responseBindingMismatch
  let participant ← orError (participants.get receipt.signerId) .providerIdentityDrift
  let (_, machine) ← runMachine
    (addCommitment participant commitment now) machine
  return machine

/-- A recorded share, taken again. -/
def replayShare (identities : Table UInt16 ProviderIdentity)
    (participants : Table UInt16 BoundParticipant) (now : Time)
    (machine : S.Machine) (receipt : ReceiptRow) :
    Except PersonalSigningError S.Machine := do
  validateRecoveredReceipt record identities receipt
  let share ← orError (S.deserializeShare receipt.payload) .responseBindingMismatch
  let participant ← orError (participants.get receipt.signerId) .providerIdentityDrift
  let (_, machine) ← runMachine
    (addSignatureShare participant share now) machine
  return machine

/-- The machine of an operation, rebuilt from its record and receipts, with its signing package. -/
def rebuildMachine (identities : Table UInt16 ProviderIdentity)
    (participants : Table UInt16 BoundParticipant) (receipts : List ReceiptRow) (now : Time)
    (machine : S.Machine) :
    Except PersonalSigningError (S.Machine × Bytes) := do
  let machine ← (receipts.filter (·.round = .commitment)).foldlM
    (replayCommitment record identities participants now) machine
  let (session, machine) ← runMachine (ThresholdSessionMachine.freezeCommitments now) machine
  let signingPackage ← (S.serializePackage session.signingPackage).mapError .signing
  require (record.signingPackage = some signingPackage) .responseBindingMismatch
  let machine ← (receipts.filter (·.round = .signatureShare)).foldlM
    (replayShare record identities participants now) machine
  return (machine, signingPackage)

/-- The part of `recover_operation` for an operation that collects shares. -/
def resumeShares (now : Time) (draw : UInt16 → Bytes32) : Action S K PersonalSigningRecovery := do
  let c ← get
  let participants ← lift (boundParticipants c.identities record.selectedParticipants
    record.operationBindingDigest)
  let machine ← lift (newMachine c.profile record.sessionId record.taprootSighash
    record.policyDigest record.threshold record.expiresAt record.selectedParticipants
    participants now)
  let receipts ← onStore (K.receipts operationId)
  let (machine, signingPackage) ← lift
    (rebuildMachine record c.identities participants receipts now machine)
  let completed := (receipts.filter (·.round = .signatureShare)).map ReceiptRow.signerId
  let contexts ← lift (requestContexts c.identities record draw
    ((pairSigners record.selectedParticipants).filter (· ∉ completed)))
  let dispatches := roundTwoDispatches record.selectedParticipants contexts
    (S.encodeHex signingPackage)
  modify fun c => c.insertOperation operationId
    ⟨record, machine, participants, .empty, contexts⟩
  if dispatches.isEmpty then
    return .readyToFinalize
  else
    return .resumeRoundTwo dispatches

def ofProfile (S : CoordinatorSuite) (profile : PersonalSignerProfile) (record : OperationRow) :
    Prop :=
  record.walletId = profile.walletId ∧ record.profileId = profile.profileId ∧
    record.signerSetId = profile.signerSetId ∧ record.signerEpoch = profile.signerEpoch ∧
    record.groupPubkeyXonly = profile.groupPubkeyXonly ∧
    record.profileBindingDigest = profile.bindingDigest S.toPlatform

instance (profile : PersonalSignerProfile) (record : OperationRow) :
    Decidable (ofProfile S profile record) := inferInstanceAs (Decidable (_ ∧ _))

/-- `recover_operation`, by the status of the record. -/
def recoverOperation (now : Time) (draw : UInt16 → Bytes32) :
    Action S K PersonalSigningRecovery := do
  let stored ← onStore (K.operation operationId)
  let record ← lift (orError stored .operationNotFound)
  let c ← get
  lift (require (ofProfile S c.profile record) .providerIdentityDrift)
  match record.status with
  | .finalized =>
    let signature ← lift (orError record.finalSignature .responseBindingMismatch)
    return .finalized signature
  | .aborted | .expired | .failed => return .terminal record.status
  | .collectingCommitments =>
    onStore (K.terminate operationId record.operationBindingDigest .aborted
      "restart_interrupted" now)
    return .terminatedInterruptedCommitmentRound
  | .collectingShares =>
    if record.expiresAt < now then
      onStore (K.terminate operationId record.operationBindingDigest .expired "deadline" now)
      return .terminal .expired
    else
      resumeShares operationId record now draw

/-- A call of the coordinator, with the nonces it draws. -/
inductive Call where
  | beginAuthorized (request : BeginPersonalSigningOperation)
      (authorization : PersonalOperationAuthorization) (now : Time) (draw : UInt16 → Bytes32)
  | acceptRoundOne (operationId : Uuid) (signerId : UInt16) (response : SignerRoundOneResponse)
      (now : Time)
  | freezeCommitments (operationId : Uuid) (now : Time) (draw : UInt16 → Bytes32)
  | acceptRoundTwo (operationId : Uuid) (signerId : UInt16) (response : SignerRoundTwoResponse)
      (now : Time)
  | finalize (operationId : Uuid) (now : Time)
  | expire (operationId : Uuid) (now : Time) (draw : UInt16 → Bytes32)
  | recoverOperation (operationId : Uuid) (now : Time) (draw : UInt16 → Bytes32)

inductive Reply where
  | begun (dispatches : List PersonalRoundOneDispatch)
  | accepted
  | frozen (dispatches : List PersonalRoundTwoDispatch)
  | finalized (signature : Bytes)
  | expired (termination : Option PersonalSigningTermination)
  | recovered (recovery : PersonalSigningRecovery)

def step : Call → Action S K Reply
  | .beginAuthorized request authorization now draw => do
    return .begun (← withLocal authorization (beginAuthorized request now draw))
  | .acceptRoundOne operationId signerId response now => do
    acceptRoundOne operationId signerId response now
    return .accepted
  | .freezeCommitments operationId now draw => do
    return .frozen (← freezeCommitments operationId now draw)
  | .acceptRoundTwo operationId signerId response now => do
    acceptRoundTwo operationId signerId response now
    return .accepted
  | .finalize operationId now => do return .finalized (← finalize operationId now)
  | .expire operationId now draw => do return .expired (← expire operationId now draw)
  | .recoverOperation operationId now draw => do
    return .recovered (← recoverOperation operationId now draw)

/-- The coordinator after some calls, whether they succeed or fail. -/
abbrev run (calls : List Call) : PersonalSigningCoordinator S K :=
  after step c calls

end PersonalSigningCoordinator

end Catomicals.WalletCore
