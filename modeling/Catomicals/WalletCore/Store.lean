import Catomicals.WalletCore.Intent
import Catomicals.WalletStorage.Store

/-!
# The storage port of the wallet

Any state with the calls of the port, every one of which may fail, is a store. The in-memory store
is one of them.
-/
namespace Catomicals.WalletCore

open Base Domain Method WalletStorage

inductive StorageMode where
  | compatibility | durable

/-- A failure of the store: a message of its own, or the text of a storage error. -/
inductive WalletStoreError where
  | new (message : String)
  | storage (e : WalletStorage.StorageError)
  /-- the text of a contract error -/
  | contract (e : SigningContractError)
  /-- the call did not return -/
  | panic (p : Panic)
  deriving DecidableEq

structure PasskeyState where
  (credentialId label passkeyJson format : String)
  recordVersion : ℕ
  enrolledAt : Time

structure WebauthnProfileState where
  (walletId userId : Uuid)
  (rpId rpOrigin : String)
  recordVersion : UInt64
  updatedAt : Time

structure ApprovalStartState where
  (ceremonyId intentId : Uuid)
  credentialId : String
  bindingDigest : Bytes32
  (startedAt expiresAt : Time)

structure ApprovalCompletionState where
  (ceremonyId intentId : Uuid)
  credentialId : String
  expectedCredentialRecordVersion : ℕ
  updatedPasskeyJson : String
  bindingDigest : Bytes32
  authorizationId : Uuid
  authorizationExpiresAt : Time
  (rpId rpOrigin : String)
  approvedAt : Time

structure AuthorizationState where
  (id intentId : Uuid)
  bindingDigest : Bytes32
  (expiresAt issuedAt : Time)

def ApprovalCompletionState.authorization (state : ApprovalCompletionState) :
    AuthorizationState where
  id := state.authorizationId
  intentId := state.intentId
  bindingDigest := state.bindingDigest
  expiresAt := state.authorizationExpiresAt
  issuedAt := state.approvedAt

structure FrostNonceClaimState where
  (authorizationId intentId : Uuid)
  signerId : UInt16
  (sessionId fingerprint : Bytes32)
  claimedAt : Time

structure SignerProfile where
  (profileId walletId : Uuid)
  chainScope : ChainScope
  signingSuiteId : SigningSuiteId
  backendRequirement : SignerBackendRequirement
  (signerSetId authorizationSignerId : String)
  signerEpoch : UInt64
  (threshold maxSigners : UInt16)
  verificationKey : Bytes
  secretRef : String

structure AddressBinding where
  (bindingId profileId : Uuid)
  chainScope : ChainScope
  address : String
  verificationKeyDigest : Bytes32

structure SigningJob where
  (jobId intentId profileId walletId : Uuid)
  chainScope : ChainScope
  signingSuiteId : SigningSuiteId
  backendRequirement : SignerBackendRequirement
  review : ReviewArtifact
  reviewBinding : ReviewBinding
  (policySnapshotDigest chainSnapshotDigest : Bytes32)
  onlineParties : String × String
  receiver : String
  sessionId : Bytes32
  (expiresAt createdAt : Time)

/-- A job is for what the CovHub binding of its intent says, with the stored profile's scope and
suite. -/
def covhubJobMatchesBinding (intent : SigningIntent) (job : SigningJob) (profileScope : ChainScope)
    (profileSuite : SigningSuiteId) : Bool :=
  match intent.covhub with
  | none => true
  | some binding =>
    job.chainScope = binding.chainScope ∧ job.review.reviewDigest = binding.reviewDigest ∧
      job.review.signingMessageDigest = binding.signingMessageDigest ∧
      job.profileId = binding.profileId ∧ job.sessionId = intent.sessionId ∧
      job.expiresAt = intent.expiry ∧ profileScope = binding.chainScope ∧
      profileSuite = job.signingSuiteId ∧
      (requireExecutableSuite binding.chainScope profileSuite).isOk = true

structure CreateChainSigningJobRequest where
  authorizationId : Uuid
  operationBindingDigest : Bytes32
  job : SigningJob

inductive ChainSigningJobStatus where
  | signing | finalized | aborted | expired | failed

structure ChainSigningJobState where
  (jobId intentId walletId profileId : Uuid)
  chainScope : ChainScope
  signingSuiteId : SigningSuiteId
  backendRequirement : SignerBackendRequirement
  reviewSchemaVersion : UInt16
  (reviewDigest signingMessageDigest policySnapshotDigest chainSnapshotDigest sessionId : Bytes32)
  onlineParties : String × String
  receiver : String
  operationBindingDigest : Bytes32
  status : ChainSigningJobStatus
  finalSignature : Option Bytes
  terminalReason : Option String
  (expiresAt createdAt updatedAt : Time)

structure ChainSigningExecution where
  job : SigningJob
  operationBindingDigest : Bytes32

/-- `WalletStore`, as far as the node calls it. A failed call may have changed the state. -/
structure WalletStorePort where
  State : Type
  mode : StorageMode
  walletId : State → Option Uuid
  getIntent : State → Uuid → Option SigningIntent
  listIntents : State → List SigningIntent
  insertIntent : SigningIntent → Method State WalletStoreError Unit
  updateIntent : SigningIntent → Time → Method State WalletStoreError Unit
  webauthnProfile : Method State WalletStoreError (Option WebauthnProfileState)
  setWebauthnProfile : WebauthnProfileState → Method State WalletStoreError Unit
  insertPasskey : PasskeyState → Method State WalletStoreError Unit
  listPasskeys : Method State WalletStoreError (List PasskeyState)
  beginApproval : ApprovalStartState → Method State WalletStoreError Unit
  completeApproval : ApprovalCompletionState → Method State WalletStoreError AuthorizationState
  availableAuthorizations : Time → Method State WalletStoreError (List AuthorizationState)
  claimFrostNonce : FrostNonceClaimState → Method State WalletStoreError Unit
  signerProfiles : Method State WalletStoreError (List (SignerProfile × List AddressBinding))
  createChainSigningJob : CreateChainSigningJobRequest → Time →
    Method State WalletStoreError ChainSigningJobState
  chainSigningJob : Uuid → Method State WalletStoreError (Option ChainSigningJobState)
  chainSigningExecution : Uuid → Method State WalletStoreError (Option ChainSigningExecution)
  claimChainExecutor : ChainSigningExecution → Time → Method State WalletStoreError Unit
  finalizeChainSigningJob : Uuid → Bytes32 → Bytes → Time → Method State WalletStoreError Unit
  terminateChainSigningJob : Uuid → Bytes32 → ChainSigningJobStatus → String → Time →
    Method State WalletStoreError Unit
  /-- the store as a new process finds it; a failure leaves what a later process finds -/
  reopen : Time → Method State WalletStoreError Unit

def moveIntent (intents : Uuid → Option SigningIntent) (id : Uuid) (status : IntentStatus) :
    Uuid → Option SigningIntent :=
  fun id' => if id' = id then (intents id').map (·.withStatus status) else intents id'

abbrev IntentRows := Rows SigningIntent.id

namespace IntentRows

def setStatus (intents : IntentRows) (id : Uuid) (status : IntentStatus) : IntentRows :=
  intents.update (fun i => i.id = id) (fun i => i.withStatus status)
    fun i => i.id_withStatus status

end IntentRows

structure InMemoryWalletStore where
  intents : IntentRows
  profile : Option WebauthnProfileState
  passkeys : List PasskeyState
  approvals : Table Uuid ApprovalStartState
  authorizations : Rows AuthorizationState.intentId
  nonceClaims : Table Bytes32 FrostNonceClaimState

namespace InMemoryWalletStore

def new : InMemoryWalletStore := ⟨.empty, none, [], .empty, .empty, .empty⟩

def insertIntent (intent : SigningIntent) : Method InMemoryWalletStore WalletStoreError Unit :=
  modify fun s => { s with intents := s.intents.put intent }

def updateIntent (intent : SigningIntent) (_now : Time) :
    Method InMemoryWalletStore WalletStoreError Unit :=
  modify fun s => { s with intents := s.intents.put intent }

def insertPasskey (passkey : PasskeyState) : Method InMemoryWalletStore WalletStoreError Unit :=
  modify fun s => { s with passkeys := s.passkeys ++ [passkey] }

def beginApproval (state : ApprovalStartState) :
    Method InMemoryWalletStore WalletStoreError Unit :=
  modify fun s => { s with approvals := s.approvals.put state.ceremonyId state }

def updatePasskey (passkeys : List PasskeyState) (credentialId json : String) :
    List PasskeyState :=
  passkeys.replaceF fun p =>
    if p.credentialId = credentialId then
      some { p with recordVersion := p.recordVersion + 1, passkeyJson := json }
    else none

def completeApproval (state : ApprovalCompletionState) :
    Method InMemoryWalletStore WalletStoreError AuthorizationState := do
  let s ← get
  let ceremony ← lift (orError (s.approvals.get state.ceremonyId)
    (.new "approval ceremony is unavailable"))
  -- the ceremony is gone whatever follows
  modify fun s => { s with approvals := s.approvals.delete state.ceremonyId }
  lift (require (ceremony.intentId = state.intentId ∧
    ceremony.credentialId = state.credentialId ∧ ceremony.bindingDigest = state.bindingDigest)
    (.new "approval binding mismatch"))
  let passkey ← lift (orError
    (s.passkeys.find? fun p => p.credentialId = state.credentialId)
    (.new "passkey is unavailable"))
  lift (require (passkey.recordVersion = state.expectedCredentialRecordVersion)
    (.new "passkey record version conflict"))
  -- `record_version += 1`, under overflow checks
  lift (require (passkey.recordVersion + 1 < 2 ^ 64) (.panic .arithmeticOverflow))
  modify fun s => { s with
    passkeys := updatePasskey s.passkeys state.credentialId state.updatedPasskeyJson
    authorizations := s.authorizations.put state.authorization
    intents := s.intents.setStatus state.intentId .approved }
  return state.authorization

def availableAuthorizations (now : Time) :
    Method InMemoryWalletStore WalletStoreError (List AuthorizationState) := do
  let s ← get
  return s.authorizations.rows.filter fun a => now ≤ a.expiresAt

def claimFrostNonce (claim : FrostNonceClaimState) :
    Method InMemoryWalletStore WalletStoreError Unit := do
  let s ← get
  lift (require ((s.nonceClaims.get claim.fingerprint).isNone = true)
    (.new "FROST nonce already claimed"))
  let authorization ← lift (orError (s.authorizations.get claim.intentId)
    (.new "authorization is unavailable"))
  -- the authorization is gone even if it is not the claimed one
  modify fun s => { s with
    authorizations := s.authorizations.deleteWhere fun a => a.intentId = claim.intentId }
  lift (require (authorization.id = claim.authorizationId)
    (.new "authorization binding mismatch"))
  modify fun s => { s with nonceClaims := s.nonceClaims.put claim.fingerprint claim }

/-- No signer profiles and no chain signing jobs; a new process starts with an empty store. -/
def port : WalletStorePort where
  State := InMemoryWalletStore
  mode := .compatibility
  walletId := fun s => s.profile.map WebauthnProfileState.walletId
  getIntent := fun s => s.intents.get
  listIntents := fun s => (s.intents.orderBy SigningIntent.byCreation).rows
  insertIntent := insertIntent
  updateIntent := updateIntent
  webauthnProfile := do return (← get).profile
  setWebauthnProfile := fun p => modify fun s => { s with profile := some p }
  insertPasskey := insertPasskey
  listPasskeys := do return (← get).passkeys
  beginApproval := beginApproval
  completeApproval := completeApproval
  availableAuthorizations := availableAuthorizations
  claimFrostNonce := claimFrostNonce
  signerProfiles := pure []
  createChainSigningJob := fun _ _ =>
    error (.new "chain signing requires durable authority storage")
  chainSigningJob := fun _ => pure none
  chainSigningExecution := fun _ => pure none
  claimChainExecutor := fun _ _ =>
    error (.new "chain executor claims require durable authority storage")
  finalizeChainSigningJob := fun _ _ _ _ =>
    error (.new "chain signing requires durable authority storage")
  terminateChainSigningJob := fun _ _ _ _ _ =>
    error (.new "chain signing requires durable authority storage")
  reopen := fun _ => modify fun _ => new

end InMemoryWalletStore

end Catomicals.WalletCore
