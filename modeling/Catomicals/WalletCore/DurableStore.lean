import Catomicals.WalletCore.Store
import Catomicals.WalletStorage.IntentPages

/-!
# The durable store

The storage port over the wallet database, with a projection of the stored intents that every call
keeps up by hand after the database has accepted the change.
-/
namespace Catomicals.WalletCore

open Base Domain WalletStorage Method List

structure DurablePlatform extends Platform where
  /-- `serde_json` of an intent -/
  intentJson : SigningIntent → String
  /-- `serde_json::from_value::<SigningIntent>` -/
  parseIntent : String → Except String SigningIntent
  /-- `Uuid::to_string` -/
  uuidText : Uuid → String
  /-- `Uuid::parse_str` -/
  parseUuid : String → Except String Uuid
  /-- whether `str::trim` leaves nothing -/
  isBlank : String → Bool
  /-- `expected_profile_address`, which derives a chain address from the verification key -/
  expectedProfileAddress : SignerProfile → Option String

structure DurableWalletStore where
  storage : Db
  intents : IntentRows
  walletId : Uuid

def signerLabel (signerId : UInt16) : String := "frost:participant-" ++ toString signerId

def compatibilityPolicyHash (P : Platform) : Bytes32 :=
  P.sha256 "catomicals/wallet-core/unclassified-taproot-policy-v1".toUTF8.toList

def intentPolicyHash (P : Platform) (intent : SigningIntent) : Bytes32 :=
  intent.personalSigningPolicy.elim (compatibilityPolicyHash P) PersonalSigningPolicy.policyDigest

def toStorageStatus : IntentStatus → WalletStorage.IntentStatus
  | .pending => .pending
  | .approved => .approved
  | .signing => .signing
  | .cancelled => .cancelled
  | .expired => .expired
  | .signed => .signed

def fromStorageStatus : WalletStorage.IntentStatus → IntentStatus
  | .pending => .pending
  | .approved => .approved
  | .signing => .signing
  | .signed => .signed
  | .cancelled => .cancelled
  | .expired | .invalidated => .expired

def passkeyFormat : String := "webauthn-rs-passkey-json-v1"

def compatibilitySnapshot : String := "compatibility:no-authoritative-node-snapshot"

/-- The job as the wallet reports it. -/
def chainSigningState (record : SigningJobRow) :
    Except WalletStoreError ChainSigningJobState := do
  let status ← match record.status with
    | .signing => .ok .signing
    | .finalized => .ok .finalized
    | .aborted => .ok .aborted
    | .expired => .ok .expired
    | .failed => .ok .failed
    | .prepared => .error (.new "unauthorized prepared signing job found in durable storage")
  let operationBindingDigest ← orError record.operationBindingDigest
    (.new "authorized signing job is missing its operation binding")
  return { record.toNewSigningJob with
    onlineParties := record.selectedParties
    operationBindingDigest := operationBindingDigest
    status := status
    finalSignature := record.finalSignature
    terminalReason := record.terminalReason
    updatedAt := record.updatedAt }

def profileOf (row : SignerProfileRow) (secretRef : String) : SignerProfile :=
  { row with secretRef := secretRef }

variable (P : DurablePlatform)

/-- `AddressBinding::new` on a stored address, with the checks of its row around it. -/
def bindStoredAddress (profile : SignerProfile) (stored : AddressBindingRow) :
    Except WalletStoreError AddressBinding := do
  require (stored.profileId = profile.profileId ∧ stored.chainScope = profile.chainScope)
    (.new "stored signer address scope mismatch")
  require (stored.bindingId ≠ 0 ∧ P.isBlank stored.address = false ∧
    P.expectedProfileAddress profile = some stored.address)
    (.new "stored signer address is not key-bound")
  require (P.sha256 profile.verificationKey = stored.verificationKeyDigest)
    (.new "stored signer address key digest mismatch")
  return ⟨stored.bindingId, profile.profileId, profile.chainScope, stored.address,
    P.sha256 profile.verificationKey⟩

variable (db : Db)

/-- `signer_profile_inventory`: the profiles with a secret reference, with their addresses. -/
def signerProfileInventory : List (SignerProfileRow × String × List AddressBindingRow) :=
  let profiles := db.registry.signerProfiles.orderBy fun p q =>
    p.createdAt < q.createdAt ∨ p.createdAt = q.createdAt ∧ p.profileId ≤ q.profileId
  let bindings := db.registry.addressBindings.orderBy fun a b =>
    a.createdAt < b.createdAt ∨ a.createdAt = b.createdAt ∧ a.bindingId ≤ b.bindingId
  (profiles.rows.filter fun p => p.walletId = db.metadata.walletId).filterMap fun p => do
    let secret ← db.registry.secretRefs.get p.secretRefId
    guard (secret.walletId = p.walletId)
    return (p, secret.handle, bindings.rows.filter fun b => b.profileId = p.profileId)

/-- `list_passkey_records`: the active passkeys of the wallet. -/
def listPasskeyRecords : List PasskeyState :=
  let credentials := db.registry.credentials.orderBy fun c d => c.credentialId ≤ d.credentialId
  (credentials.rows.filter fun c => c.walletId = db.metadata.walletId ∧ c.isActive).filterMap
    fun c => c.passkey.map fun k =>
      ⟨c.credentialId, c.label, k.passkeyJson, k.format, k.recordVersion, c.enrolledAt⟩

def authorizationOf (a : AuthorizationRow) : AuthorizationState :=
  ⟨a.id, a.intentId, a.bindingDigest, a.expiresAt, a.issuedAt⟩

/-- `list_available_authorizations`: those of the current epoch that can be used. -/
def listAvailableAuthorizations (now : Time) : List AuthorizationState :=
  let authorizations := db.authorizations.orderBy fun a b =>
    a.issuedAt < b.issuedAt ∨ a.issuedAt = b.issuedAt ∧ a.id ≤ b.id
  (authorizations.rows.filter fun a => a.walletId = db.metadata.walletId ∧
    a.epoch = db.metadata.epoch ∧ a.consumedAt = none ∧ a.invalidatedAt = none ∧
    now ≤ a.expiresAt).map authorizationOf

def loadIntent (materials : List MaterialRow) (record : IntentRow) :
    Except WalletStoreError SigningIntent := do
  let security ← orError record.v2 (.storage .sqlite)
  let material ← orError (materials.find? fun m => m.intentId = record.id)
    (.new "intent material is missing")
  require (P.sha256 material.payloadJson.toUTF8.toList = material.payloadHash)
    (.new "intent material hash mismatch")
  let intent ← (P.parseIntent material.payloadJson).mapError fun e =>
    .new ("invalid intent material: " ++ e)
  require (intent.id = record.id ∧ intent.walletId = record.walletId ∧
    intent.txDigest = record.txDigest ∧ intent.sessionId = record.sessionId ∧
    intent.nonce = security.approvalNonce ∧
    record.policyHash = intentPolicyHash P.toPlatform intent ∧
    intent.protocolVersion.toUInt32 = security.protocolVersion ∧ security.network = .signet ∧
    security.action = .spend ∧ security.signerId = signerLabel intent.signerId)
    (.new "intent material binding mismatch")
  return intent.withStatus (fromStorageStatus record.status)

lemma id_of_loadIntent {P : DurablePlatform} {materials : List MaterialRow} {record : IntentRow}
    {i : SigningIntent} (h : loadIntent P materials record = .ok i) : i.id = record.id := by
  simp only [loadIntent, ok_iff, mapError_eq_ok] at h
  obtain ⟨security, -, material, -, -, intent, -, ⟨hid, -⟩, rfl⟩ := h
  exact hid

def loadRecords : Except WalletStoreError (List SigningIntent) :=
  (listTransactionIntentsV2 db).mapM (loadIntent P (listIntentMaterials db .policyInput))

lemma nodup_of_loadRecords {P : DurablePlatform} {db : Db} {intents : List SigningIntent}
    (h : loadRecords P db = .ok intents) : (intents.map SigningIntent.id).Nodup := by
  have hids : (listTransactionIntentsV2 db).map IntentRow.id = intents.map SigningIntent.id := by
    rw [← forall₂_eq_eq_eq, forall₂_map_left_iff, forall₂_map_right_iff]
    exact (mapM_eq_ok.mp h).imp fun _ _ hload => (id_of_loadIntent hload).symm
  rw [← hids]
  exact (db.intents.orderBy rowByCreation).nodup.sublist (filter_sublist.map IntentRow.id)

def loadIntents : Except WalletStoreError IntentRows :=
  match h : loadRecords P db with
  | .ok intents => .ok ⟨intents, nodup_of_loadRecords h⟩
  | .error e => .error e

namespace DurableWalletStore

variable (P : DurablePlatform)

/-- `from_storage`, which the opening of a database ends with. -/
def fromStorage (db : Db) : Except WalletStoreError DurableWalletStore := do
  let intents ← loadIntents P db
  return ⟨db, intents, db.metadata.walletId⟩

def replaceProjection (s : DurableWalletStore) (intent : SigningIntent) : DurableWalletStore :=
  { s with
    intents := if (s.intents.get intent.id).isSome then s.intents.put intent
      else (s.intents.put intent).orderBy SigningIntent.byCreation }

def project (s : DurableWalletStore) (id : Uuid) (status : IntentStatus) : DurableWalletStore :=
  { s with intents := IntentRows.setStatus s.intents id status }

abbrev Action (α : Type) := Method DurableWalletStore WalletStoreError α

def onStorage (f : Db → Except StorageError Db) : Action Unit :=
  zoom storage (fun s db => { s with storage := db }) WalletStoreError.storage
    (atomically f fun e => e)

variable (intent : SigningIntent)

def newIntent : NewTransactionIntentV2 where
  id := intent.id
  txDigest := intent.txDigest
  policyHash := intentPolicyHash P.toPlatform intent
  sessionId := intent.sessionId
  expiresAt := intent.expiry
  createdAt := intent.createdAt
  network := .signet
  protocolVersion := intent.protocolVersion.toUInt32
  action := .spend
  signerId := signerLabel intent.signerId
  approvalNonce := intent.nonce
  intentSchemaVersion := 2

def material : MaterialRow where
  intentId := intent.id
  kind := .policyInput
  payloadJson := P.intentJson intent
  payloadHash := P.sha256 (P.intentJson intent).toUTF8.toList
  nodeSnapshotId := compatibilitySnapshot

def insertIntent : Action Unit := do
  let s ← get
  lift (require (intent.walletId = s.walletId)
    (.new "intent wallet id does not match durable wallet"))
  onStorage fun db =>
    createTransactionIntentV2 P.toPlatform db (newIntent P intent) (material P intent)
  modify fun s => s.replaceProjection intent

def updateIntent (now : Time) : Action Unit := do
  let s ← get
  let current ← lift (orError (s.intents.get intent.id) (.new "intent is missing"))
  onStorage fun db => transitionTransactionIntent db intent.id (toStorageStatus current.status)
    (toStorageStatus intent.status) now
  modify fun s => s.replaceProjection intent

def webauthnProfile : Action (Option WebauthnProfileState) := do
  let s ← get
  match s.storage.registry.webauthnProfiles.rows.head? with
  | none => return none
  | some p =>
    let userId ← lift ((P.parseUuid p.userId).mapError fun e =>
      .new ("invalid WebAuthn user id: " ++ e))
    return some ⟨p.walletId, userId, p.rpId, p.rpOrigin, p.recordVersion, p.updatedAt⟩

def setWebauthnProfile (profile : WebauthnProfileState) : Action Unit :=
  onStorage fun db => registryCall P.toPlatform db (.setWebauthnProfile
    { profile with userId := P.uuidText profile.userId })

def insertPasskey (passkey : PasskeyState) : Action Unit := do
  lift (require (passkey.recordVersion = 1 ∧ passkey.format = passkeyFormat)
    (.new "unsupported Passkey record format"))
  onStorage fun db => registryCall P.toPlatform db (.insertPasskeyRecord
    { passkey with credentialState := .active })

def listPasskeys : Action (List PasskeyState) := do
  return listPasskeyRecords (← get).storage

def beginApproval (state : ApprovalStartState) : Action Unit :=
  onStorage fun db => beginPasskeyApproval db
    ⟨state.ceremonyId, state.intentId, state.startedAt, state.expiresAt⟩
    ⟨state.bindingDigest, state.credentialId⟩

def completeApproval (state : ApprovalCompletionState) : Action AuthorizationState := do
  onStorage fun db => completePasskeyApprovalAtomic P.toPlatform db { state with }
  modify fun s => s.project state.intentId .approved
  return state.authorization

def availableAuthorizations (now : Time) : Action (List AuthorizationState) := do
  return listAvailableAuthorizations (← get).storage now

def claimFrostNonce (claim : FrostNonceClaimState) : Action Unit :=
  -- the database moves the intent to signing here, the projection stays at approved
  onStorage fun db => consumeAuthorizationAndClaimFrostNonce db
    { claim with signerId := signerLabel claim.signerId }

/-- The profiles with their addresses, if every address still belongs to its profile. -/
def signerProfilesIn (db : Db) :
    Except WalletStoreError (List (SignerProfile × List AddressBinding)) :=
  (signerProfileInventory db).mapM fun (row, secretRef, bindings) => do
    let profile := profileOf row secretRef
    let bindings ← bindings.mapM (bindStoredAddress P profile)
    return (profile, bindings)

def signerProfiles : Action (List (SignerProfile × List AddressBinding)) := do
  let s ← get
  lift (require (s.walletId = s.storage.metadata.walletId) (.storage .invalidSignerProfile))
  lift (signerProfilesIn P s.storage)

def newJob (job : SigningJob) : NewSigningJob :=
  { job with
    reviewSchemaVersion := job.review.schemaVersion
    reviewArtifact := job.review
    reviewDigest := job.review.reviewDigest
    signingMessageDigest := job.review.signingMessageDigest
    selectedParties := job.onlineParties }

def checkCovhubJob (job : SigningJob) (profile : SignerProfileRow) : Except WalletStoreError Unit :=
  match intent.covhub with
  | none => .ok ()
  | some _ => do
    require (intent.status = .approved) (.new "a CovHub signing job requires an approved intent")
    require (intent.covhubLegacyFieldsAreDelegated = true)
      (.new "a CovHub intent must not carry Bitcoin Signet placeholder fields")
    require (covhubJobMatchesBinding intent job profile.chainScope profile.signingSuiteId = true)
      (.new "chain signing job does not match the CovHub intent binding")

/-- `signer_profile`, which fails on a row that does not read back. -/
def signerProfile (db : Db) (profileId : Uuid) : Except WalletStoreError SignerProfileRow := do
  let profile ← orError (db.registry.signerProfiles.get profileId)
    (.new "chain signing profile is missing")
  require (profile.chainScope.readsBack = true) (.storage .sqlite)
  return profile

/-- `signing_job` of the database as the store calls it. -/
def storedJob (db : Db) (jobId : Uuid) (missing : WalletStoreError) :
    Except WalletStoreError SigningJobRow := do
  let job ← (signingJob db jobId).mapError .storage
  orError job missing

def createChainSigningJob (request : CreateChainSigningJobRequest) (now : Time) :
    Action ChainSigningJobState := do
  let s ← get
  let job := request.job
  let profile ← lift (signerProfile s.storage job.profileId)
  lift (require (job.reviewBinding.chainScope = job.chainScope ∧
    job.reviewBinding.signingSuiteId = job.signingSuiteId ∧
    job.reviewBinding.signerSetId = profile.signerSetId ∧
    job.reviewBinding.signerSetEpoch = profile.signerEpoch ∧
    job.reviewBinding.reviewSchemaVersion = job.review.schemaVersion ∧
    job.reviewBinding.reviewDigest = job.review.reviewDigest)
    (.new "chain signing review binding mismatch"))
  lift ((s.intents.get job.intentId).elim (.ok ()) fun intent =>
    checkCovhubJob intent job profile)
  onStorage fun db => createSigningJob db request.authorizationId (newJob job)
    request.operationBindingDigest now
  let s ← get
  -- the job is committed, and a review that does not read back leaves the projection behind
  let stored ← lift (storedJob s.storage job.jobId (.storage .signingJobConflict))
  modify fun s => s.project job.intentId .signing
  lift (chainSigningState stored)

variable (jobId : Uuid)

def chainSigningJob : Action (Option ChainSigningJobState) := do
  let s ← get
  let record ← lift ((signingJob s.storage jobId).mapError .storage)
  lift (record.mapM chainSigningState)

def chainSigningExecutionOf (db : Db) (record : SigningJobRow) :
    Except WalletStoreError ChainSigningExecution := do
  require (record.status = .signing) (.new "chain signing job is not executable")
  let profile ← signerProfile db record.profileId
  let reviewBinding ← (ReviewBinding.new record.chainScope record.signingSuiteId
    profile.signerSetId profile.signerEpoch record.reviewSchemaVersion
    record.reviewDigest).mapError .contract
  let operationBindingDigest ← orError record.operationBindingDigest
    (.new "authorized chain signing job is missing its binding")
  return ⟨{ record.toNewSigningJob with
    review := record.reviewArtifact
    reviewBinding := reviewBinding
    onlineParties := record.selectedParties }, operationBindingDigest⟩

def chainSigningExecution : Action (Option ChainSigningExecution) := do
  let s ← get
  let record ← lift ((signingJob s.storage jobId).mapError .storage)
  lift (record.mapM (chainSigningExecutionOf s.storage))

def claimChainExecutor (execution : ChainSigningExecution) (now : Time) : Action Unit :=
  onStorage fun db => WalletStorage.claimChainExecutor db
    { execution.job with
      reviewDomainDigest := P.sha256 execution.job.reviewBinding.domainSeparator
      signingMessageDigest := execution.job.review.signingMessageDigest
      operationBindingDigest := execution.operationBindingDigest
      claimedAt := now }

/-- The end of a job: the database ends it, and the projected intent takes the status. -/
def endJob (end_ : Db → Except StorageError Db) (status : IntentStatus) : Action Unit := do
  let s ← get
  let job ← lift (storedJob s.storage jobId (.new "chain signing job is missing"))
  onStorage end_
  modify fun s => s.project job.intentId status

def finalizeChainSigningJob (operationBindingDigest : Bytes32) (finalSignature : Bytes)
    (now : Time) : Action Unit :=
  endJob jobId (fun db => completeSigningJob db jobId operationBindingDigest finalSignature now)
    .signed

def terminalStatus : ChainSigningJobStatus → Except WalletStoreError SigningJobStatus
  | .aborted => .ok .aborted
  | .expired => .ok .expired
  | .failed => .ok .failed
  | .signing | .finalized => .error (.new "invalid terminal chain job status")

def terminateChainSigningJob (operationBindingDigest : Bytes32) (status : ChainSigningJobStatus)
    (reason : String) (now : Time) : Action Unit := do
  let status ← lift (terminalStatus status)
  endJob jobId (fun db => terminateSigningJob db jobId operationBindingDigest status reason now)
    .expired

/-- Another process opens the database, invalidates unfinished ceremonies and loads the intents. -/
def reopen (now : Time) : Action Unit := fun s =>
  let db := invalidateUnfinishedCeremoniesOnStartup s.storage now
  match fromStorage P db with
  | .ok s' => (.ok (), s')
  | .error e => (.error e, { s with storage := db })

def port : WalletStorePort where
  State := DurableWalletStore
  mode := .durable
  walletId := fun s => some s.walletId
  getIntent := fun s => s.intents.get
  listIntents := fun s => s.intents.rows
  insertIntent := insertIntent P
  updateIntent := updateIntent
  webauthnProfile := webauthnProfile P
  setWebauthnProfile := setWebauthnProfile P
  insertPasskey := insertPasskey P
  listPasskeys := listPasskeys
  beginApproval := beginApproval
  completeApproval := completeApproval P
  availableAuthorizations := availableAuthorizations
  claimFrostNonce := claimFrostNonce
  signerProfiles := signerProfiles P
  createChainSigningJob := createChainSigningJob
  chainSigningJob := chainSigningJob
  chainSigningExecution := chainSigningExecution
  claimChainExecutor := claimChainExecutor P
  finalizeChainSigningJob := finalizeChainSigningJob
  terminateChainSigningJob := terminateChainSigningJob
  reopen := reopen P

end DurableWalletStore

end Catomicals.WalletCore
