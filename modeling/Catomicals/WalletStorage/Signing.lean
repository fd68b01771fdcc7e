import Catomicals.WalletStorage.Intents

/-!
# Spending an authorization and chain signing jobs

The statements that spend an authorization, the FROST nonce claim and the legacy calls that touch
the same tables, and the life of a chain signing job.
-/
namespace Catomicals.WalletStorage

open Base Domain

variable (P : Platform) (db : Db)

/-- `UPDATE one_time_authorizations SET consumed_at`, for one that is still available. -/
def Db.consume (id : Uuid) (now : Time) : Option (Rows AuthorizationRow.id) :=
  db.authorizations.updateAt id
    (fun a => a.consumedAt = none ∧ a.invalidatedAt = none ∧ now ≤ a.expiresAt)
    (fun a => { a with consumedAt := some now }) fun _ => rfl

/-- What an authorization is spent for: the claim it leaves behind. -/
structure Spending where
  origin : NonceOrigin
  (sessionId fingerprint : Bytes32)

def Spending.claim (s : Spending) (walletId : Uuid) (epoch : ℕ) (now : Time) : NonceClaimRow where
  fingerprint := s.fingerprint
  walletId := walletId
  epoch := epoch
  sessionId := s.sessionId
  claimedAt := now
  invalidatedAt := none
  origin := some s.origin

/-- Consume the authorization, claim the nonce, and move the intent from approved to signing. -/
def Db.spend (s : Spending) (claimedTwice : StorageError) (now : Time) :
    Except StorageError Db := do
  let authorizations ← orError (db.consume s.origin.authorizationId now) .authorizationUnavailable
  let nonceClaims ← orError (db.nonceClaims.insert?
    (s.claim db.metadata.walletId db.metadata.epoch now)) claimedTwice
  let intents ← orError (db.moveIntent s.origin.intentId
    (fun i => i.walletId = db.metadata.walletId ∧ i.epoch = db.metadata.epoch ∧
      i.status = .approved ∧ i.v2.isSome) .signing now) .intentTransitionConflict
  return { db with
    authorizations := authorizations, nonceClaims := nonceClaims, intents := intents }

/-- The join of an authorization of the current epoch with its version-2 intent. -/
def Db.authorizedIntent (authorizationId intentId : Uuid) :
    Option (AuthorizationRow × IntentRow × IntentSecurity) := do
  let auth ← db.authorizations.get authorizationId
  guard (auth.intentId = intentId ∧ auth.walletId = db.metadata.walletId ∧
    auth.epoch = db.metadata.epoch)
  let intent ← db.intents.get auth.intentId
  let security ← intent.v2
  return (auth, intent, security)

/-- `claim_nonce`, a claim outside any authorization. -/
def claimNonce (fingerprint sessionId : Bytes32) (claimedAt : Time) : Except StorageError Db := do
  ensureMutationsAllowed db.metadata
  let nonceClaims ← orError (db.nonceClaims.insert?
    { fingerprint := fingerprint, walletId := db.metadata.walletId, epoch := db.metadata.epoch,
      sessionId := sessionId, claimedAt := claimedAt, invalidatedAt := none, origin := none })
    .nonceAlreadyClaimed
  return { db with nonceClaims := nonceClaims }.log "nonce.claimed" none claimedAt

/-- The call of the first version, refused for version-2 intents. -/
def consumeAuthorization (authorizationId : Uuid) (epoch : ℕ) (now : Time) :
    Except StorageError Db := do
  ensureMutationsAllowed db.metadata
  require (epoch = db.metadata.epoch) (.staleEpoch db.metadata.epoch epoch)
  require (¬db.authorizations.any fun a => a.id = authorizationId ∧ a.epoch = epoch ∧
    db.intents.any fun i => i.id = a.intentId ∧ i.v2.isSome) .legacyApiRejectedForV2
  let authorizations ← orError (db.authorizations.updateAt authorizationId
    (fun a => a.epoch = epoch ∧ a.consumedAt = none ∧ a.invalidatedAt = none ∧ now ≤ a.expiresAt)
    (fun a => { a with consumedAt := some now }) fun _ => rfl) .authorizationUnavailable
  return { db with authorizations := authorizations }.log "authorization.consumed"
    (some (.uuid authorizationId)) now

structure FrostNonceAuthorizationClaim where
  (authorizationId intentId : Uuid)
  signerId : String
  (sessionId fingerprint : Bytes32)
  claimedAt : Time

/-- One nonce claim from an authorization. -/
def consumeAuthorizationAndClaimFrostNonce (c : FrostNonceAuthorizationClaim) :
    Except StorageError Db := do
  ensureMutationsAllowed db.metadata
  let auth ← orError (db.authorizations.get c.authorizationId) .authorizationUnavailable
  require (auth.walletId = db.metadata.walletId ∧ auth.epoch = db.metadata.epoch)
    .authorizationUnavailable
  require (auth.intentId = c.intentId ∧ auth.consumedAt = none ∧ auth.invalidatedAt = none ∧
    c.claimedAt ≤ auth.expiresAt) .authorizationUnavailable
  let intent ← orError (db.intents.get c.intentId) .intentTransitionConflict
  let security ← orError intent.v2 .intentTransitionConflict
  require (intent.walletId = db.metadata.walletId ∧ intent.epoch = db.metadata.epoch)
    .intentTransitionConflict
  require (security.signerId = c.signerId ∧ intent.sessionId = c.sessionId ∧
    intent.status = .approved) .intentTransitionConflict
  let db' ← db.spend ⟨⟨c.authorizationId, c.intentId, c.signerId⟩, c.sessionId, c.fingerprint⟩
    .nonceAlreadyClaimed c.claimedAt
  return db'.log "authorization.consumed_nonce_claimed" (some (.uuid c.authorizationId))
    c.claimedAt

def validateNewSigningJob (job : NewSigningJob) : Except StorageError Unit :=
  match requireExecutableSuite job.chainScope job.signingSuiteId with
  | .error _ => .error .invalidSigningJob
  | .ok descriptor =>
    require (descriptor.backendRequirement = job.backendRequirement ∧
      job.reviewSchemaVersion ≠ 0 ∧
      job.reviewArtifact.schemaVersion = job.reviewSchemaVersion ∧
      job.reviewArtifact.scope = job.chainScope ∧
      job.reviewArtifact.reviewDigest = job.reviewDigest ∧
      job.reviewArtifact.signingMessageDigest = job.signingMessageDigest ∧
      job.selectedParties.1 ≠ "" ∧ job.selectedParties.2 ≠ "" ∧
      job.selectedParties.1 ≠ job.selectedParties.2 ∧
      (job.receiver = job.selectedParties.1 ∨ job.receiver = job.selectedParties.2) ∧
      job.receiver.utf8ByteSize ≤ 64 ∧ job.createdAt < job.expiresAt) .invalidSigningJob

def NewSigningJob.row (job : NewSigningJob) (operationBindingDigest : Bytes32) : SigningJobRow :=
  { job with
    operationBindingDigest := some operationBindingDigest, status := .signing,
    finalSignature := none, terminalReason := none, updatedAt := job.createdAt }

/-- `INSERT INTO signing_jobs`, with its unique session. -/
def Db.insertJob (job : NewSigningJob) (operationBindingDigest : Bytes32) :
    Except StorageError (Rows fun j : SigningJobRow => j.jobId) := do
  require (¬db.jobs.any fun j => j.sessionId = job.sessionId) .signingJobConflict
  orError (db.jobs.insert? (job.row operationBindingDigest)) .signingJobConflict

/-- `signing_job`, which fails on a row that does not read back. -/
def signingJob (jobId : Uuid) : Except StorageError (Option SigningJobRow) :=
  match db.jobs.get jobId with
  | none => .ok none
  | some j => if j.chainScope.readsBack ∧ j.reviewArtifact.readsBack then .ok (some j)
    else .error .sqlite

/-- The transaction of `create_signing_job`. The call then returns `signing_job` of the new job, and
so fails with the job stored if its review does not read back. -/
def createSigningJob (authorizationId : Uuid) (job : NewSigningJob)
    (operationBindingDigest : Bytes32) (now : Time) : Except StorageError Db := do
  validateNewSigningJob job
  require (job.createdAt = now ∧ now ≤ job.expiresAt) .invalidSigningJob
  ensureMutationsAllowed db.metadata
  require (db.metadata.walletId = job.walletId) .invalidSigningJob
  let profile ← orError (db.registry.signerProfiles.get job.profileId) .invalidSigningJob
  require (profile.walletId = job.walletId ∧ profile.chainScope = job.chainScope ∧
    profile.signingSuiteId = job.signingSuiteId ∧
    profile.backendRequirement = job.backendRequirement) .invalidSigningJob
  require (profile.authorizationSignerId ≠ "") .invalidSigningJob
  let (auth, intent, security) ← orError (db.authorizedIntent authorizationId job.intentId)
    .authorizationUnavailable
  require (auth.bindingDigest = operationBindingDigest ∧ now ≤ auth.expiresAt ∧
    auth.consumedAt = none ∧ auth.invalidatedAt = none ∧ intent.sessionId = job.sessionId ∧
    intent.status = .approved ∧ security.signerId = profile.authorizationSignerId ∧
    intent.txDigest = job.signingMessageDigest ∧ intent.policyHash = job.policySnapshotDigest ∧
    intent.expiresAt = job.expiresAt) .authorizationUnavailable
  let jobs ← db.insertJob job operationBindingDigest
  let db' ← { db with jobs := jobs }.spend
    ⟨⟨authorizationId, job.intentId, security.signerId⟩, job.sessionId, operationBindingDigest⟩
    .nonceAlreadyClaimed now
  return db'.log "chain_signing.authorized_started" (some (.uuid job.jobId)) now

def ChainExecutorClaim.matches (c : ChainExecutorClaim) (j : SigningJobRow) : Bool :=
  j.walletId = c.walletId ∧ j.profileId = c.profileId ∧ j.signingSuiteId = c.signingSuiteId ∧
    j.backendRequirement = c.backendRequirement ∧ j.sessionId = c.sessionId ∧
    j.signingMessageDigest = c.signingMessageDigest ∧
    j.operationBindingDigest = some c.operationBindingDigest ∧ j.status = .signing ∧
    c.claimedAt ≤ j.expiresAt

/-- One executor for the session of a job. -/
def claimChainExecutor (c : ChainExecutorClaim) : Except StorageError Db := do
  require (c.walletId ≠ 0 ∧ c.profileId ≠ 0 ∧ c.sessionId ≠ .zeros ∧
    c.reviewDomainDigest ≠ .zeros ∧ c.signingMessageDigest ≠ .zeros ∧
    c.operationBindingDigest ≠ .zeros) .invalidSigningJob
  ensureMutationsAllowed db.metadata
  require (db.metadata.walletId = c.walletId) .signingJobBindingDrift
  let job ← orError (db.jobs.find? c.matches) .signingJobBindingDrift
  require (¬db.executorClaims.any fun e => e.sessionId = c.sessionId) .signingJobConflict
  let executorClaims ← orError (db.executorClaims.insert? { c with jobId := job.jobId })
    .signingJobConflict
  return { db with executorClaims := executorClaims }.log "chain_executor.claimed"
    (some (.uuid job.jobId)) c.claimedAt

/-- The end of a job: the job leaves `signing` and takes its intent along. -/
def Db.endJob (jobId : Uuid) (open_ : SigningJobRow → Bool) (close : SigningJobRow → SigningJobRow)
    (hclose : ∀ j, (close j).jobId = j.jobId) (next : IntentStatus) (now : Time) :
    Except StorageError Db := do
  let job ← orError ((db.jobs.get jobId).filter open_) .signingJobBindingDrift
  let jobs ← orError (db.jobs.updateAt jobId (fun j => j.status = .signing) close hclose)
    .signingJobConflict
  let intents ← orError (db.moveIntent job.intentId
    (fun i => i.walletId = db.metadata.walletId ∧ i.epoch = db.metadata.epoch ∧
      i.status = .signing) next now) .intentTransitionConflict
  return { db with jobs := jobs, intents := intents }

/-- A job and its intent are signed together. -/
def completeSigningJob (jobId : Uuid) (operationBindingDigest : Bytes32) (finalSignature : Bytes)
    (now : Time) : Except StorageError Db := do
  require (finalSignature ≠ [] ∧ finalSignature.length ≤ 4096) .invalidSigningJob
  ensureMutationsAllowed db.metadata
  let db' ← db.endJob jobId
    (fun j => j.walletId = db.metadata.walletId ∧
      j.operationBindingDigest = some operationBindingDigest ∧ j.status = .signing ∧
      now ≤ j.expiresAt)
    (fun j => { j with status := .finalized, finalSignature := some finalSignature,
                       updatedAt := now })
    (fun _ => rfl) .signed now
  return db'.log "chain_signing.finalized" (some (.uuid jobId)) now

def terminateSigningJob (jobId : Uuid) (operationBindingDigest : Bytes32)
    (status : SigningJobStatus) (reason : String) (now : Time) : Except StorageError Db := do
  require ((status = .aborted ∨ status = .expired ∨ status = .failed) ∧ reason ≠ "" ∧
    reason.utf8ByteSize ≤ 128) .invalidSigningJob
  ensureMutationsAllowed db.metadata
  let db' ← db.endJob jobId
    (fun j => j.walletId = db.metadata.walletId ∧
      j.operationBindingDigest = some operationBindingDigest ∧ j.status = .signing)
    (fun j => { j with status := status, terminalReason := some reason, updatedAt := now })
    (fun _ => rfl) .invalidated now
  return db'.log "chain_signing.terminated" (some (.uuid jobId)) now

end Catomicals.WalletStorage
