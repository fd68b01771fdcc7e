import Catomicals.WalletStorage.Registry

/-!
# Transaction intents and their approval

Creating intents, moving them by hand, and the two ways to approve one: the legacy ceremony and
the passkey ceremony, which is the only one a version-2 intent accepts.
-/
namespace Catomicals.WalletStorage

open Base Domain

variable (P : Platform) (db : Db)

def IntentStatus.asStr : IntentStatus → String
  | .pending => "pending"
  | .approved => "approved"
  | .signing => "signing"
  | .signed => "signed"
  | .cancelled => "cancelled"
  | .expired => "expired"
  | .invalidated => "invalidated"

structure NewTransactionIntent where
  id : Uuid
  (txDigest policyHash sessionId : Bytes32)
  (expiresAt createdAt : Time)

structure NewTransactionIntentV2 extends NewTransactionIntent, IntentSecurity where
  intentSchemaVersion : UInt32

def NewTransactionIntent.row (i : NewTransactionIntent) (metadata : WalletMetadata)
    (v2 : Option IntentSecurity) : IntentRow where
  id := i.id
  walletId := metadata.walletId
  epoch := metadata.epoch
  txDigest := i.txDigest
  policyHash := i.policyHash
  sessionId := i.sessionId
  status := .pending
  expiresAt := i.expiresAt
  createdAt := i.createdAt
  updatedAt := i.createdAt
  v2 := v2

def createTransactionIntent (intent : NewTransactionIntent) : Except StorageError Db := do
  ensureMutationsAllowed db.metadata
  let intents ← orError (db.intents.insert? (intent.row db.metadata none)) .sqlite
  return { db with intents := intents }.log "transaction_intent.created" (some (.uuid intent.id))
    intent.createdAt

def validateNewV2Intent (intent : NewTransactionIntentV2) (material : MaterialRow) :
    Except StorageError Unit := do
  require (intent.intentSchemaVersion = 2) (.invalidV2Intent "intent_schema_version must be 2")
  require (intent.protocolVersion ≠ 0 ∧ intent.signerId ≠ "")
    (.invalidV2Intent "protocol_version and signer_id are required")
  require (intent.createdAt < intent.expiresAt)
    (.invalidV2Intent "intent expiry must follow creation")
  require (material.intentId = intent.id ∧ material.nodeSnapshotId ≠ "") .intentMaterialMismatch

/-- The unique index `transaction_intents_v2_approval_nonce`. -/
def sharesApprovalNonce (a b : IntentRow) : Bool :=
  a.walletId = b.walletId ∧ b.v2.isSome ∧
    a.v2.map IntentSecurity.approvalNonce = b.v2.map IntentSecurity.approvalNonce

def createTransactionIntentV2 (intent : NewTransactionIntentV2) (material : MaterialRow) :
    Except StorageError Db := do
  validateNewV2Intent intent material
  ensureMutationsAllowed db.metadata
  let row := intent.toNewTransactionIntent.row db.metadata (some intent.toIntentSecurity)
  require (¬db.intents.any (sharesApprovalNonce row)) .sqlite
  let intents ← orError (db.intents.insert? row) .sqlite
  require (P.sqliteJsonValid material.payloadJson) .sqlite
  let materials ← orError (db.materials.insert? material) .sqlite
  return { db with intents := intents, materials := materials }.log
    "transaction_intent.v2_created" (some (.uuid intent.id)) intent.createdAt

/-- `UPDATE transaction_intents SET status, updated_at WHERE id AND p`. -/
def Db.moveIntent (id : Uuid) (p : IntentRow → Bool) (next : IntentStatus) (now : Time) :
    Option (Rows IntentRow.id) :=
  db.intents.updateAt id p (fun i => { i with status := next, updatedAt := now }) fun _ => rfl

/-- A change of status, compared and swapped. -/
def transitionTransactionIntent (id : Uuid) (expected next : IntentStatus) (now : Time) :
    Except StorageError Db := do
  require (expected.mayTransitionTo next) (.invalidIntentTransition expected next)
  ensureMutationsAllowed db.metadata
  require (¬(expected = .approved ∧ next = .signing ∧ db.intents.any fun i => i.id = id ∧
    i.walletId = db.metadata.walletId ∧ i.epoch = db.metadata.epoch ∧ i.v2.isSome))
    .legacyApiRejectedForV2
  let intents ← orError (db.moveIntent id (fun i => i.walletId = db.metadata.walletId ∧
    i.epoch = db.metadata.epoch ∧ i.status = expected) next now) .intentTransitionConflict
  return { db with intents := intents }.log ("transaction_intent." ++ next.asStr) (some (.uuid id))
    now

/-- `pending_intent_facts`: the pending intent of the current epoch, if it has not expired. -/
def pendingIntentFacts (intentId : Uuid) (now : Time) : Except StorageError IntentRow := do
  let intent ← orError (db.intents.get intentId) .intentNotApprovable
  require (intent.epoch = db.metadata.epoch) .intentNotApprovable
  require (intent.status = .pending) .intentNotApprovable
  require (now ≤ intent.expiresAt) .intentExpired
  return intent

structure NewApprovalCeremony where
  (id intentId : Uuid)
  (startedAt expiresAt : Time)

variable (c : NewApprovalCeremony)

def NewApprovalCeremony.row (metadata : WalletMetadata)
    (binding : Option CeremonyBinding) : CeremonyRow where
  id := c.id
  walletId := metadata.walletId
  intentId := c.intentId
  epoch := metadata.epoch
  startedAt := c.startedAt
  expiresAt := c.expiresAt
  completedAt := none
  invalidatedAt := none
  binding := binding

/-- The checks on the times of a new ceremony. -/
def ceremonyIntent : Except StorageError IntentRow := do
  let intent ← pendingIntentFacts db c.intentId c.startedAt
  require (c.startedAt < c.expiresAt) .approvalCeremonyExpired
  require (c.expiresAt ≤ intent.expiresAt) .approvalCeremonyExceedsIntentExpiry
  return intent

def beginApprovalCeremonyAtomic : Except StorageError Db := do
  ensureMutationsAllowed db.metadata
  let intent ← ceremonyIntent db c
  -- the trigger `approval_ceremonies_v2_required`
  require (intent.v2 = none) .sqlite
  let ceremonies ← orError (db.ceremonies.insert? (c.row db.metadata none)) .sqlite
  return { db with ceremonies := ceremonies }.log "approval_ceremony.started" (some (.uuid c.id))
    c.startedAt

/-- A ceremony for an active credential. -/
def beginPasskeyApproval (binding : CeremonyBinding) : Except StorageError Db := do
  ensureMutationsAllowed db.metadata
  let intent ← ceremonyIntent db c
  require (db.registry.credentials.any fun r => r.credentialId = binding.credentialId ∧
    r.walletId = db.metadata.walletId ∧ r.isActive) .credentialUnavailable
  require (intent.v2.isSome → binding.credentialId ≠ "") .sqlite
  let ceremonies ← orError (db.ceremonies.insert? (c.row db.metadata (some binding))) .sqlite
  return { db with ceremonies := ceremonies }.log "approval.passkey_started" (some (.uuid c.id))
    c.startedAt

/-- `UPDATE approval_ceremonies SET completed_at`, for an open ceremony of the current epoch. -/
def Db.completeCeremony (id : Uuid) (now : Time) : Option (Rows CeremonyRow.id) :=
  db.ceremonies.updateAt id
    (fun c => c.epoch = db.metadata.epoch ∧ c.completedAt = none ∧ c.invalidatedAt = none ∧
      now ≤ c.expiresAt)
    (fun c => { c with completedAt := some now }) fun _ => rfl

/-- `INSERT INTO one_time_authorizations`, with its unique index on the intent. -/
def Db.issueAuthorization (id intentId : Uuid) (bindingDigest : Bytes32) (expiresAt now : Time) :
    Except StorageError (Rows AuthorizationRow.id) := do
  require (¬db.authorizations.any fun a => a.intentId = intentId) .authorizationAlreadyExists
  orError (db.authorizations.insert?
    { id := id, walletId := db.metadata.walletId, intentId := intentId,
      epoch := db.metadata.epoch, bindingDigest := bindingDigest, expiresAt := expiresAt,
      issuedAt := now, consumedAt := none, invalidatedAt := none }) .authorizationAlreadyExists

structure ApprovalDecision where
  (ceremonyId authorizationId : Uuid)
  bindingDigest : Bytes32
  (authorizationExpiresAt approvedAt : Time)

def approveAndIssueAuthorization (d : ApprovalDecision) : Except StorageError Db := do
  ensureMutationsAllowed db.metadata
  let ceremony ← orError (db.ceremonies.get d.ceremonyId) .approvalCeremonyUnavailable
  let joined ← orError (db.intents.get ceremony.intentId) .approvalCeremonyUnavailable
  require (joined.v2 = none) .legacyApiRejectedForV2
  require (¬db.authorizations.any fun a => a.intentId = ceremony.intentId)
    .authorizationAlreadyExists
  require (ceremony.epoch = db.metadata.epoch ∧ ceremony.completedAt = none ∧
    ceremony.invalidatedAt = none) .approvalCeremonyUnavailable
  let intent ← pendingIntentFacts db ceremony.intentId d.approvedAt
  require (d.approvedAt ≤ ceremony.expiresAt) .approvalCeremonyExpired
  require (d.approvedAt ≤ d.authorizationExpiresAt) .authorizationExpiresBeforeApproval
  require (d.authorizationExpiresAt ≤ intent.expiresAt) .authorizationExceedsIntentExpiry
  let ceremonies ← orError (db.completeCeremony d.ceremonyId d.approvedAt) .intentNotApprovable
  let intents ← orError (db.moveIntent ceremony.intentId
    (fun i => i.epoch = db.metadata.epoch ∧ i.status = .pending) .approved d.approvedAt)
    .intentNotApprovable
  let authorizations ← db.issueAuthorization d.authorizationId ceremony.intentId d.bindingDigest
    d.authorizationExpiresAt d.approvedAt
  return { db with
    ceremonies := ceremonies, intents := intents, authorizations := authorizations }.log
    "approval.completed" (some (.uuid d.ceremonyId)) d.approvedAt

structure PasskeyApprovalCompletion where
  (ceremonyId intentId : Uuid)
  bindingDigest : Bytes32
  (credentialId rpId rpOrigin : String)
  expectedCredentialRecordVersion : ℕ
  updatedPasskeyJson : String
  authorizationId : Uuid
  (authorizationExpiresAt approvedAt : Time)

/-- The approval, its authorization and the credential, at once. -/
def completePasskeyApprovalAtomic (c : PasskeyApprovalCompletion) : Except StorageError Db := do
  require (P.jsonValid c.updatedPasskeyJson) .credentialUnavailable
  ensureMutationsAllowed db.metadata
  require (db.registry.webauthnProfiles.any fun p => p.walletId = db.metadata.walletId ∧
    p.rpId = c.rpId ∧ p.rpOrigin = c.rpOrigin) .webauthnProfileMismatch
  let ceremony ← orError (db.ceremonies.get c.ceremonyId) .approvalCeremonyUnavailable
  -- a ceremony without a binding does not decode
  let binding ← orError ceremony.binding .sqlite
  require (ceremony.intentId = c.intentId ∧ ceremony.epoch = db.metadata.epoch ∧
    ceremony.completedAt = none ∧ ceremony.invalidatedAt = none) .approvalCeremonyUnavailable
  require (binding.bindingDigest = c.bindingDigest ∧ binding.credentialId = c.credentialId)
    .approvalBindingMismatch
  require (c.approvedAt ≤ ceremony.expiresAt) .approvalCeremonyExpired
  let intent ← pendingIntentFacts db c.intentId c.approvedAt
  require (c.approvedAt ≤ c.authorizationExpiresAt) .authorizationExpiresBeforeApproval
  require (c.authorizationExpiresAt ≤ intent.expiresAt) .authorizationExceedsIntentExpiry
  let registry ← db.registry.updatePasskeyRecord P c.credentialId
    c.expectedCredentialRecordVersion c.updatedPasskeyJson c.approvedAt
  let ceremonies ← orError (db.completeCeremony c.ceremonyId c.approvedAt)
    .approvalCeremonyUnavailable
  let intents ← orError (db.moveIntent c.intentId
    (fun i => i.epoch = db.metadata.epoch ∧ i.status = .pending ∧ i.v2.isSome) .approved
    c.approvedAt) .intentNotApprovable
  let authorizations ← db.issueAuthorization c.authorizationId c.intentId c.bindingDigest
    c.authorizationExpiresAt c.approvedAt
  return { db with
    registry := registry, ceremonies := ceremonies, intents := intents,
    authorizations := authorizations }.log
    "approval.passkey_completed" (some (.uuid c.ceremonyId)) c.approvedAt

lemma CeremonyRow.id_invalidated (now : Time) (c : CeremonyRow) :
    { c with invalidatedAt := some now }.id = c.id := rfl

/-- `invalidate_unfinished_ceremonies_on_startup_in`, which every opening runs. -/
def invalidateUnfinishedCeremoniesOnStartup (now : Time) : Db :=
  let open_ (c : CeremonyRow) : Bool := c.walletId = db.metadata.walletId ∧
    c.epoch = db.metadata.epoch ∧ c.completedAt = none ∧ c.invalidatedAt = none
  let db' := { db with
    ceremonies := db.ceremonies.update open_ (fun c => { c with invalidatedAt := some now })
      (CeremonyRow.id_invalidated now) }
  if db.ceremonies.any open_ then db'.log "approval.startup_invalidated" none now else db'

end Catomicals.WalletStorage
