import Catomicals.WalletStorage.Signing

/-!
# Personal signing operations and signer request nonces

A personal signing operation collects commitments, is frozen, collects signature shares and is
finalized. A signer request nonce is claimed before a signer backend does anything.
-/
namespace Catomicals.WalletStorage

open Base Domain

variable (P : Platform) (db : Db)

def validateNewPersonalOperation (o : NewPersonalSigningOperation) : Except StorageError Unit :=
  require (o.signerEpoch ≠ 0 ∧ o.threshold = 2 ∧ o.maxSigners = 3 ∧
    o.allowedParticipants = (1, 2, 3) ∧ o.selectedParticipants.1 < o.selectedParticipants.2 ∧
    (1 ≤ o.selectedParticipants.1 ∧ o.selectedParticipants.1 ≤ 3) ∧
    (1 ≤ o.selectedParticipants.2 ∧ o.selectedParticipants.2 ≤ 3) ∧ o.createdAt < o.expiresAt)
    .invalidPersonalSigningOperation

def validatePersonalOperationMaterial (material : MaterialRow) (o : NewPersonalSigningOperation) :
    Except StorageError Unit := do
  require (P.sha256 material.payloadJson.toUTF8.toList = material.payloadHash)
    .invalidPersonalSigningOperation
  let policy ← orError (P.parsePersonalIntent material.payloadJson) .invalidPersonalSigningOperation
  let groupPubkeyXonly ← orError (P.decodeHex32 policy.groupPubkeyXonly)
    .invalidPersonalSigningOperation
  let policyDigest ← orError (P.decodeHex32 policy.policyDigest) .invalidPersonalSigningOperation
  let chainSnapshotDigest ← orError (P.decodeHex32 policy.chainSnapshotDigest)
    .invalidPersonalSigningOperation
  require (policy.profileId = o.profileId ∧ policy.signerSetId = o.signerSetId ∧
    policy.signerEpoch = o.signerEpoch ∧ groupPubkeyXonly = o.groupPubkeyXonly ∧
    policy.allowedParticipants = o.allowedParticipants ∧ policy.threshold = o.threshold ∧
    policyDigest = o.policyDigest ∧ chainSnapshotDigest = o.chainSnapshotDigest)
    .invalidPersonalSigningOperation

def NewPersonalSigningOperation.row (o : NewPersonalSigningOperation) : OperationRow :=
  { o with status := .collectingCommitments, signingPackage := none, finalSignature := none,
           terminalReason := none, updatedAt := o.createdAt }

/-- Unlike `create_signing_job` it does not compare the binding digest with that of the
authorization. -/
def consumeAuthorizationAndCreatePersonalSigningOperation (authorizationId : Uuid)
    (o : NewPersonalSigningOperation) (now : Time) : Except StorageError Db := do
  validateNewPersonalOperation o
  ensureMutationsAllowed db.metadata
  require (db.metadata.walletId = o.walletId ∧ o.createdAt = now ∧ now ≤ o.expiresAt)
    .invalidPersonalSigningOperation
  match db.operations.get o.operationId with
  | some existing =>
    if existing.operationBindingDigest = o.operationBindingDigest then
      .error .personalSigningOperationConflict
    else .error .personalSigningOperationBindingDrift
  | none =>
    let (auth, intent, security) ← orError (db.authorizedIntent authorizationId o.intentId)
      .authorizationUnavailable
    let material ← orError (db.materials.get (intent.id, .policyInput)) .authorizationUnavailable
    require (now ≤ auth.expiresAt ∧ auth.consumedAt = none ∧ auth.invalidatedAt = none ∧
      intent.sessionId = o.sessionId ∧ intent.status = .approved ∧
      security.signerId = "frost:participant-0" ∧ intent.txDigest = o.taprootSighash ∧
      intent.policyHash = o.policyDigest ∧ intent.expiresAt = o.expiresAt)
      .authorizationUnavailable
    validatePersonalOperationMaterial P material o
    require (o.signerEpoch.toNat ≤ maxInteger) .sqlite
    let operations ← orError (db.operations.insert? o.row) .sqlite
    let db' ← { db with operations := operations }.spend
      ⟨⟨authorizationId, o.intentId, security.signerId⟩, o.sessionId, o.operationBindingDigest⟩
      .sqlite now
    return db'.log "personal_signing.authorized_started" (some (.uuid o.operationId)) now

def SigningRound.expectedStatus : SigningRound → OperationStatus
  | .commitment => .collectingCommitments
  | .signatureShare => .collectingShares

def SigningRound.receivedEvent : SigningRound → String
  | .commitment => "personal_signing.commitment_received"
  | .signatureShare => "personal_signing.share_received"

/-- A receipt is recorded once; the same one again is no error. -/
def recordPersonalSigningReceipt (r : ReceiptRow) : Except StorageError Db := do
  require (r.signerId ≠ 0 ∧ r.signerId ≤ 3 ∧ r.deviceGeneration ≠ 0 ∧ r.payload ≠ [] ∧
    r.payload.length ≤ 16 * 1024) .invalidPersonalSigningOperation
  match db.receipts.get r.key with
  | some existing =>
    require (existing = { r with receivedAt := existing.receivedAt })
      .personalSigningReceiptConflict
    return db
  | none =>
    ensureMutationsAllowed db.metadata
    let o ← orError (db.operations.get r.operationId) .invalidPersonalSigningOperation
    require (o.walletId = db.metadata.walletId) .invalidPersonalSigningOperation
    require (o.status = r.round.expectedStatus ∧
      (r.signerId = o.selectedParticipants.1 ∨ r.signerId = o.selectedParticipants.2) ∧
      r.receivedAt ≤ o.expiresAt) .personalSigningOperationConflict
    require (r.deviceGeneration.toNat ≤ maxInteger) .sqlite
    let receipts ← orError (db.receipts.insert? r) .sqlite
    return { db with receipts := receipts }.log r.round.receivedEvent (some (.uuid r.operationId))
      r.receivedAt

variable (operationId : Uuid)

def Db.receiptCount (round : SigningRound) : ℕ :=
  db.receipts.count fun r => r.operationId = operationId ∧ r.round = round

/-- `UPDATE personal_signing_operations SET change WHERE operation_id, wallet_id,
operation_binding_digest AND p`. -/
def Db.moveOperation (operationBindingDigest : Bytes32)
    (p : OperationRow → Bool) (change : OperationRow → OperationRow)
    (hchange : ∀ o, (change o).operationId = o.operationId) : Except StorageError Db := do
  let operations ← orError (db.operations.updateAt operationId
    (fun o => o.walletId = db.metadata.walletId ∧
      o.operationBindingDigest = operationBindingDigest ∧ p o) change hchange)
    .personalSigningOperationConflict
  return { db with operations := operations }

/-- Two commitments are needed. -/
def freezePersonalSigningOperation (operationBindingDigest : Bytes32)
    (signingPackage : Bytes) (now : Time) : Except StorageError Db := do
  require (signingPackage ≠ [] ∧ signingPackage.length ≤ 16 * 1024) .invalidPersonalSigningOperation
  ensureMutationsAllowed db.metadata
  require (2 ≤ db.receiptCount operationId .commitment) .personalSigningOperationConflict
  let db' ← db.moveOperation operationId operationBindingDigest
    (fun o => o.status = .collectingCommitments ∧ now ≤ o.expiresAt)
    (fun o => { o with status := .collectingShares, signingPackage := some signingPackage,
                       updatedAt := now }) fun _ => rfl
  return db'.log "personal_signing.commitments_frozen" (some (.uuid operationId)) now

/-- `complete_personal_signing_operation`; the signature has 64 bytes by its type. -/
def completePersonalSigningOperation (operationBindingDigest : Bytes32)
    (signature : Bytes) (now : Time) : Except StorageError Db := do
  ensureMutationsAllowed db.metadata
  require (2 ≤ db.receiptCount operationId .signatureShare) .personalSigningOperationConflict
  let db' ← db.moveOperation operationId operationBindingDigest
    (fun o => o.status = .collectingShares ∧ now ≤ o.expiresAt)
    (fun o => { o with status := .finalized, finalSignature := some signature, updatedAt := now })
    fun _ => rfl
  return db'.log "personal_signing.finalized" (some (.uuid operationId)) now

def isReasonByte (b : UInt8) : Bool :=
  (48 ≤ b ∧ b ≤ 57) ∨ (65 ≤ b ∧ b ≤ 90) ∨ (97 ≤ b ∧ b ≤ 122) ∨ b = 95 ∨ b = 45

/-- The intent is left as it is. -/
def terminatePersonalSigningOperation (operationBindingDigest : Bytes32)
    (status : OperationStatus) (reason : String) (now : Time) : Except StorageError Db := do
  require ((status = .aborted ∨ status = .expired ∨ status = .failed) ∧ reason ≠ "" ∧
    reason.utf8ByteSize ≤ 64 ∧ reason.toUTF8.toList.all isReasonByte)
    .invalidPersonalSigningOperation
  ensureMutationsAllowed db.metadata
  let db' ← db.moveOperation operationId operationBindingDigest
    (fun o => o.status = .collectingCommitments ∨ o.status = .collectingShares)
    (fun o => { o with status := status, terminalReason := some reason, updatedAt := now })
    fun _ => rfl
  return db'.log "personal_signing.terminated" (some (.uuid operationId)) now

structure ProviderIdentity where
  (walletId signerSetId : Uuid)
  signerEpoch : UInt64
  signerId : UInt16
  deviceId : Uuid
  deviceGeneration : UInt64
  (groupPubkeyXonly verifyingShareDigest : Bytes32)
  deriving DecidableEq

structure SignerRequestContext extends ProviderIdentity where
  protocolVersion : UInt16
  (operationId intentId : Uuid)
  (sessionId taprootSighash policyDigest : Bytes32)
  (minSigners maxSigners : UInt16)
  (chainSnapshotDigest requestNonce : Bytes32)
  expiresAt : Time
  deriving DecidableEq

namespace SignerRequestContext

variable (c : SignerRequestContext)

def commonBinding : Bytes :=
  beBytes 2 c.protocolVersion.toNat ++ c.walletId.bytes ++ c.signerSetId.bytes ++
    beBytes 8 c.signerEpoch.toNat ++ beBytes 2 c.signerId.toNat ++ c.deviceId.bytes ++
    beBytes 8 c.deviceGeneration.toNat ++ c.operationId.bytes ++ c.intentId.bytes ++
    c.sessionId.bytes ++ c.taprootSighash.bytes ++ c.policyDigest.bytes ++
    c.groupPubkeyXonly.bytes ++ c.verifyingShareDigest.bytes ++ beBytes 2 c.minSigners.toNat ++
    beBytes 2 c.maxSigners.toNat ++ c.chainSnapshotDigest.bytes ++
    beBytes 8 (c.expiresAt % 2 ^ 64).toNat

def operationBindingDigest : Bytes32 :=
  P.sha256 ("catomicals/signer-operation/v1\x00".toUTF8.toList ++ c.commonBinding)

def row (claimedAt : Time) : RequestNonceRow where
  key := ⟨c.walletId, c.signerSetId, c.signerEpoch, c.signerId, c.deviceId, c.deviceGeneration,
    c.requestNonce⟩
  operationId := c.operationId
  intentId := c.intentId
  sessionId := c.sessionId
  taprootSighash := c.taprootSighash
  policyDigest := c.policyDigest
  operationBindingDigest := c.operationBindingDigest P
  claimedAt := claimedAt

end SignerRequestContext

def RequestNonceRow.sameOperation (a b : RequestNonceRow) : Bool :=
  a.key.walletId = b.key.walletId ∧ a.key.signerSetId = b.key.signerSetId ∧
    a.key.signerEpoch = b.key.signerEpoch ∧ a.key.signerId = b.key.signerId ∧
    a.operationId = b.operationId

/-- A request nonce is claimed once for a device. -/
def claimSignerRequestNonce (identity : ProviderIdentity) (context : SignerRequestContext)
    (claimedAt : Time) : Except StorageError Db := do
  require (identity = context.toProviderIdentity)
    (.invalidStoredValue "signer provider identity drift")
  ensureMutationsAllowed db.metadata
  require (db.metadata.walletId = identity.walletId)
    (.invalidStoredValue "signer provider belongs to a different wallet")
  let row := context.row P claimedAt
  require (identity.signerEpoch.toNat ≤ maxInteger) .sqlite
  -- the query takes any one of the earlier rows, the trigger looks at all of them
  require ((db.requestNonces.find? row.sameOperation).all fun prior =>
    prior.operationBindingDigest = row.operationBindingDigest) .signerOperationBindingDrift
  require (identity.deviceGeneration.toNat ≤ maxInteger) .sqlite
  require (identity.signerEpoch ≠ 0 ∧ identity.signerId ≠ 0 ∧ identity.deviceGeneration ≠ 0 ∧
    ¬db.requestNonces.any fun prior => row.sameOperation prior ∧
      prior.operationBindingDigest ≠ row.operationBindingDigest) .nonceAlreadyClaimed
  let requestNonces ← orError (db.requestNonces.insert? row) .nonceAlreadyClaimed
  return { db with requestNonces := requestNonces }.log "signer.request_nonce_claimed"
    (some (.uuid context.operationId)) claimedAt

end Catomicals.WalletStorage
