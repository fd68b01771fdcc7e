import Catomicals.Base.Fields
import Catomicals.Base.Rows
import Catomicals.Domain.Chains

/-!
# The rows of the wallet database

One row type for each table. Columns that are `NULL` together share one optional field, a text
column with a fixed list of words is an enumeration, and a serialized value is kept as itself.
-/
namespace Catomicals.WalletStorage

open Base Domain

abbrev Uuid := BitVec 128

def Uuid.bytes (u : Uuid) : Bytes := beBytes 16 u.toNat

theorem prefixFree_uuid : PrefixFree Uuid.bytes :=
  prefixFree_beBytes (fun _ _ => BitVec.eq_of_toNat_eq) BitVec.isLt

/-- Seconds since the epoch, the `i64` times of the interface. -/
abbrev Time := ℤ

inductive RestoreState where
  | normal | snapshotting | restorePrecheck | cutover | recovering
  deriving DecidableEq

structure WalletMetadata where
  walletId : Uuid
  epoch : ℕ
  restoreState : RestoreState
  (createdAt updatedAt : Time)
  deriving DecidableEq

inductive IntentStatus where
  | pending | approved | signing | signed | cancelled | expired | invalidated
  deriving DecidableEq

def IntentStatus.mayTransitionTo : IntentStatus → IntentStatus → Bool
  | .pending, .cancelled | .pending, .expired | .pending, .invalidated => true
  | .approved, .signing | .approved, .cancelled | .approved, .expired
  | .approved, .invalidated => true
  | .signing, .signed | .signing, .invalidated => true
  | _, _ => false

inductive IntentNetwork where
  | mainnet | testnet | signet | regtest
  deriving DecidableEq

inductive IntentAction where
  | issue | mint | transfer | swap | spend
  deriving DecidableEq

/-- The security fields a version-2 intent has and a legacy intent lacks. -/
structure IntentSecurity where
  network : IntentNetwork
  protocolVersion : UInt32
  action : IntentAction
  signerId : String
  approvalNonce : Bytes32
  deriving DecidableEq

structure IntentRow where
  (id walletId : Uuid)
  epoch : ℕ
  (txDigest policyHash sessionId : Bytes32)
  status : IntentStatus
  (expiresAt createdAt updatedAt : Time)
  /-- present exactly when `intent_schema_version` is 2 -/
  v2 : Option IntentSecurity
  deriving DecidableEq

inductive MaterialKind where
  | unsignedTransaction | policyInput | nodeSnapshot
  deriving DecidableEq

structure MaterialRow where
  intentId : Uuid
  kind : MaterialKind
  payloadJson : String
  payloadHash : Bytes32
  nodeSnapshotId : String
  deriving DecidableEq

def MaterialRow.key (m : MaterialRow) : Uuid × MaterialKind := (m.intentId, m.kind)

structure CeremonyBinding where
  bindingDigest : Bytes32
  credentialId : String
  deriving DecidableEq

structure CeremonyRow where
  (id walletId intentId : Uuid)
  epoch : ℕ
  (startedAt expiresAt : Time)
  (completedAt invalidatedAt : Option Time)
  binding : Option CeremonyBinding
  deriving DecidableEq

structure AuthorizationRow where
  (id walletId intentId : Uuid)
  epoch : ℕ
  bindingDigest : Bytes32
  (expiresAt issuedAt : Time)
  (consumedAt invalidatedAt : Option Time)
  deriving DecidableEq

structure NonceOrigin where
  (authorizationId intentId : Uuid)
  signerId : String
  deriving DecidableEq

structure NonceClaimRow where
  fingerprint : Bytes32
  walletId : Uuid
  epoch : ℕ
  sessionId : Bytes32
  claimedAt : Time
  invalidatedAt : Option Time
  origin : Option NonceOrigin
  deriving DecidableEq

inductive SigningJobStatus where
  | prepared | signing | finalized | aborted | expired | failed
  deriving DecidableEq

structure NewSigningJob where
  (jobId walletId profileId intentId : Uuid)
  chainScope : ChainScope
  signingSuiteId : SigningSuiteId
  backendRequirement : SignerBackendRequirement
  reviewSchemaVersion : UInt16
  reviewArtifact : ReviewArtifact
  (reviewDigest signingMessageDigest policySnapshotDigest chainSnapshotDigest sessionId : Bytes32)
  selectedParties : String × String
  receiver : String
  (expiresAt createdAt : Time)
  deriving DecidableEq

structure SigningJobRow extends NewSigningJob where
  operationBindingDigest : Option Bytes32
  status : SigningJobStatus
  finalSignature : Option Bytes
  terminalReason : Option String
  updatedAt : Time
  deriving DecidableEq

structure ChainExecutorClaim where
  (walletId profileId : Uuid)
  signingSuiteId : SigningSuiteId
  backendRequirement : SignerBackendRequirement
  (sessionId reviewDomainDigest signingMessageDigest operationBindingDigest : Bytes32)
  claimedAt : Time
  deriving DecidableEq

structure ExecutorClaimRow extends ChainExecutorClaim where
  jobId : Uuid
  deriving DecidableEq

inductive OperationStatus where
  | collectingCommitments | collectingShares | finalized | aborted | expired | failed
  deriving DecidableEq

structure NewPersonalSigningOperation where
  (operationId walletId profileId signerSetId : Uuid)
  signerEpoch : UInt64
  intentId : Uuid
  (sessionId taprootSighash policyDigest chainSnapshotDigest groupPubkeyXonly : Bytes32)
  (profileBindingDigest operationBindingDigest : Bytes32)
  allowedParticipants : UInt16 × UInt16 × UInt16
  selectedParticipants : UInt16 × UInt16
  (threshold maxSigners : UInt16)
  (expiresAt createdAt : Time)
  deriving DecidableEq

structure OperationRow extends NewPersonalSigningOperation where
  status : OperationStatus
  (signingPackage finalSignature : Option Bytes)
  terminalReason : Option String
  updatedAt : Time
  deriving DecidableEq

/-- The signing policy stored with a personal intent, before its hexadecimal fields are
decoded. -/
structure PersonalSigningPolicy where
  (profileId signerSetId : Uuid)
  signerEpoch : UInt64
  groupPubkeyXonly : String
  allowedParticipants : UInt16 × UInt16 × UInt16
  threshold : UInt16
  (policyDigest chainSnapshotDigest : String)

inductive SigningRound where
  | commitment | signatureShare
  deriving DecidableEq

structure ReceiptRow where
  operationId : Uuid
  signerId : UInt16
  round : SigningRound
  deviceId : Uuid
  deviceGeneration : UInt64
  requestBindingDigest : Bytes32
  payload : Bytes
  receivedAt : Time
  deriving DecidableEq

def ReceiptRow.key (r : ReceiptRow) : Uuid × UInt16 × SigningRound :=
  (r.operationId, r.signerId, r.round)

structure RequestNonceKey where
  (walletId signerSetId : Uuid)
  signerEpoch : UInt64
  signerId : UInt16
  deviceId : Uuid
  deviceGeneration : UInt64
  requestNonce : Bytes32
  deriving DecidableEq

structure RequestNonceRow where
  key : RequestNonceKey
  (operationId intentId : Uuid)
  (sessionId taprootSighash policyDigest operationBindingDigest : Bytes32)
  claimedAt : Time
  deriving DecidableEq

inductive CredentialState where
  | active | legacyUnusable | disabled
  deriving DecidableEq

structure PasskeyFields where
  (passkeyJson format : String)
  recordVersion : ℕ
  state : CredentialState
  deriving DecidableEq

structure CredentialRow where
  credentialId : String
  walletId : Uuid
  (label cosePublicKey : String)
  signCount : UInt64
  (enrolledAt updatedAt : Time)
  passkey : Option PasskeyFields
  deriving DecidableEq

def CredentialRow.isActive (c : CredentialRow) : Bool :=
  c.passkey.map PasskeyFields.state == some .active

structure WebauthnProfile where
  walletId : Uuid
  (userId rpId rpOrigin : String)
  recordVersion : UInt64
  updatedAt : Time
  deriving DecidableEq

inductive SecretBackend where
  | osKeychain | hsm | encryptedFile
  deriving DecidableEq

def SecretBackend.requiredPrefix : SecretBackend → String
  | .osKeychain => "keychain://"
  | .hsm => "hsm://"
  | .encryptedFile => "encrypted-file://"

structure SecretRefRow where
  (id walletId : Uuid)
  backend : SecretBackend
  handle : String
  (createdAt updatedAt : Time)
  deriving DecidableEq

structure SignerProfileRow where
  (profileId walletId : Uuid)
  chainScope : ChainScope
  signingSuiteId : SigningSuiteId
  backendRequirement : SignerBackendRequirement
  (signerSetId authorizationSignerId : String)
  signerEpoch : UInt64
  (threshold maxSigners : UInt16)
  verificationKey : Bytes
  secretRefId : Uuid
  createdAt : Time
  deriving DecidableEq

structure AddressBindingRow where
  (bindingId profileId : Uuid)
  chainScope : ChainScope
  address : String
  verificationKeyDigest : Bytes32
  createdAt : Time
  deriving DecidableEq

inductive AuditSubject where
  | uuid (id : Uuid)
  | text (s : String)
  deriving DecidableEq

/-- An audit event without its payload, which nothing reads back. -/
structure AuditEvent where
  epoch : ℕ
  eventType : String
  subjectId : Option AuditSubject
  createdAt : Time
  deriving DecidableEq

end Catomicals.WalletStorage
