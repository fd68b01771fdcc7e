import Catomicals.WalletStorage.Models

/-!
# The wallet database and its errors

Every public call runs one SQLite transaction, so a call is a function from the database to the new
database or an error, and a transaction that fails leaves the database as it was.
-/
namespace Catomicals.WalletStorage

open Base Domain

/-- The tables that hold credentials and signer profiles. -/
structure Registry where
  credentials : Rows CredentialRow.credentialId
  webauthnProfiles : Rows WebauthnProfile.walletId
  secretRefs : Rows SecretRefRow.id
  signerProfiles : Rows SignerProfileRow.profileId
  addressBindings : Rows AddressBindingRow.bindingId
  deriving DecidableEq

structure Db where
  metadata : WalletMetadata
  intents : Rows IntentRow.id
  materials : Rows MaterialRow.key
  ceremonies : Rows CeremonyRow.id
  authorizations : Rows AuthorizationRow.id
  nonceClaims : Rows NonceClaimRow.fingerprint
  jobs : Rows fun j : SigningJobRow => j.jobId
  executorClaims : Rows ExecutorClaimRow.jobId
  operations : Rows fun o : OperationRow => o.operationId
  receipts : Rows ReceiptRow.key
  requestNonces : Rows RequestNonceRow.key
  registry : Registry
  audit : List AuditEvent
  deriving DecidableEq

/-- The errors of exporting, restoring and recovering backups. -/
inductive BackupError where
  | unsupportedPlatform | secretBackendUnavailable | secretBackendFailure | invalidManifest
  | invalidArtifact | artifactChecksumMismatch | databaseChecksumMismatch | walletMismatch
  | staleRecoveryEpoch (current backup : ℕ)
  | invalidDatabase
  | databaseTooLarge (size max : ℕ)
  | io
  | cutoverFailed
  | invalidCutoverJournal
  deriving DecidableEq

/-- The errors of the storage calls, as far as the modelled calls return them. -/
inductive StorageError where
  | backup (e : BackupError)
  | io
  /-- any error of SQLite itself: a violated constraint, a trigger, a conversion, I/O -/
  | sqlite
  | notInitialized
  | alreadyInitialized
  | immutableConflict (row : String)
  | invalidStoredValue (reason : String)
  | invalidSecretHandle (backend : SecretBackend)
  | authorizationUnavailable
  | approvalCeremonyUnavailable
  | approvalCeremonyExpired
  | intentExpired
  | approvalCeremonyExceedsIntentExpiry
  | authorizationExpiresBeforeApproval
  | authorizationExceedsIntentExpiry
  | intentNotApprovable
  | authorizationAlreadyExists
  | credentialCounterRollback
  | webauthnProfileMismatch
  | credentialVersionConflict
  | credentialUnavailable
  | approvalBindingMismatch
  | intentMaterialMismatch
  | invalidV2Intent (reason : String)
  | legacyApiRejectedForV2
  | mutationBlocked (state : RestoreState)
  | nonceAlreadyClaimed
  | signerOperationBindingDrift
  | personalSigningOperationBindingDrift
  | invalidPersonalSigningOperation
  | personalSigningOperationConflict
  | personalSigningReceiptConflict
  | invalidSignerProfile
  | invalidSigningJob
  | signingJobConflict
  | signingJobBindingDrift
  | staleEpoch (current provided : ℕ)
  | invalidRestoreTransition (current target : RestoreState)
  | invalidIntentTransition (current target : IntentStatus)
  | intentTransitionConflict
  deriving DecidableEq

/-- The linked crates: hashing, JSON and hexadecimal decoding. -/
structure Platform where
  /-- `Sha256::digest` -/
  sha256 : Bytes → Bytes32
  /-- whether `serde_json` parses a text -/
  jsonValid : String → Bool
  /-- SQLite's `json_valid` -/
  sqliteJsonValid : String → Bool
  /-- `serde_json::from_str::<PersistedPersonalIntent>` -/
  parsePersonalIntent : String → Option PersonalSigningPolicy
  /-- `hex::decode` into 32 bytes -/
  decodeHex32 : String → Option Bytes32

/-- The largest value an `INTEGER` column holds. -/
def maxInteger : ℕ := 2 ^ 63 - 1

def ensureMutationsAllowed (metadata : WalletMetadata) : Except StorageError Unit :=
  require (metadata.restoreState = .normal ∨ metadata.restoreState = .snapshotting)
    (.mutationBlocked metadata.restoreState)

/-- `append_audit`. -/
def Db.log (db : Db) (eventType : String) (subject : Option AuditSubject) (now : Time) : Db :=
  { db with audit := db.audit ++ [⟨db.metadata.epoch, eventType, subject, now⟩] }

end Catomicals.WalletStorage
