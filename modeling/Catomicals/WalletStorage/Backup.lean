import Catomicals.WalletStorage.Calls

/-!
# Encrypted backups

What reading a bundle accepts, the image an export takes, and how a restore turns an image into the
database it installs. The secret backend, the digest and SQLite's reading are parameters.
-/
namespace Catomicals.WalletStorage

open Base Domain

def formatVersion : ℕ := 1

def currentSchemaVersion : ℤ := 7

def databaseFile : String := "wallet.sqlite3.enc"

/-- `ARTIFACT_MAGIC`, the text `CATBKP01`. -/
def artifactMagic : Bytes := [67, 65, 84, 66, 75, 80, 48, 49]

def maxBackupDatabaseBytes : ℕ := 128 * 1024 * 1024

def maxBackupArtifactBytes : ℕ := maxBackupDatabaseBytes + artifactMagic.length + 24 + 16

/-- The part of a manifest that the seal of the database authenticates. -/
structure ManifestCore where
  formatVersion : ℕ
  schemaVersion : ℤ
  walletId : Uuid
  recoveryEpoch : ℕ
  createdAt : Time
  (secretBackend databaseFile databaseSha256 : String)
  deriving DecidableEq

structure BackupManifest extends ManifestCore where
  (dekRef artifactSha256 : String)
  deriving DecidableEq

inductive SecretBackendError where
  | unsupportedPlatform | developmentBackendForbidden | backendUnavailable
  | productionBackendUnavailable | productionBackendResolutionFailed | insecurePermissions
  | invalidHandle | secretTooLarge | secretNotFound | corruptRecord | cryptographicFailure | io

def BackupError.ofSecretBackend : SecretBackendError → BackupError
  | .backendUnavailable => .secretBackendUnavailable
  | .unsupportedPlatform => .unsupportedPlatform
  | _ => .secretBackendFailure

structure BackupBackend where
  backendName : String
  /-- `open_sealed_payload_parts`: key reference, nonce, ciphertext and authenticated manifest -/
  openSealedPayloadParts : String → Bytes → Bytes → ManifestCore → Except SecretBackendError Bytes

/-- What the linked crates do with the bytes of a bundle. -/
structure BundleFormat where
  sha256Hex : Bytes → String
  /-- SQLite's reading of a serialized database of an initialized wallet, if it is in order -/
  readDatabase : Bytes → Option Db

/-- A bundle on disk: the manifest, if it can be parsed, and the sealed database. -/
structure Bundle where
  manifest : Option BackupManifest
  artifact : Option Bytes

section Bundle

variable (F : BundleFormat) (backend : BackupBackend)

def validateManifest (m : BackupManifest) : Except BackupError Unit :=
  require (m.formatVersion = formatVersion ∧ m.schemaVersion = currentSchemaVersion ∧
    m.databaseFile = databaseFile ∧ m.secretBackend = backend.backendName ∧
    m.databaseSha256.utf8ByteSize = 64 ∧ m.artifactSha256.utf8ByteSize = 64) .invalidManifest

/-- The nonce and the ciphertext of a sealed database. -/
def decodeArtifact (artifact : Bytes) : Except BackupError (Bytes × Bytes) := do
  require (artifactMagic.length + 24 < artifact.length ∧
    artifact.take artifactMagic.length = artifactMagic) .invalidArtifact
  let rest := artifact.drop artifactMagic.length
  return (rest.take 24, rest.drop 24)

def validateDatabaseSize (size : ℕ) : Except BackupError Unit :=
  require (size ≤ maxBackupDatabaseBytes) (.databaseTooLarge size maxBackupDatabaseBytes)

def openSealed (m : BackupManifest) (nonce ciphertext : Bytes) : Except BackupError Bytes :=
  match backend.openSealedPayloadParts m.dekRef nonce ciphertext m.toManifestCore with
  | .ok plaintext => .ok plaintext
  | .error e => .error (.ofSecretBackend e)

def decryptAndVerifyBundle (bundle : Bundle) : Except BackupError (BackupManifest × Bytes) := do
  let manifest ← orError bundle.manifest .invalidManifest
  validateManifest backend manifest
  let artifact ← orError bundle.artifact .invalidArtifact
  require (artifact.length ≤ maxBackupArtifactBytes) .invalidArtifact
  require (F.sha256Hex artifact = manifest.artifactSha256) .artifactChecksumMismatch
  let (nonce, ciphertext) ← decodeArtifact artifact
  let plaintext ← openSealed backend manifest nonce ciphertext
  validateDatabaseSize plaintext.length
  require (F.sha256Hex plaintext = manifest.databaseSha256) .databaseChecksumMismatch
  return (manifest, plaintext)

/-- `validate_snapshot_database_bytes`, with the database it has read. -/
def validateSnapshotDatabaseBytes (bytes : Bytes) (m : BackupManifest) : Except BackupError Db := do
  let db ← orError (F.readDatabase bytes) .invalidDatabase
  require (db.metadata.walletId = m.walletId ∧ db.metadata.epoch = m.recoveryEpoch) .invalidDatabase
  return db

/-- The part of a restore that only reads the bundle. -/
def acceptBundle (backend : Option BackupBackend) (bundle : Bundle) (expectedWalletId : Uuid) :
    Except BackupError (BackupManifest × Db) := do
  let backend ← orError backend .secretBackendUnavailable
  let (manifest, plaintext) ← decryptAndVerifyBundle F backend bundle
  require (manifest.walletId = expectedWalletId) .walletMismatch
  let image ← validateSnapshotDatabaseBytes F plaintext manifest
  return (manifest, image)

variable {F} {backend : Option BackupBackend} {bundle : Bundle} {walletId : Uuid}
  {manifest : BackupManifest} {image : Db}
  (h : acceptBundle F backend bundle walletId = .ok (manifest, image))
include h

lemma acceptBundle_eq_ok :
    manifest.walletId = walletId ∧ image.metadata.walletId = walletId ∧
      image.metadata.epoch = manifest.recoveryEpoch := by
  simp only [acceptBundle, validateSnapshotDatabaseBytes, bind_eq_ok, orError_eq_ok, require_eq_ok,
    pure_eq_ok, Prod.mk.injEq, Prod.exists] at h
  obtain ⟨_, -, m, plaintext, -, -, hw, image', ⟨db, -, -, ⟨hdw, hde⟩, rfl⟩, rfl, rfl⟩ := h
  exact ⟨hw, hdw.trans hw, hde⟩

lemma acceptBundle_manifest : bundle.manifest = some manifest := by
  simp only [acceptBundle, decryptAndVerifyBundle, bind_eq_ok, orError_eq_ok, pure_eq_ok,
    Prod.mk.injEq, Prod.exists] at h
  obtain ⟨_, -, _, _, ⟨m, hm, _, -, _, -, _, -, _, -, _, _, -, _, -, _, -, _, -, rfl, -⟩, _, -, _,
    -, rfl, -⟩ := h
  exact hm

end Bundle

/-- The image an export takes, and the live database after the export. -/
def exportSnapshot (db : Db) (now : Time) : Except StorageError (Db × Db) := do
  let image ← beginSnapshot db now
  let live ← finishSnapshot image now
  return (image, live)

/-- The checks of a restore against the live wallet; the result is the epoch it installs. -/
def checkAgainstLive (manifest : BackupManifest) (current : WalletMetadata)
    (expectedWalletId : Uuid) : Except BackupError ℕ := do
  require (current.walletId = expectedWalletId) .walletMismatch
  require (current.epoch ≤ manifest.recoveryEpoch)
    (.staleRecoveryEpoch current.epoch manifest.recoveryEpoch)
  require (manifest.recoveryEpoch + 1 < 2 ^ 64) .cutoverFailed
  return manifest.recoveryEpoch + 1

def stageImage (image : Db) (stagedAt now : Time) : Except StorageError Db := do
  let db ← finishSnapshot (invalidateUnfinishedCeremoniesOnStartup image stagedAt) now
  let db ← beginRestorePrecheck db now
  let db ← cutoverRestore db now
  beginRecovering db now

end Catomicals.WalletStorage
