import Catomicals.WalletStorage.Store

/-!
# Credentials and signer profiles

The calls that touch only the registry tables: credentials, the WebAuthn profile, secret
references, signer profiles and their address bindings.
-/
namespace Catomicals.WalletStorage

open Base Domain

/-- `CredentialMetadata`, the argument of `upsert_credential`. -/
structure CredentialMetadata where
  (credentialId label cosePublicKey : String)
  signCount : UInt64
  (enrolledAt updatedAt : Time)

/-- `NewPasskeyRecord`, the argument of `insert_passkey_record`. -/
structure NewPasskeyRecord where
  (credentialId label passkeyJson format : String)
  credentialState : CredentialState
  enrolledAt : Time

structure SecretRef where
  id : Uuid
  backend : SecretBackend
  handle : String
  (createdAt updatedAt : Time)

namespace Registry

variable (P : Platform) (metadata : WalletMetadata) (reg : Registry)

def upsertCredential (c : CredentialMetadata) : Except StorageError Registry := do
  require (¬reg.credentials.any fun r => r.credentialId = c.credentialId ∧
    c.signCount < r.signCount) .credentialCounterRollback
  require (c.signCount.toNat ≤ maxInteger) .sqlite
  let row : CredentialRow :=
    { credentialId := c.credentialId, walletId := metadata.walletId, label := c.label,
      cosePublicKey := c.cosePublicKey, signCount := c.signCount, enrolledAt := c.enrolledAt,
      updatedAt := c.updatedAt, passkey := none }
  match reg.credentials.insert? row with
  | some credentials => return { reg with credentials := credentials }
  | none => return { reg with
      credentials := reg.credentials.update (fun r => r.credentialId = c.credentialId)
        (fun r => { r with label := c.label, cosePublicKey := c.cosePublicKey,
                           signCount := c.signCount, updatedAt := c.updatedAt })
        fun _ => rfl }

def setWebauthnProfile (profile : WebauthnProfile) : Except StorageError Registry := do
  require (profile.walletId = metadata.walletId) .webauthnProfileMismatch
  match reg.webauthnProfiles.get metadata.walletId with
  | some existing =>
    require (existing.userId = profile.userId ∧ existing.rpId = profile.rpId ∧
      existing.rpOrigin = profile.rpOrigin ∧ existing.recordVersion < profile.recordVersion)
      .webauthnProfileMismatch
    require (profile.recordVersion.toNat ≤ maxInteger) .sqlite
    return { reg with
      webauthnProfiles := reg.webauthnProfiles.update
        (fun r => r.walletId = metadata.walletId ∧ r.recordVersion = existing.recordVersion)
        (fun r => { r with recordVersion := profile.recordVersion, updatedAt := profile.updatedAt })
        fun _ => rfl }
  | none =>
    require (profile.recordVersion = 1 ∧ profile.userId ≠ "" ∧ profile.rpId ≠ "" ∧
      profile.rpOrigin ≠ "") .webauthnProfileMismatch
    let profiles ← orError (reg.webauthnProfiles.insert? profile) .sqlite
    return { reg with webauthnProfiles := profiles }

def insertPasskeyRecord (record : NewPasskeyRecord) : Except StorageError Registry := do
  require ((reg.webauthnProfiles.get metadata.walletId).isSome) .webauthnProfileMismatch
  -- the trigger on active credentials
  require (P.sqliteJsonValid record.passkeyJson) .sqlite
  let credentials ← orError (reg.credentials.insert?
    { credentialId := record.credentialId, walletId := metadata.walletId, label := record.label,
      cosePublicKey := "", signCount := 0, enrolledAt := record.enrolledAt,
      updatedAt := record.enrolledAt,
      passkey := some ⟨record.passkeyJson, record.format, 1, record.credentialState⟩ }) .sqlite
  return { reg with credentials := credentials }

/-- The checks of `insert_passkey_record` before its transaction. -/
def validateNewPasskey (record : NewPasskeyRecord) : Except StorageError Unit :=
  require (record.credentialState = .active ∧ record.credentialId ≠ "" ∧ record.format ≠ "" ∧
    P.jsonValid record.passkeyJson) .credentialUnavailable

/-- `update_passkey_record_in`: compare and swap on the version of an active credential. -/
def updatePasskeyRecord (credentialId : String) (expectedVersion : ℕ) (json : String) (now : Time) :
    Except StorageError Registry := do
  let matching (r : CredentialRow) : Bool := r.credentialId = credentialId ∧ r.isActive ∧
    r.passkey.map PasskeyFields.recordVersion = some expectedVersion
  -- the version is bound as an `INTEGER`
  require (expectedVersion ≤ maxInteger) .sqlite
  require (reg.credentials.any matching) .credentialVersionConflict
  -- beyond the largest integer SQLite computes a real number, which the column does not take
  require (expectedVersion < maxInteger) .sqlite
  require (P.sqliteJsonValid json) .sqlite
  return { reg with
    credentials := reg.credentials.update matching
      (fun r => { r with
        passkey := r.passkey.map fun k =>
          { k with passkeyJson := json, recordVersion := k.recordVersion + 1 }
        updatedAt := now })
      fun _ => rfl }

def validateSecretHandle (backend : SecretBackend) (handle : String) : Except StorageError Unit :=
  require (backend.requiredPrefix.toList <+: handle.toList ∧
    backend.requiredPrefix.utf8ByteSize < handle.utf8ByteSize) (.invalidSecretHandle backend)

def putSecretRef (secret : SecretRef) : Registry :=
  match reg.secretRefs.insert? ⟨secret.id, metadata.walletId, secret.backend, secret.handle,
      secret.createdAt, secret.updatedAt⟩ with
  | some refs => { reg with secretRefs := refs }
  | none => { reg with
      secretRefs := reg.secretRefs.update (fun r => r.id = secret.id)
        (fun r => { r with backend := secret.backend, handle := secret.handle,
                           updatedAt := secret.updatedAt })
        fun _ => rfl }

def validateNewSignerProfile (profile : SignerProfileRow) : Except StorageError Unit :=
  match requireExecutableSuite profile.chainScope profile.signingSuiteId with
  | .error _ => .error .invalidSignerProfile
  | .ok descriptor =>
    require (descriptor.backendRequirement = profile.backendRequirement ∧
      profile.signerSetId ≠ "" ∧ profile.signerSetId.utf8ByteSize ≤ 128 ∧
      profile.authorizationSignerId ≠ "" ∧ profile.authorizationSignerId.utf8ByteSize ≤ 128 ∧
      profile.signerEpoch ≠ 0 ∧ profile.threshold ≠ 0 ∧ profile.threshold ≤ profile.maxSigners ∧
      profile.verificationKey ≠ [] ∧ profile.verificationKey.length ≤ 256) .invalidSignerProfile

/-- The `UNIQUE` constraint of `signer_profiles`. -/
def sameSignerScope (a b : SignerProfileRow) : Bool :=
  a.walletId = b.walletId ∧ a.chainScope = b.chainScope ∧ a.signingSuiteId = b.signingSuiteId ∧
    a.signerSetId = b.signerSetId ∧ a.signerEpoch = b.signerEpoch

def registerSignerProfile (profile : SignerProfileRow) : Except StorageError Registry := do
  require (metadata.walletId = profile.walletId) .invalidSignerProfile
  require ((reg.secretRefs.get profile.secretRefId).map SecretRefRow.walletId =
    some metadata.walletId) .invalidSignerProfile
  require (profile.signerEpoch.toNat ≤ maxInteger) .sqlite
  require (¬reg.signerProfiles.any (sameSignerScope profile)) (.immutableConflict "signer_profile")
  let profiles ← orError (reg.signerProfiles.insert? profile) (.immutableConflict "signer_profile")
  return { reg with signerProfiles := profiles }

def bindSignerAddress (binding : AddressBindingRow) : Except StorageError Registry := do
  let profile ← orError (reg.signerProfiles.get binding.profileId) .invalidSignerProfile
  require (profile.walletId = metadata.walletId) .invalidSignerProfile
  require (profile.chainScope = binding.chainScope ∧
    binding.verificationKeyDigest = P.sha256 profile.verificationKey) .invalidSignerProfile
  require (¬reg.addressBindings.any fun b => b.profileId = binding.profileId ∧
    b.address = binding.address) (.immutableConflict "signer_address_binding")
  let bindings ← orError (reg.addressBindings.insert? binding)
    (.immutableConflict "signer_address_binding")
  return { reg with addressBindings := bindings }

end Registry

inductive RegistryCall where
  | upsertCredential (c : CredentialMetadata)
  | setWebauthnProfile (profile : WebauthnProfile)
  | insertPasskeyRecord (record : NewPasskeyRecord)
  | updatePasskeyRecordCas (credentialId : String) (expectedVersion : ℕ) (json : String)
      (now : Time)
  | putSecretRef (secret : SecretRef)
  | registerSignerProfile (profile : SignerProfileRow)
  | bindSignerAddress (binding : AddressBindingRow)

/-- The checks a registry call makes before it starts its transaction. -/
def RegistryCall.validate (P : Platform) : RegistryCall → Except StorageError Unit
  | .insertPasskeyRecord record => Registry.validateNewPasskey P record
  | .updatePasskeyRecordCas _ _ json _ => require (P.jsonValid json) .credentialUnavailable
  | .putSecretRef secret => Registry.validateSecretHandle secret.backend secret.handle
  | .registerSignerProfile profile => Registry.validateNewSignerProfile profile
  | .bindSignerAddress binding =>
    require (binding.address ≠ "" ∧ binding.address.utf8ByteSize ≤ 512) .invalidSignerProfile
  | _ => .ok ()

def RegistryCall.event (metadata : WalletMetadata) : RegistryCall → AuditEvent
  | .upsertCredential c =>
    ⟨metadata.epoch, "credential.upserted", some (.text c.credentialId), c.updatedAt⟩
  | .setWebauthnProfile profile =>
    ⟨metadata.epoch, "webauthn.profile_persisted", some (.uuid metadata.walletId),
      profile.updatedAt⟩
  | .insertPasskeyRecord record =>
    ⟨metadata.epoch, "credential.passkey_enrolled", some (.text record.credentialId),
      record.enrolledAt⟩
  | .updatePasskeyRecordCas credentialId _ _ now =>
    ⟨metadata.epoch, "credential.passkey_updated", some (.text credentialId), now⟩
  | .putSecretRef secret =>
    ⟨metadata.epoch, "secret_ref.upserted", some (.uuid secret.id), secret.updatedAt⟩
  | .registerSignerProfile profile =>
    ⟨metadata.epoch, "signer_profile.registered", some (.uuid profile.profileId),
      profile.createdAt⟩
  | .bindSignerAddress binding =>
    ⟨metadata.epoch, "signer_address.bound", some (.uuid binding.bindingId), binding.createdAt⟩

def RegistryCall.transact (P : Platform) (metadata : WalletMetadata) (reg : Registry) :
    RegistryCall → Except StorageError Registry
  | .upsertCredential c => reg.upsertCredential metadata c
  | .setWebauthnProfile profile => reg.setWebauthnProfile metadata profile
  | .insertPasskeyRecord record => reg.insertPasskeyRecord P metadata record
  | .updatePasskeyRecordCas credentialId expectedVersion json now =>
    reg.updatePasskeyRecord P credentialId expectedVersion json now
  | .putSecretRef secret => .ok (reg.putSecretRef metadata secret)
  | .registerSignerProfile profile => reg.registerSignerProfile metadata profile
  | .bindSignerAddress binding => reg.bindSignerAddress P metadata binding

def registryCall (P : Platform) (db : Db) (c : RegistryCall) : Except StorageError Db := do
  c.validate P
  ensureMutationsAllowed db.metadata
  let registry ← c.transact P db.metadata db.registry
  return { db with registry := registry, audit := db.audit ++ [c.event db.metadata] }

end Catomicals.WalletStorage
