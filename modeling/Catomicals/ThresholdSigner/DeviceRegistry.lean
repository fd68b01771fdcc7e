import Catomicals.ThresholdSigner.Provider

/-!
# The registry of signer devices

A device enters with a challenge for the next generation of its signer, a proof that it holds its
key, and the signature of the active device it replaces. A request nonce is authorized once.
-/
namespace Catomicals.ThresholdSigner

open Base WalletStorage Method

inductive SignerProviderKind where
  | localEncrypted | remoteMtls | hsmAdapter
  deriving DecidableEq

def SignerProviderKind.code : SignerProviderKind → UInt8
  | .localEncrypted => 1
  | .remoteMtls => 2
  | .hsmAdapter => 3

inductive DeviceStatus where
  | unconfigured | active | revoked
  deriving DecidableEq

structure DeviceHealth where
  online : Bool
  (checkedAt lastSuccessAt : Option Time)
  lastErrorCode : Option String
  deriving DecidableEq

def DeviceHealth.unknown : DeviceHealth := ⟨false, none, none, none⟩

structure SignerDeviceRecord where
  signerId : UInt16
  deviceId : Option Uuid
  generation : UInt64
  provider : Option SignerProviderKind
  (identityPublicKeyHex mtlsSpkiSha256Hex : Option String)
  status : DeviceStatus
  (registeredAt rotatedAt revokedAt : Option Time)
  health : DeviceHealth
  deriving DecidableEq

def SignerDeviceRecord.unconfigured (signerId : UInt16) : SignerDeviceRecord :=
  ⟨signerId, none, 0, none, none, none, .unconfigured, none, none, none, .unknown⟩

structure DeviceRegistrationChallenge where
  (challengeId signerSetId : Uuid)
  signerEpoch : UInt64
  signerId : UInt16
  nextGeneration : UInt64
  nonce : Bytes32
  expiresAt : Time

structure DeviceRegistrationProof where
  (challengeId deviceId : Uuid)
  provider : SignerProviderKind
  identityPublicKeyHex : String
  mtlsSpkiSha256Hex : Option String
  signatureHex : String
  previousDeviceSignatureHex : Option String

/-- The linked crates and the build profile of the registry. -/
structure RegistryPlatform where
  /-- `Sha256::digest` -/
  sha256 : Bytes → Bytes32
  /-- `hex::decode` -/
  decodeHex : String → Option Bytes
  /-- `hex::encode` -/
  encodeHex : Bytes → String
  /-- the 32-byte arrays `XOnlyPublicKey::from_slice` accepts -/
  isXOnly : Bytes32 → Bool
  /-- the 64-byte arrays `schnorr::Signature::from_slice` accepts -/
  isSignature : Bytes → Bool
  /-- `verify_schnorr` of a signature, a message and a public key -/
  verifySchnorr : Bytes → Bytes32 → Bytes32 → Bool
  /-- whether the build profile checks integer overflow -/
  overflowChecks : Bool

structure SignerDeviceRegistry where
  signerSetId : Uuid
  signerEpoch : UInt64
  devices : Table UInt16 SignerDeviceRecord
  challenges : Table Uuid DeviceRegistrationChallenge
  consumedRequestNonces : Finset (Uuid × UInt64 × Bytes32)

namespace SignerDeviceRegistry

def new (signerSetId : Uuid) (signerEpoch : UInt64) (maxSigners : UInt16) :
    SignerDeviceRegistry where
  signerSetId := signerSetId
  signerEpoch := signerEpoch
  devices := Table.empty.applyAll ((List.range maxSigners.toNat).map fun i =>
    .put (UInt16.ofNat (i + 1)) (.unconfigured (UInt16.ofNat (i + 1))))
  challenges := .empty
  consumedRequestNonces := ∅

abbrev Action (α : Type) := Method SignerDeviceRegistry (Fault ProviderError) α

/-- `devices.insert`, or a write through `get_mut`. -/
def setDevice (r : SignerDeviceRegistry) (signerId : UInt16) (record : SignerDeviceRecord) :
    SignerDeviceRegistry :=
  { r with devices := r.devices.put signerId record }

section Calls

variable (P : RegistryPlatform)

def parseHex32 (value : String) : Except ProviderError Bytes32 :=
  orError ((P.decodeHex value).bind Bytes32.ofBytes) .invalidEncoding

def parseHex64 (value : String) : Except ProviderError Bytes :=
  orError ((P.decodeHex value).filter fun b => b.length = 64) .invalidEncoding

/-- `as_deref().map(parse_hex32).transpose()`. -/
def parseOptionalHex32 : Option String → Except ProviderError (Option Bytes32)
  | none => .ok none
  | some value => (parseHex32 P value).map some

variable (challenge : DeviceRegistrationChallenge) (proof : DeviceRegistrationProof)

/-- The bytes a registration is hashed from, zeros for an absent certificate digest. -/
def registrationPreimage (publicKey : Bytes32) (spkiSha256 : Option Bytes32) : Bytes :=
  "catomicals/signer-device-registration/v1\x00".toUTF8.toList ++
    challenge.challengeId.bytes ++ challenge.signerSetId.bytes ++
    beBytes 8 challenge.signerEpoch.toNat ++ beBytes 2 challenge.signerId.toNat ++
    beBytes 8 challenge.nextGeneration.toNat ++ challenge.nonce.bytes ++
    beBytes 8 (challenge.expiresAt % 2 ^ 64).toNat ++ proof.deviceId.bytes ++
    [proof.provider.code] ++ publicKey.bytes ++ (spkiSha256.getD .zeros).bytes

def registrationDigest (spkiSha256 : Option Bytes32) : Except ProviderError Bytes32 := do
  let publicKey ← parseHex32 P proof.identityPublicKeyHex
  return P.sha256 (registrationPreimage challenge proof publicKey spkiSha256)

def verifyDigest (keyHex signatureHex : String) (challenge : DeviceRegistrationChallenge)
    (proof : DeviceRegistrationProof) (spkiSha256 : Option Bytes32) :
    Except ProviderError Unit := do
  let publicKey ← parseHex32 P keyHex
  require (P.isXOnly publicKey = true) .invalidEncoding
  let signature ← parseHex64 P signatureHex
  require (P.isSignature signature = true) .invalidEncoding
  let message ← registrationDigest P challenge proof spkiSha256
  require (P.verifySchnorr signature message publicKey = true) .invalidProof

def verifyRegistrationProof (spkiSha256 : Option Bytes32) : Except ProviderError Unit :=
  verifyDigest P proof.identityPublicKeyHex proof.signatureHex challenge proof spkiSha256

variable (current : SignerDeviceRecord)

def verifyRotationAuthorization (challenge : DeviceRegistrationChallenge)
    (proof : DeviceRegistrationProof) (spkiSha256 : Option Bytes32) :
    Except ProviderError Unit := do
  let currentKey ← orError current.identityPublicKeyHex .rotationAuthorizationRequired
  let signatureHex ← orError proof.previousDeviceSignatureHex .rotationAuthorizationRequired
  verifyDigest P currentKey signatureHex challenge proof spkiSha256

def nextGeneration (generation : UInt64) : Except (Fault ProviderError) UInt64 :=
  (addU64 P.overflowChecks generation 1).mapError .panic

def issueRegistrationChallenge (signerId : UInt16) (now ttlSeconds : Time) (challengeId : Uuid)
    (nonce : Bytes32) : Action DeviceRegistrationChallenge := do
  lift (require (0 < ttlSeconds) (.error .invalidChallenge))
  let r ← get
  let record ← lift (orError (r.devices.get signerId) (.error .unknownParticipant))
  let generation ← lift (nextGeneration P record.generation)
  let expiresAt ← lift (orError (checkedAddTime now ttlSeconds) (.error .invalidChallenge))
  let challenge : DeviceRegistrationChallenge :=
    ⟨challengeId, r.signerSetId, r.signerEpoch, signerId, generation, nonce, expiresAt⟩
  modify fun r => { r with challenges := r.challenges.put challengeId challenge }
  return challenge

/-- The certificate pin of a proof; a remote signer must have one. -/
def proofCertificate : Except ProviderError (Option Bytes32) :=
  match proof.provider, proof.mtlsSpkiSha256Hex with
  | .localEncrypted, _ => .error .invalidProvider
  | .remoteMtls, none => .error .spkiMismatch
  | _, spki => parseOptionalHex32 P spki

/-- The proofs a registration needs: by the new device, and by an active one it replaces. -/
def verifyProofs (challenge : DeviceRegistrationChallenge) (proof : DeviceRegistrationProof)
    (certificate : Option Bytes32) : Except ProviderError Unit := do
  verifyRegistrationProof P challenge proof certificate
  if current.status = .active then
    verifyRotationAuthorization P current challenge proof certificate

def toAsciiLowercase (text : String) : String := String.ofList (text.toList.map Char.toLower)

def registeredRecord (challenge : DeviceRegistrationChallenge) (proof : DeviceRegistrationProof)
    (certificate : Option Bytes32) (now : Time) : SignerDeviceRecord where
  signerId := challenge.signerId
  deviceId := some proof.deviceId
  generation := challenge.nextGeneration
  provider := some proof.provider
  identityPublicKeyHex := some (toAsciiLowercase proof.identityPublicKeyHex)
  mtlsSpkiSha256Hex := certificate.map fun c => P.encodeHex c.bytes
  status := .active
  registeredAt := current.registeredAt.or (some now)
  rotatedAt := if 0 < current.generation then some now else none
  revokedAt := none
  health := .unknown

def register (now : Time) : Action SignerDeviceRecord := do
  let r ← get
  let challenge ← lift
    (orError (r.challenges.get proof.challengeId) (.error .invalidChallenge))
  modify fun r => { r with challenges := r.challenges.delete proof.challengeId }
  lift (require (now ≤ challenge.expiresAt ∧ challenge.signerSetId = r.signerSetId ∧
    challenge.signerEpoch = r.signerEpoch) (.error .invalidChallenge))
  let certificate ← lift ((proofCertificate P proof).mapError .error)
  let current ← lift
    (orError (r.devices.get challenge.signerId) (.error .unknownParticipant))
  let generation ← lift (nextGeneration P current.generation)
  lift (require (challenge.nextGeneration = generation) (.error .identityDrift))
  lift (require (current.status ≠ .revoked) (.error .revoked))
  lift ((verifyProofs P current challenge proof certificate).mapError .error)
  let record := registeredRecord P current challenge proof certificate now
  modify fun r => r.setDevice challenge.signerId record
  return record

def revokedRecord (record : SignerDeviceRecord) (now : Time) : SignerDeviceRecord :=
  { record with
    status := .revoked
    revokedAt := some now
    health := ⟨false, some now, record.health.lastSuccessAt, some "revoked"⟩ }

def revoke (signerId : UInt16) (expectedDeviceId : Uuid) (expectedGeneration : UInt64)
    (now : Time) : Action SignerDeviceRecord := do
  let r ← get
  let record ← lift (orError (r.devices.get signerId) (.error .unknownParticipant))
  lift (require (record.status ≠ .unconfigured) (.error .unconfigured))
  lift (require (record.deviceId = some expectedDeviceId ∧
    record.generation = expectedGeneration) (.error .identityDrift))
  modify fun r => r.setDevice signerId (revokedRecord record now)
  return revokedRecord record now

def requireActive : DeviceStatus → Except ProviderError Unit
  | .unconfigured => .error .unconfigured
  | .revoked => .error .revoked
  | .active => .ok ()

def authorizeRequest (context : SignerRequestContext) (presentedSpkiSha256 : Option Bytes32)
    (now : Time) : Action Unit := do
  let r ← get
  lift (require (context.protocolVersion = signerProviderProtocolVersion ∧
    context.signerSetId = r.signerSetId ∧ context.signerEpoch = r.signerEpoch ∧
    context.minSigners ≠ 0 ∧ context.minSigners ≤ context.maxSigners) (.error .wrongSignerSet))
  lift (require (now ≤ context.expiresAt) (.error .expired))
  let record ← lift (orError (r.devices.get context.signerId) (.error .unknownParticipant))
  lift ((requireActive record.status).mapError .error)
  lift (require (record.deviceId = some context.deviceId ∧
    record.generation = context.deviceGeneration) (.error .identityDrift))
  let expectedSpki ← lift
    ((parseOptionalHex32 P record.mtlsSpkiSha256Hex).mapError .error)
  lift (require (expectedSpki = presentedSpkiSha256) (.error .spkiMismatch))
  let triple := (context.deviceId, context.deviceGeneration, context.requestNonce)
  lift (require (triple ∉ r.consumedRequestNonces) (.error .replay))
  modify fun r => { r with consumedRequestNonces := insert triple r.consumedRequestNonces }
  modify fun r => r.setDevice context.signerId
    { record with health := ⟨true, some now, some now, none⟩ }

def markUnavailable (signerId : UInt16) (expectedDeviceId : Uuid) (expectedGeneration : UInt64)
    (errorCode : String) (now : Time) : Action Unit := do
  let r ← get
  let record ← lift (orError (r.devices.get signerId) (.error .unknownParticipant))
  lift (require (record.deviceId = some expectedDeviceId ∧
    record.generation = expectedGeneration) (.error .identityDrift))
  modify fun r => r.setDevice signerId
    { record with health := ⟨false, some now, record.health.lastSuccessAt, some errorCode⟩ }

end Calls

end SignerDeviceRegistry

end Catomicals.ThresholdSigner
