import Catomicals.ThresholdSigner.Participant

/-!
# The guarded signer provider

The local backend reserves a nonce pair for one operation and signs with it once; the guarded
provider checks the identity, the lifetime and the request nonce of every request before it.
-/
namespace Catomicals.ThresholdSigner

open Base WalletStorage Method LocalFrostParticipant

inductive ProviderError where
  | unknownParticipant | unconfigured | revoked | invalidChallenge | invalidProof
  | rotationAuthorizationRequired | invalidProvider | identityDrift | spkiMismatch | expired
  | sessionLifetimeExceeded | wrongSignerSet | replay | invalidEncoding | roundBindingMismatch
  | backendUnavailable
  deriving DecidableEq

inductive ProviderRound where
  | roundOne | roundTwo

def signerProviderProtocolVersion : UInt16 := 1

def maxSigningPackageBytes : ℕ := 16 * 1024

def maxReasonCodeBytes : ℕ := 64

def bindingDigest (P : Platform) (context : SignerRequestContext) : Bytes32 :=
  P.sha256 ("catomicals/signer-request/v1\x00".toUTF8.toList ++ context.commonBinding ++
    context.requestNonce.bytes)

def checkedAddTime (a b : Time) : Option Time :=
  if -2 ^ 63 ≤ a + b ∧ a + b < 2 ^ 63 then some (a + b) else none

/-- What the nonces of an operation are reserved for. -/
structure ReservationBinding where
  (sessionId taprootSighash operationBindingDigest : Bytes32)
  deriving DecidableEq

variable {S : SignerSuite} {A : Type}

def reservationBinding (S : SignerSuite) (context : SignerRequestContext) : ReservationBinding :=
  ⟨context.sessionId, context.taprootSighash, context.operationBindingDigest S.toPlatform⟩

abbrev AuthorizeRequest (A : Type) :=
  SignerRequestContext → ProviderRound → Method A ProviderError Unit

/-- The token of one request: used up by its first authorization. -/
structure ExactContextAuthorization where
  context : SignerRequestContext
  used : Bool

def ExactContextAuthorization.authorize : Authorize ExactContextAuthorization :=
  fun sessionId message signerId now => do
    let token ← get
    lift (require (token.used = false) .alreadyConsumed)
    lift (require (sessionId = token.context.sessionId) .wrongSession)
    lift (require (message = token.context.taprootSighash) .wrongMessage)
    lift (require (signerId = token.context.signerId) .wrongSigner)
    lift (require (now ≤ token.context.expiresAt) .expired)
    modify fun token => { token with used := true }

/-- A signer with the reservations of its operations. -/
structure LocalEncryptedFrostBackend (S : SignerSuite) (A : Type) where
  participant : LocalFrostParticipant S
  publicKeyPackage : S.PublicKeys
  authorizer : A
  reservations : Table Uuid ReservationBinding

namespace LocalEncryptedFrostBackend

abbrev Action (S : SignerSuite) (A : Type) (α : Type) :=
  Method (LocalEncryptedFrostBackend S A) ProviderError α

variable (b : LocalEncryptedFrostBackend S A)

def setParticipant (participant : LocalFrostParticipant S) : LocalEncryptedFrostBackend S A :=
  { b with participant := participant }

variable (authorize : AuthorizeRequest A) (context : SignerRequestContext)

def ask (round : ProviderRound) : Action S A Unit :=
  zoom authorizer (fun b a => { b with authorizer := a }) id (authorize context round)

/-- `reservations.insert`. -/
def reserve (operationId : Uuid) (binding : ReservationBinding) : LocalEncryptedFrostBackend S A :=
  { b with reservations := b.reservations.put operationId binding }

/-- `reservations.remove`. -/
def release (operationId : Uuid) : LocalEncryptedFrostBackend S A :=
  { b with reservations := b.reservations.delete operationId }

/-- Round one, once for an operation. -/
def reserveNonceAndCommit (entropy : S.Entropy) : Action S A S.SigningCommitments := do
  ask authorize context .roundOne
  let b ← get
  lift (require ((b.reservations.get context.operationId).isNone = true) .replay)
  let commitment ← zoom participant setParticipant (fun _ => .roundBindingMismatch)
    (round1 entropy context.sessionId context.taprootSighash)
  modify fun b => b.reserve context.operationId (reservationBinding S context)
  return commitment

def session (signingPackage : S.Package) : FrostSession S.toFrostSuite :=
  ⟨context.sessionId, context.taprootSighash, context.minSigners, signingPackage,
    b.publicKeyPackage⟩

/-- Round two: the reservation is released first. -/
def signReservedShare (signingPackage : S.Package) : Action S A S.SignatureShare := do
  let b ← get
  lift (require
    (b.reservations.get context.operationId = some (reservationBinding S context))
    .roundBindingMismatch)
  ask authorize context .roundTwo
  modify fun b => b.release context.operationId
  let b ← get
  zoom participant setParticipant (fun _ => .roundBindingMismatch)
    (withLocal ⟨context, false⟩ (round2
      ExactContextAuthorization.authorize (b.session context signingPackage) context.expiresAt))

/-- The reservation is released before the session is compared. -/
def burnReservation (operationId : Uuid) (sessionId : Bytes32) : Action S A Unit := do
  let b ← get
  let reservation ← lift
    (orError (b.reservations.get operationId) .roundBindingMismatch)
  modify fun b => b.release operationId
  lift (require (reservation.sessionId = sessionId) .roundBindingMismatch)
  modify fun b => b.setParticipant (b.participant.abortRound sessionId)

end LocalEncryptedFrostBackend

/-- A claim succeeds only for a request nonce the identity has not claimed yet, and is kept. -/
structure ProviderReplayStore where
  State : Type
  /-- `claim_request_nonce` -/
  claim : ProviderIdentity → SignerRequestContext → Time → Method State ProviderError Unit
  /-- the request nonces claimed by an identity -/
  Claimed : State → ProviderIdentity → Bytes32 → Prop
  claim_wp : ∀ s identity context now, context.toProviderIdentity = identity →
    (claim identity context now).wp (fun r s' =>
      (∀ other nonce, Claimed s other nonce → Claimed s' other nonce) ∧
        (r = .ok () → ¬Claimed s identity context.requestNonce ∧
          Claimed s' identity context.requestNonce)) s

/-- `MemoryProviderReplayStore`: the set of the nonces seen. -/
def memoryReplayStore : ProviderReplayStore where
  State := Finset Bytes32
  claim := fun _ context _ => do
    let consumed ← get
    lift (require (context.requestNonce ∉ consumed) .replay)
    modify fun consumed => insert context.requestNonce consumed
  Claimed := fun consumed _ nonce => nonce ∈ consumed
  claim_wp := by
    intro s identity context now _
    simp only [wp_iff]
    constructor
    · intro hnew
      exact ⟨fun _ nonce h => Finset.mem_insert_of_mem h,
        fun _ => ⟨hnew, Finset.mem_insert_self _ _⟩⟩
    · intro _
      exact ⟨fun _ _ h => h, fun h => by cases h⟩

/-- The key under which the wallet stores a request nonce of an identity. -/
def requestNonceKey (identity : ProviderIdentity) (nonce : Bytes32) : RequestNonceKey :=
  ⟨identity.walletId, identity.signerSetId, identity.signerEpoch, identity.signerId,
    identity.deviceId, identity.deviceGeneration, nonce⟩

/-- What the provider reports for an error of the wallet store. -/
def replayError : StorageError → ProviderError
  | .nonceAlreadyClaimed => .replay
  | .signerOperationBindingDrift => .roundBindingMismatch
  | _ => .backendUnavailable

def walletReplayStore (P : Platform) : ProviderReplayStore where
  State := Db
  claim := fun identity context now =>
    .atomically (fun db => claimSignerRequestNonce P db identity context now) replayError
  Claimed := fun db identity nonce =>
    (db.requestNonces.get (requestNonceKey identity nonce)).isSome = true
  claim_wp := by
    intro db identity context now hidentity
    rw [wp_atomically]
    refine ⟨?_, fun e _ => ⟨fun _ _ h => h, fun h => by cases h⟩⟩
    intro db' h
    simp only [claimSignerRequestNonce, ok_iff] at h
    obtain ⟨-, -, -, -, -, -, -, requestNonces, hinsert, rfl⟩ := h
    obtain ⟨hnone, hget⟩ := Rows.inserted_of_insert? hinsert
    have hkey : requestNonceKey identity context.requestNonce = (context.row P now).key := by
      rw [← hidentity]
      rfl
    refine ⟨?_, fun _ => ⟨?_, ?_⟩⟩
    · intro other nonce hclaimed
      show (requestNonces.get _).isSome = true
      rw [hget]
      split_ifs
      · rfl
      · exact hclaimed
    · rw [hkey, hnone]
      simp
    · show (requestNonces.get _).isSome = true
      rw [hkey, hget, if_pos rfl]
      rfl

/-- A backend behind the checks of `authorize_context`. -/
structure GuardedSignerProvider (S : SignerSuite) (A : Type) (R : ProviderReplayStore) where
  identity : ProviderIdentity
  backend : LocalEncryptedFrostBackend S A
  replayStore : R.State
  maxSessionLifetimeSeconds : Option Time

structure SignerRoundOneResponse where
  requestBindingDigest : Bytes32
  commitmentHex : String

structure SignerRoundTwoResponse where
  requestBindingDigest : Bytes32
  signatureShareHex : String

namespace GuardedSignerProvider

variable {R : ProviderReplayStore}

abbrev Action (S : SignerSuite) (A : Type) (R : ProviderReplayStore) (α : Type) :=
  Method (GuardedSignerProvider S A R) ProviderError α

def setBackend (p : GuardedSignerProvider S A R) (backend : LocalEncryptedFrostBackend S A) :
    GuardedSignerProvider S A R :=
  { p with backend := backend }

def setReplayStore (p : GuardedSignerProvider S A R) (replayStore : R.State) :
    GuardedSignerProvider S A R :=
  { p with replayStore := replayStore }

def checkLifetime (maximum : Option Time) (expiresAt now : Time) : Except ProviderError Unit :=
  match maximum with
  | none => .ok ()
  | some maximum => do
    let maximumExpiry ← orError (checkedAddTime now maximum) .sessionLifetimeExceeded
    require (expiresAt ≤ maximumExpiry) .sessionLifetimeExceeded

variable (authorize : AuthorizeRequest A) (context : SignerRequestContext)

/-- The checks of a request, and the claim of its nonce. -/
def authorizeContext (now : Time) : Action S A R Unit := do
  let p ← get
  lift (require (context.protocolVersion = signerProviderProtocolVersion ∧
    context.toProviderIdentity = p.identity ∧ context.minSigners ≠ 0 ∧
    context.minSigners ≤ context.maxSigners) .identityDrift)
  lift (require (now ≤ context.expiresAt) .expired)
  lift (checkLifetime p.maxSessionLifetimeSeconds context.expiresAt now)
  zoom replayStore setReplayStore id (R.claim p.identity context now)

def roundOne (entropy : S.Entropy) (now : Time) : Action S A R SignerRoundOneResponse := do
  authorizeContext context now
  let binding := bindingDigest S.toPlatform context
  let commitment ← zoom backend setBackend id
    (LocalEncryptedFrostBackend.reserveNonceAndCommit authorize context entropy)
  let bytes ← lift (orError (S.serializeCommitments commitment) .invalidEncoding)
  return ⟨binding, S.encodeHex bytes⟩

/-- A package for the message and the signer. -/
def readPackage (signingPackageHex : String) : Except ProviderError S.Package := do
  let bytes ← orError (S.decodeHex signingPackageHex) .invalidEncoding
  require (bytes.length ≤ maxSigningPackageBytes) .invalidEncoding
  let package ← orError (S.deserializePackage bytes) .invalidEncoding
  let identifier ← (S.identifierOf context.signerId).mapError fun _ => .invalidEncoding
  require (package.message = context.taprootSighash.bytes ∧
    (package.signingCommitments.get identifier).isSome = true) .roundBindingMismatch
  return package

def roundTwo (signingPackageHex : String) (now : Time) : Action S A R SignerRoundTwoResponse := do
  authorizeContext context now
  let package ← lift (readPackage context signingPackageHex)
  let binding := bindingDigest S.toPlatform context
  let share ← zoom backend setBackend id
    (LocalEncryptedFrostBackend.signReservedShare authorize context package)
  return ⟨binding, S.encodeHex (S.serializeShare share)⟩

/-- The bytes a reason code may have: ASCII letters and digits, `_` and `-`. -/
def isReasonByte (b : UInt8) : Bool :=
  (0x30 ≤ b && b ≤ 0x39) || (0x41 ≤ b && b ≤ 0x5a) || (0x61 ≤ b && b ≤ 0x7a) || b = 0x5f ||
    b = 0x2d

def abort (reasonCode : String) (now : Time) : Action S A R Unit := do
  authorizeContext context now
  let bytes := reasonCode.toUTF8.toList
  lift (require (bytes ≠ [] ∧ bytes.length ≤ maxReasonCodeBytes ∧
    bytes.all isReasonByte = true) .invalidEncoding)
  zoom backend setBackend id
    (LocalEncryptedFrostBackend.burnReservation context.operationId context.sessionId)

end GuardedSignerProvider

end Catomicals.ThresholdSigner
