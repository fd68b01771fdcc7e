import Mathlib.Algebra.Field.ZMod
import Mathlib.Algebra.Module.Basic
import Catomicals.Base.Method
import Catomicals.Domain.Chains

/-!
# Two-of-three threshold Schnorr for Ergo

A dealer splits a secret into three Shamir shares. Two participants commit to two nonces each, and
each answers its challenge with a response share. The group, its encodings and the hash are
parameters.
-/
namespace Catomicals.ChainErgo

open Base Domain Method

structure PointBytes where
  bytes : Bytes
  length_eq : bytes.length = 33
  deriving DecidableEq

structure Challenge where
  bytes : Bytes
  length_eq : bytes.length = 24

/-- A group of prime order with a generator, and the linked crates' coding and hashing. -/
structure Curve where
  order : ℕ
  prime : Fact order.Prime
  Point : Type
  group : AddCommGroup Point
  module : Module (ZMod order) Point
  pointDecEq : DecidableEq Point
  generator : Point
  generator_ne_zero : generator ≠ 0
  /-- `EcPoint::scorex_serialize_bytes` -/
  pointBytes : Point → PointBytes
  /-- `EcPoint::scorex_parse_bytes` -/
  parsePoint : PointBytes → Except String Point
  parsePoint_pointBytes : ∀ p, parsePoint (pointBytes p) = .ok p
  /-- `Scalar::to_bytes` -/
  scalarBytes : ZMod order → Bytes32
  /-- `Scalar::from_repr`, which takes canonical bytes only -/
  fromRepr : Bytes32 → Option (ZMod order)
  fromRepr_eq_some : ∀ b s, fromRepr b = some s ↔ scalarBytes s = b
  /-- `reduce_bytes` -/
  reduceBytes : Bytes32 → ZMod order
  /-- `Blake2b256::digest` -/
  blake2b256 : Bytes → Bytes32
  /-- the serialized tree of the P2PK proposition of a key -/
  p2pkTreeBytes : Point → Bytes
  /-- `verify_signature` of the P2PK proposition of a key -/
  verifySignature : Point → Bytes → Bytes → Except String Bool

attribute [instance] Curve.prime Curve.group Curve.module Curve.pointDecEq

abbrev Curve.Scalar (C : Curve) : Type := ZMod C.order

inductive ErgoAdapterError where
  | invalidThresholdScalar (field : String)
  | invalidThresholdParticipant (participantId : UInt16)
  | duplicateThresholdParticipant (participantId : UInt16)
  | invalidThresholdQuorum (actual : ℕ)
  | invalidThresholdCommitment (text : String)
  | thresholdShareCommitmentMismatch (participantId : UInt16)
  | thresholdNonceCommitmentMismatch (participantId : UInt16)
  | thresholdTranscriptMismatch (participantId : UInt16)
  | thresholdSigningPackageMismatch
  | thresholdReviewBindingMismatch
  | invalidThresholdSession
  | thresholdSessionMismatch
  | thresholdNonceReplay (text : String)
  | invalidThresholdPartial (participantId : UInt16)
  | invalidThresholdFinalProof
  deriving DecidableEq

def threshold : ℕ := 2

def validateParticipant (participantId : UInt16) : Except ErgoAdapterError Unit :=
  require (1 ≤ participantId ∧ participantId ≤ 3) (.invalidThresholdParticipant participantId)

def validateSessionId (sessionId : Bytes32) : Except ErgoAdapterError Unit :=
  require (sessionId ≠ .zeros) .invalidThresholdSession

variable (C : Curve)

def parseScalar (bytes : Bytes32) (field : String) : Except ErgoAdapterError C.Scalar :=
  orError (C.fromRepr bytes) (.invalidThresholdScalar field)

def parseNonzeroScalar (bytes : Bytes32) (field : String) :
    Except ErgoAdapterError C.Scalar := do
  let scalar ← parseScalar C bytes field
  require (scalar ≠ 0) (.invalidThresholdScalar field)
  return scalar

def scalarFromParticipant (participantId : UInt16) : C.Scalar := (participantId.toNat : C.Scalar)

def parsePoint (bytes : PointBytes) : Except ErgoAdapterError C.Point :=
  (C.parsePoint bytes).mapError .invalidThresholdCommitment

def parseNonidentityPoint (bytes : PointBytes) (field : String) :
    Except ErgoAdapterError C.Point := do
  let point ← parsePoint C bytes
  require (point ≠ 0) (.invalidThresholdCommitment (field ++ " is identity"))
  return point

/-- The Feldman commitments of `f(x) = secret + coefficient * x`. -/
structure ErgoThresholdCommitment where
  (groupPublicKey coefficientPublicKey : PointBytes)
  deriving DecidableEq

def importCommitment (groupPublicKey coefficientPublicKey : PointBytes) :
    Except ErgoAdapterError ErgoThresholdCommitment := do
  let group ← parsePoint C groupPublicKey
  let coefficient ← parsePoint C coefficientPublicKey
  require (¬(group = 0 ∨ coefficient = 0))
    (.invalidThresholdCommitment "identity public coefficients are forbidden")
  return ⟨groupPublicKey, coefficientPublicKey⟩

/-- The public key of a share of the committed line. -/
def ErgoThresholdCommitment.sharePublicKey (c : ErgoThresholdCommitment) (participantId : UInt16) :
    Except ErgoAdapterError PointBytes := do
  validateParticipant participantId
  let group ← parsePoint C c.groupPublicKey
  let coefficient ← parsePoint C c.coefficientPublicKey
  return C.pointBytes (group + scalarFromParticipant C participantId • coefficient)

structure ErgoThresholdSecretShare where
  participantId : UInt16
  scalar : Bytes32
  deriving DecidableEq

def importForSigning (participantId : UInt16) (scalar : Bytes32) :
    Except ErgoAdapterError ErgoThresholdSecretShare := do
  validateParticipant participantId
  let _ ← parseNonzeroScalar C scalar "secret share"
  return ⟨participantId, scalar⟩

def ErgoThresholdSecretShare.scalarOf (share : ErgoThresholdSecretShare) :
    Except ErgoAdapterError C.Scalar :=
  parseNonzeroScalar C share.scalar "secret share"

structure ErgoThresholdDealerOutput where
  commitment : ErgoThresholdCommitment
  shares : List ErgoThresholdSecretShare
  deriving DecidableEq

def makeShare (groupSecret coefficient : C.Scalar) (participantId : UInt16) :
    Except ErgoAdapterError ErgoThresholdSecretShare := do
  let share := groupSecret + coefficient * scalarFromParticipant C participantId
  require (share ≠ 0) (.invalidThresholdScalar "zero secret share")
  importForSigning C participantId (C.scalarBytes share)

/-- Three points of a line through the secret. -/
def dealerSplitThresholdSecret (groupSecret coefficient : Bytes32) :
    Except ErgoAdapterError ErgoThresholdDealerOutput := do
  let groupSecret ← parseNonzeroScalar C groupSecret "group secret"
  let coefficient ← parseNonzeroScalar C coefficient "dealer coefficient"
  let commitment ← importCommitment C (C.pointBytes (groupSecret • C.generator))
    (C.pointBytes (coefficient • C.generator))
  let first ← makeShare C groupSecret coefficient 1
  let second ← makeShare C groupSecret coefficient 2
  let third ← makeShare C groupSecret coefficient 3
  return ⟨commitment, [first, second, third]⟩

structure ErgoThresholdCommitments where
  participantId : UInt16
  sessionId : Bytes32
  (hidingNonce bindingNonce : PointBytes)
  deriving DecidableEq

structure ErgoThresholdNonceReservation where
  sessionId : Bytes32
  participantId : UInt16
  nonceFingerprint : Bytes32
  commitments : ErgoThresholdCommitments

/-- `ErgoThresholdNonceReplayGuard`, which the embedding application implements. -/
structure NonceReplayGuard where
  State : Type
  reserve : ErgoThresholdNonceReservation → Method State ErgoAdapterError Unit
  consume : ErgoThresholdNonceReservation → Bytes32 → Method State ErgoAdapterError Unit

structure ErgoThresholdSigningNonces where
  participantId : UInt16
  (hidingNonce bindingNonce : Bytes32)
  commitments : ErgoThresholdCommitments
  reservation : ErgoThresholdNonceReservation

def nonceFingerprint (commitments : ErgoThresholdCommitments) : Bytes32 :=
  C.blake2b256 ("catomicals/ergo-p2pk-threshold/nonce/v1".toUTF8.toList ++
    commitments.sessionId.bytes ++ beBytes 2 commitments.participantId.toNat ++
    commitments.hidingNonce.bytes ++ commitments.bindingNonce.bytes)

/-- `generate_threshold_nonces_2_of_3`, with the scalars that `random_nonzero_scalar` draws. -/
def generateThresholdNonces (R : NonceReplayGuard) (share : ErgoThresholdSecretShare)
    (sessionId : Bytes32) (hidingNonce bindingNonce : C.Scalar) :
    Method R.State ErgoAdapterError ErgoThresholdSigningNonces := do
  lift (validateParticipant share.participantId)
  lift (validateSessionId sessionId)
  let commitments : ErgoThresholdCommitments :=
    ⟨share.participantId, sessionId, C.pointBytes (hidingNonce • C.generator),
      C.pointBytes (bindingNonce • C.generator)⟩
  let reservation : ErgoThresholdNonceReservation :=
    ⟨sessionId, share.participantId, nonceFingerprint C commitments, commitments⟩
  R.reserve reservation
  return ⟨share.participantId, C.scalarBytes hidingNonce, C.scalarBytes bindingNonce, commitments,
    reservation⟩

structure ErgoThresholdSigningPackage where
  message : Bytes
  reviewBinding : ReviewBinding
  sessionId : Bytes32
  commitments : ErgoThresholdCommitments × ErgoThresholdCommitments
  transcriptDigest : Bytes32
  aggregateCommitment : PointBytes
  challenge : Challenge

variable (c : ErgoThresholdCommitments)

/-- What the transcript takes from the commitments of a participant. -/
def ErgoThresholdCommitments.transcript : Bytes :=
  beBytes 2 c.participantId.toNat ++ c.hidingNonce.bytes ++ c.bindingNonce.bytes

variable (commitment : ErgoThresholdCommitment)

/-- The digest of everything that is signed. -/
def transcriptDigest (reviewBinding : ReviewBinding) (sessionId : Bytes32) (message : Bytes)
    (commitments : ErgoThresholdCommitments × ErgoThresholdCommitments) : Bytes32 :=
  let reviewDomain := reviewBinding.domainSeparator
  C.blake2b256 ("catomicals/ergo-p2pk-threshold/transcript/v1".toUTF8.toList ++
    beBytes 8 reviewDomain.length ++ reviewDomain ++ sessionId.bytes ++
    commitment.groupPublicKey.bytes ++ commitment.coefficientPublicKey.bytes ++
    beBytes 8 message.length ++ message ++ commitments.1.transcript ++ commitments.2.transcript)

def bindingFactor (transcriptDigest : Bytes32) (participantId : UInt16) : C.Scalar :=
  C.reduceBytes (C.blake2b256 ("catomicals/ergo-p2pk-threshold/binding/v1".toUTF8.toList ++
    transcriptDigest.bytes ++ beBytes 2 participantId.toNat))

/-- The challenge of the Schnorr proof. -/
def ergoChallenge (groupPublicKey aggregateCommitment : PointBytes) (message : Bytes) :
    Except ErgoAdapterError Challenge := do
  let group ← parsePoint C groupPublicKey
  let propBytes := C.p2pkTreeBytes group
  let point ← parsePoint C aggregateCommitment
  let commitmentBytes := (C.pointBytes point).bytes
  let digest := C.blake2b256 ([1] ++ beBytes 2 propBytes.length ++ propBytes ++
    beBytes 2 commitmentBytes.length ++ commitmentBytes ++ message)
  return ⟨digest.bytes.take 24, by simp⟩

def orderCommitments (a b : ErgoThresholdCommitments) :
    ErgoThresholdCommitments × ErgoThresholdCommitments :=
  if a.participantId ≤ b.participantId then (a, b) else (b, a)

def ErgoThresholdCommitments.check (sessionId : Bytes32) : Except ErgoAdapterError Unit := do
  require (c.sessionId = sessionId) .thresholdSessionMismatch
  let _ ← parseNonidentityPoint C c.hidingNonce "hiding nonce commitment"
  let _ ← parseNonidentityPoint C c.bindingNonce "binding nonce commitment"

/-- The nonce of a signer, bound to the transcript. -/
def ErgoThresholdCommitments.nonce (transcriptDigest : Bytes32) :
    Except ErgoAdapterError C.Point := do
  let rho := bindingFactor C transcriptDigest c.participantId
  let hidingNonce ← parsePoint C c.hidingNonce
  let bindingNonce ← parsePoint C c.bindingNonce
  return hidingNonce + rho • bindingNonce

/-- `ErgoThresholdSigningPackage::new`, for two commitments in either order. -/
def newSigningPackage (reviewBinding : ReviewBinding)
    (sessionId : Bytes32) (message : Bytes) (commitments : List ErgoThresholdCommitments) :
    Except ErgoAdapterError ErgoThresholdSigningPackage := do
  validateSessionId sessionId
  match commitments with
  | [a, b] =>
    let ordered := orderCommitments a b
    validateParticipant ordered.1.participantId
    validateParticipant ordered.2.participantId
    require (ordered.1.participantId ≠ ordered.2.participantId)
      (.duplicateThresholdParticipant ordered.1.participantId)
    ordered.1.check C sessionId
    ordered.2.check C sessionId
    let digest := transcriptDigest C commitment reviewBinding sessionId message ordered
    let first ← ordered.1.nonce C digest
    let second ← ordered.2.nonce C digest
    let aggregate := 0 + first + second
    require (aggregate ≠ 0)
      (.invalidThresholdCommitment "aggregate nonce commitment is identity")
    let aggregateCommitment := C.pointBytes aggregate
    let challenge ← ergoChallenge C commitment.groupPublicKey aggregateCommitment message
    return ⟨message, reviewBinding, sessionId, ordered, digest, aggregateCommitment, challenge⟩
  | _ => .error (.invalidThresholdQuorum commitments.length)

namespace ErgoThresholdSigningPackage

variable (package : ErgoThresholdSigningPackage)

def commitmentFor (participantId : UInt16) : Option ErgoThresholdCommitments :=
  [package.commitments.1, package.commitments.2].find? fun item =>
    item.participantId = participantId

def signerIds : UInt16 × UInt16 :=
  (package.commitments.1.participantId, package.commitments.2.participantId)

def validateCommitment (commitment : ErgoThresholdCommitment) : Except ErgoAdapterError Unit :=
  require (ChainErgo.transcriptDigest C commitment package.reviewBinding package.sessionId
    package.message package.commitments = package.transcriptDigest)
    .thresholdSigningPackageMismatch

end ErgoThresholdSigningPackage

structure ErgoThresholdSignatureShare where
  participantId : UInt16
  (transcriptDigest response : Bytes32)

def challengeScalar (challenge : Challenge) : C.Scalar :=
  C.reduceBytes ⟨List.replicate 8 0 ++ challenge.bytes, by simp [challenge.length_eq]⟩

/-- The weight of a share in the secret. -/
def lagrangeCoefficient (participantId : UInt16) (signerIds : UInt16 × UInt16) :
    Except ErgoAdapterError C.Scalar := do
  require (participantId = signerIds.1 ∨ participantId = signerIds.2)
    (.invalidThresholdParticipant participantId)
  let other := if signerIds.1 = participantId then signerIds.2 else signerIds.1
  let xi := scalarFromParticipant C participantId
  let xj := scalarFromParticipant C other
  require (xj - xi ≠ 0) (.duplicateThresholdParticipant participantId)
  return xj * (xj - xi)⁻¹

/-- The share lies on the committed line. -/
def validateThresholdSecretShare
    (share : ErgoThresholdSecretShare) : Except ErgoAdapterError Unit := do
  let expectedShare ← commitment.sharePublicKey C share.participantId
  let scalar ← share.scalarOf C
  require (expectedShare = C.pointBytes (scalar • C.generator))
    (.thresholdShareCommitmentMismatch share.participantId)

/-- `sign_threshold_share_2_of_3`, which uses the nonces up. -/
def signThresholdShare (R : NonceReplayGuard) (commitment : ErgoThresholdCommitment)
    (share : ErgoThresholdSecretShare) (nonces : ErgoThresholdSigningNonces)
    (expectedReviewBinding : ReviewBinding) (package : ErgoThresholdSigningPackage) :
    Method R.State ErgoAdapterError ErgoThresholdSignatureShare := do
  lift (package.validateCommitment C commitment)
  lift (require (package.reviewBinding = expectedReviewBinding)
    .thresholdReviewBindingMismatch)
  lift (require (package.sessionId = nonces.commitments.sessionId)
    .thresholdSessionMismatch)
  let participantId := share.participantId
  lift (require (participantId = nonces.participantId)
    (.thresholdNonceCommitmentMismatch participantId))
  lift (validateThresholdSecretShare C commitment share)
  let expectedNonces ← lift (orError (package.commitmentFor participantId)
    (.thresholdNonceCommitmentMismatch participantId))
  lift (require (expectedNonces = nonces.commitments)
    (.thresholdNonceCommitmentMismatch participantId))
  R.consume nonces.reservation package.transcriptDigest
  let hidingNonce ← lift (parseNonzeroScalar C nonces.hidingNonce "hiding nonce")
  let bindingNonce ← lift (parseNonzeroScalar C nonces.bindingNonce "binding nonce")
  let rho := bindingFactor C package.transcriptDigest participantId
  let challenge := challengeScalar C package.challenge
  let lambda ← lift (lagrangeCoefficient C participantId package.signerIds)
  let secret ← lift (share.scalarOf C)
  let response := hidingNonce + rho * bindingNonce + challenge * lambda * secret
  return ⟨participantId, package.transcriptDigest, C.scalarBytes response⟩

variable (package : ErgoThresholdSigningPackage)

/-- The response of a signer that has not been seen yet. -/
def checkPartial (seen : List UInt16) (p : ErgoThresholdSignatureShare) :
    Except ErgoAdapterError C.Scalar := do
  validateParticipant p.participantId
  require (p.participantId ∉ seen) (.duplicateThresholdParticipant p.participantId)
  require (p.transcriptDigest = package.transcriptDigest)
    (.thresholdTranscriptMismatch p.participantId)
  let roundOne ← orError (package.commitmentFor p.participantId)
    (.invalidThresholdPartial p.participantId)
  let z ← parseScalar C p.response "partial response"
  let rho := bindingFactor C package.transcriptDigest p.participantId
  let lambda ← lagrangeCoefficient C p.participantId package.signerIds
  let shareKey ← commitment.sharePublicKey C p.participantId
  let verifyingShare ← parsePoint C shareKey
  let hidingNonce ← parsePoint C roundOne.hidingNonce
  let bindingNonce ← parsePoint C roundOne.bindingNonce
  let expected := hidingNonce + rho • bindingNonce +
    (challengeScalar C package.challenge * lambda) • verifyingShare
  require (z • C.generator = expected) (.invalidThresholdPartial p.participantId)
  return z

def sumPartials (commitment : ErgoThresholdCommitment) (package : ErgoThresholdSigningPackage) :
    List UInt16 → C.Scalar → List ErgoThresholdSignatureShare → Except ErgoAdapterError C.Scalar
  | _, response, [] => .ok response
  | seen, response, p :: rest => do
    let z ← checkPartial C commitment package seen p
    sumPartials commitment package (seen ++ [p.participantId]) (response + z) rest

structure ErgoP2pkProof where
  bytes : Bytes
  reviewBinding : ReviewBinding

variable (partials : List ErgoThresholdSignatureShare)

/-- The loop of an aggregation, on the number of partials it takes. -/
def aggregateResponse : Except ErgoAdapterError C.Scalar := do
  package.validateCommitment C commitment
  require (partials.length = threshold) (.invalidThresholdQuorum partials.length)
  sumPartials C commitment package [] 0 partials

/-- `aggregate_threshold_p2pk_proof_2_of_3`: the sum, checked by the linked crate. -/
def aggregateThresholdP2pkProof : Except ErgoAdapterError ErgoP2pkProof := do
  let response ← aggregateResponse C commitment package partials
  let proof : ErgoP2pkProof :=
    ⟨package.challenge.bytes ++ (C.scalarBytes response).bytes, package.reviewBinding⟩
  let group ← parsePoint C commitment.groupPublicKey
  let valid ← (C.verifySignature group package.message proof.bytes).mapError
    .invalidThresholdCommitment
  require (valid = true) .invalidThresholdFinalProof
  return proof

end Catomicals.ChainErgo
