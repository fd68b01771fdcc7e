import Catomicals.ThresholdSigner.Orchestrator

/-!
# Signing intents

What the user is asked to approve. Every field but the status and the creation time goes into the
canonical bytes; an intent with a CovHub binding is encoded by its binding instead.
-/
namespace Catomicals.WalletCore

open Base Domain WalletStorage ThresholdSigner

def signingProtocolVersion : UInt16 := 1

inductive BitcoinNetwork where
  | signet | covhubDelegated
  deriving DecidableEq

def BitcoinNetwork.canonicalName : BitcoinNetwork → String
  | .signet => "signet"
  | .covhubDelegated => "covhub_delegated"

inductive SigningAction where
  | signTaprootTransaction | covhubDelegated
  deriving DecidableEq

def SigningAction.canonicalName : SigningAction → String
  | .signTaprootTransaction => "sign_taproot_transaction"
  | .covhubDelegated => "covhub_delegated"

structure PersonalSigningPolicy where
  (profileId signerSetId : Uuid)
  signerEpoch : UInt64
  groupPubkeyXonly : Bytes32
  allowedParticipants : UInt16 × UInt16 × UInt16
  threshold : UInt16
  (policyDigest chainSnapshotDigest : Bytes32)

inductive IntentStatus where
  | pending | approved | signing | cancelled | expired | signed
  deriving DecidableEq

/-- The binding of a CovHub intent to the proposal and the review it was made from. -/
structure CovhubBinding where
  version : UInt16
  (proposalId proposalDigest canvasDigest codeConfirmationDigest : String)
  chainScope : ChainScope
  (reviewDigest signingMessageDigest : Bytes32)
  profileId : Uuid

structure SigningIntent where
  id : Uuid
  network : BitcoinNetwork
  protocolVersion : UInt16
  action : SigningAction
  walletId : Uuid
  signerId : UInt16
  personalSigningPolicy : Option PersonalSigningPolicy
  (txDigest sessionId : Bytes32)
  expiry : Time
  nonce : Bytes32
  status : IntentStatus
  createdAt : Time
  covhub : Option CovhubBinding

def covhubCanonicalBytes (binding : CovhubBinding) (intentId : Uuid) (sessionId : Bytes32)
    (expiresAt : Time) : Bytes :=
  "catomicals/covhub-signing-intent\x00".toUTF8.toList ++ beBytes 2 binding.version.toNat ++
    intentId.bytes ++ appendField binding.proposalId ++ appendField binding.proposalDigest ++
    appendField binding.canvasDigest ++ appendField binding.codeConfirmationDigest ++
    appendField binding.chainScope.chain.asStr ++ appendField binding.chainScope.network.asStr ++
    binding.reviewDigest.bytes ++ binding.signingMessageDigest.bytes ++ sessionId.bytes ++
    binding.profileId.bytes ++ timeBytes expiresAt

def PersonalSigningPolicy.canonicalBytes (policy : PersonalSigningPolicy) : Bytes :=
  "personal-2of3\x00".toUTF8.toList ++ policy.profileId.bytes ++ policy.signerSetId.bytes ++
    beBytes 8 policy.signerEpoch.toNat ++ policy.groupPubkeyXonly.bytes ++
    beBytes 2 policy.allowedParticipants.1.toNat ++
    beBytes 2 policy.allowedParticipants.2.1.toNat ++
    beBytes 2 policy.allowedParticipants.2.2.toNat ++ beBytes 2 policy.threshold.toNat ++
    policy.policyDigest.bytes ++ policy.chainSnapshotDigest.bytes

namespace SigningIntent

variable (intent : SigningIntent)

def canonicalBytes : Bytes :=
  match intent.covhub with
  | some binding => covhubCanonicalBytes binding intent.id intent.sessionId intent.expiry
  | none =>
    "catomicals/signing-intent\x00".toUTF8.toList ++ beBytes 2 intent.protocolVersion.toNat ++
      intent.network.canonicalName.toUTF8.toList ++ [0] ++
      intent.action.canonicalName.toUTF8.toList ++ [0] ++ intent.id.bytes ++
      intent.walletId.bytes ++ beBytes 2 intent.signerId.toNat ++
      (intent.personalSigningPolicy.elim [] PersonalSigningPolicy.canonicalBytes) ++
      intent.txDigest.bytes ++ intent.sessionId.bytes ++ timeBytes intent.expiry ++
      intent.nonce.bytes

def digest (sha256 : Bytes → Bytes32) (intent : SigningIntent) : Bytes32 :=
  sha256 intent.canonicalBytes

def isExpired (now : Time) : Bool := now > intent.expiry

/-- A CovHub intent carries the delegated markers, and no other one does. -/
def covhubLegacyFieldsAreDelegated : Bool :=
  match intent.covhub with
  | some _ => intent.network = .covhubDelegated && intent.action = .covhubDelegated
  | none => intent.network != .covhubDelegated && intent.action != .covhubDelegated

def withStatus (status : IntentStatus) : SigningIntent :=
  { intent with status := status }

@[simp] theorem id_withStatus (status : IntentStatus) :
    (intent.withStatus status).id = intent.id := rfl

def byCreation (i j : SigningIntent) : Bool :=
  i.createdAt < j.createdAt ∨ i.createdAt = j.createdAt ∧ i.id ≤ j.id

end SigningIntent

end Catomicals.WalletCore
