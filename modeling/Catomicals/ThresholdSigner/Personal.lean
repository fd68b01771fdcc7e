import Catomicals.ThresholdSigner.Orchestrator
import Catomicals.ThresholdSigner.Provider

/-!
# The personal signer profile

The public description of a personal 2-of-3 signer set: its ids, its threshold, the group key with
the public key package, and the three participants. A profile is bound to by its digest.
-/
namespace Catomicals.ThresholdSigner

open Base WalletStorage

/-- What the signing coordinator is linked against besides the signer's suite. -/
structure CoordinatorSuite extends SignerSuite where
  /-- `SigningCommitments::deserialize` -/
  deserializeCommitments : Bytes → Option SigningCommitments
  /-- `SignatureShare::deserialize` -/
  deserializeShare : Bytes → Option SignatureShare
  /-- `SigningPackage::serialize` -/
  serializePackage : SigningPackage Identifier SigningCommitments → Except String Bytes
  /-- `Signature::serialize` -/
  serializeSignature : Signature → Except String Bytes
  /-- `PublicKeyPackage::deserialize` -/
  deserializePublicKeys : Bytes →
    Option (PublicKeyPackage Identifier VerifyingShare VerifyingKey)

abbrev CoordinatorSuite.Machine (S : CoordinatorSuite) := ThresholdSessionMachine S.toFrostSuite

def signatureToBytes (S : CoordinatorSuite) (signature : S.Signature) : Except String Bytes := do
  let bytes ← (S.serializeSignature signature).mapError frostErrorText
  require (bytes.length = 64)
    ("unexpected signature length " ++ toString bytes.length ++ " (expected 64)")
  return bytes

inductive PersonalParticipantRole where
  | walletNode | desktopOnePassword | phoneRecovery

def PersonalParticipantRole.bindingTag : PersonalParticipantRole → UInt8
  | .walletNode => 1
  | .desktopOnePassword => 2
  | .phoneRecovery => 3

structure PersonalParticipantDescriptor where
  signerId : UInt16
  role : PersonalParticipantRole
  identifierHex : String
  verifyingShareDigest : Bytes32

structure PersonalSignerProfile where
  formatVersion : UInt16
  (profileId walletId signerSetId : Uuid)
  signerEpoch : UInt64
  (minSigners maxSigners : UInt16)
  groupPubkeyXonly : Bytes32
  publicKeyPackage : Bytes
  participants : List PersonalParticipantDescriptor

def lenPrefixed (value : Bytes) : Bytes := beBytes 8 value.length ++ value

def PersonalParticipantDescriptor.binding (p : PersonalParticipantDescriptor) : Bytes :=
  beBytes 2 p.signerId.toNat ++ [p.role.bindingTag] ++
    lenPrefixed p.identifierHex.toUTF8.toList ++ p.verifyingShareDigest.bytes

namespace PersonalSignerProfile

def bindingDigest (P : WalletStorage.Platform) (profile : PersonalSignerProfile) : Bytes32 :=
  P.sha256 ("catomicals/personal-signer-profile/v1\x00".toUTF8.toList ++
    beBytes 2 profile.formatVersion.toNat ++ profile.profileId.bytes ++ profile.walletId.bytes ++
    profile.signerSetId.bytes ++ beBytes 8 profile.signerEpoch.toNat ++
    beBytes 2 profile.minSigners.toNat ++ beBytes 2 profile.maxSigners.toNat ++
    profile.groupPubkeyXonly.bytes ++ lenPrefixed profile.publicKeyPackage ++
    beBytes 8 profile.participants.length ++
    profile.participants.flatMap PersonalParticipantDescriptor.binding)

/-- `PersonalSignerProfile::public_key_package`, with the text of its error. -/
def publicKeys (S : CoordinatorSuite) (profile : PersonalSignerProfile) :
    Except String S.PublicKeys :=
  orError (S.deserializePublicKeys profile.publicKeyPackage)
    "personal signer public package is invalid"

end PersonalSignerProfile

end Catomicals.ThresholdSigner
