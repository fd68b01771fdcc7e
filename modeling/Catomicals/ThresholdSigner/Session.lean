import Catomicals.Base.Method
import Catomicals.Base.Table
import Catomicals.WalletStorage.Models

/-!
# FROST sessions

The session a group of signers signs in, and the linked FROST crate as a parameter: its values are
opaque, except for the maps that the signer reads itself.
-/
namespace Catomicals.ThresholdSigner

open Base WalletStorage

/-- `frost::SigningPackage`: the commitments of round one and the message. -/
structure SigningPackage (Identifier Commitments : Type) where
  signingCommitments : Table Identifier Commitments
  message : Bytes

structure PublicKeyPackage (Identifier VerifyingShare VerifyingKey : Type) where
  verifyingShares : Table Identifier VerifyingShare
  verifyingKey : VerifyingKey

/-- The linked crates: FROST over secp256k1, its errors as texts, and SHA-256. -/
structure FrostSuite where
  (Identifier SigningCommitments SignatureShare VerifyingShare VerifyingKey Signature : Type)
  identifierDecEq : DecidableEq Identifier
  /-- `Identifier::try_from` -/
  identifierOf : UInt16 → Except String Identifier
  /-- `frost_core::verify_signature_share` -/
  verifySignatureShare : Identifier → VerifyingShare → SignatureShare →
    SigningPackage Identifier SigningCommitments → VerifyingKey → Except String Unit
  /-- `aggregate` -/
  aggregate : SigningPackage Identifier SigningCommitments → Table Identifier SignatureShare →
    PublicKeyPackage Identifier VerifyingShare VerifyingKey → Except String Signature
  /-- `VerifyingKey::verify` -/
  verify : VerifyingKey → Bytes32 → Signature → Except String Unit
  /-- `Sha256::digest` -/
  sha256 : Bytes → Bytes32

namespace FrostSuite

attribute [instance] identifierDecEq

abbrev Package (F : FrostSuite) := SigningPackage F.Identifier F.SigningCommitments

abbrev PublicKeys (F : FrostSuite) :=
  PublicKeyPackage F.Identifier F.VerifyingShare F.VerifyingKey

def participantIdentifier (F : FrostSuite) (id : UInt16) : Except String F.Identifier :=
  F.identifierOf id

end FrostSuite

structure FrostSession (F : FrostSuite) where
  (id message : Bytes32)
  minSigners : UInt16
  signingPackage : F.Package
  publicKeyPackage : F.PublicKeys

variable {F : FrostSuite}

def buildSession (id message : Bytes32) (minSigners : UInt16)
    (commitments : Table F.Identifier F.SigningCommitments) (publicKeyPackage : F.PublicKeys) :
    FrostSession F :=
  ⟨id, message, minSigners, ⟨commitments, message.bytes⟩, publicKeyPackage⟩

def verifySignature (session : FrostSession F) (signature : F.Signature) : Except String Unit :=
  F.verify session.publicKeyPackage.verifyingKey session.message signature

def aggregateAndVerify (session : FrostSession F) (shares : Table F.Identifier F.SignatureShare) :
    Except String F.Signature := do
  let signature ← F.aggregate session.signingPackage shares session.publicKeyPackage
  verifySignature session signature
  return signature

def frostErrorText (error : String) : String := "frost error: " ++ error

end Catomicals.ThresholdSigner
