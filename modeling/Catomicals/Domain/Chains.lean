import Catomicals.Base.Bytes
import Catomicals.Base.Outcome

/-!
# Chains, networks and signing suites

The chain scopes of the `chain-domain` crate and the builtin suites of the `signing-domain` crate,
with the fields of a suite that the wallet reads.
-/
namespace Catomicals.Domain

open Base

inductive ChainId where
  | bitcoin | bitcoinCash | bsv | fractalBitcoin | kaspa | chia | ergo
  deriving DecidableEq

inductive BitcoinNetwork where
  | mainnet | testnet3 | testnet4 | signet | regtest
  deriving DecidableEq

inductive BitcoinCashNetwork where
  | mainnet | testnet3 | testnet4 | chipnet | scalenet | regtest
  deriving DecidableEq

inductive BsvNetwork where
  | mainnet | testnet | stn | regtest
  deriving DecidableEq

inductive FractalBitcoinNetwork where
  | mainnet | testnet3 | testnet4 | signet | regtest
  deriving DecidableEq

inductive KaspaNetwork where
  | mainnet | testnet10 | testnet11 | simnet | devnet
  deriving DecidableEq

inductive ChiaNetwork where
  | mainnet | testnet11
  deriving DecidableEq

inductive ErgoNetwork where
  | mainnet | testnet
  deriving DecidableEq

inductive ChainNetwork where
  | bitcoin (n : BitcoinNetwork)
  | bitcoinCash (n : BitcoinCashNetwork)
  | bsv (n : BsvNetwork)
  | fractalBitcoin (n : FractalBitcoinNetwork)
  | kaspa (n : KaspaNetwork)
  | chia (n : ChiaNetwork)
  | ergo (n : ErgoNetwork)
  deriving DecidableEq

def ChainNetwork.chainId : ChainNetwork → ChainId
  | .bitcoin _ => .bitcoin
  | .bitcoinCash _ => .bitcoinCash
  | .bsv _ => .bsv
  | .fractalBitcoin _ => .fractalBitcoin
  | .kaspa _ => .kaspa
  | .chia _ => .chia
  | .ergo _ => .ergo

def ChainId.asStr : ChainId → String
  | .bitcoin => "bitcoin"
  | .bitcoinCash => "bitcoin-cash"
  | .bsv => "bsv"
  | .fractalBitcoin => "fractal-bitcoin"
  | .kaspa => "kaspa"
  | .chia => "chia"
  | .ergo => "ergo"

def ChainNetwork.asStr : ChainNetwork → String
  | .bitcoin .mainnet => "bitcoin.mainnet"
  | .bitcoin .testnet3 => "bitcoin.testnet3"
  | .bitcoin .testnet4 => "bitcoin.testnet4"
  | .bitcoin .signet => "bitcoin.signet"
  | .bitcoin .regtest => "bitcoin.regtest"
  | .bitcoinCash .mainnet => "bitcoin-cash.mainnet"
  | .bitcoinCash .testnet3 => "bitcoin-cash.testnet3"
  | .bitcoinCash .testnet4 => "bitcoin-cash.testnet4"
  | .bitcoinCash .chipnet => "bitcoin-cash.chipnet"
  | .bitcoinCash .scalenet => "bitcoin-cash.scalenet"
  | .bitcoinCash .regtest => "bitcoin-cash.regtest"
  | .bsv .mainnet => "bsv.mainnet"
  | .bsv .testnet => "bsv.testnet"
  | .bsv .stn => "bsv.stn"
  | .bsv .regtest => "bsv.regtest"
  | .fractalBitcoin .mainnet => "fractal-bitcoin.mainnet"
  | .fractalBitcoin .testnet3 => "fractal-bitcoin.testnet3"
  | .fractalBitcoin .testnet4 => "fractal-bitcoin.testnet4"
  | .fractalBitcoin .signet => "fractal-bitcoin.signet"
  | .fractalBitcoin .regtest => "fractal-bitcoin.regtest"
  | .kaspa .mainnet => "kaspa.mainnet"
  | .kaspa .testnet10 => "kaspa.testnet10"
  | .kaspa .testnet11 => "kaspa.testnet11"
  | .kaspa .simnet => "kaspa.simnet"
  | .kaspa .devnet => "kaspa.devnet"
  | .chia .mainnet => "chia.mainnet"
  | .chia .testnet11 => "chia.testnet11"
  | .ergo .mainnet => "ergo.mainnet"
  | .ergo .testnet => "ergo.testnet"

structure ChainScope where
  schemaVersion : UInt16
  chain : ChainId
  network : ChainNetwork
  deriving DecidableEq

/-- `ChainScope::deserialize` accepts what was written of the scope. -/
def ChainScope.readsBack (scope : ChainScope) : Bool :=
  scope.schemaVersion = 1 ∧ scope.chain = scope.network.chainId

/-- What a chain suite has reviewed; the summary is for display only. -/
structure ReviewArtifact where
  schemaVersion : UInt16
  scope : ChainScope
  (reviewDigest signingMessageDigest : Bytes32)
  summary : String
  reviewedMaterial : Bytes
  deriving DecidableEq

/-- `ReviewArtifact::deserialize` accepts what was written of the artifact. -/
def ReviewArtifact.readsBack (review : ReviewArtifact) : Bool :=
  review.schemaVersion = 2 ∧ review.scope.readsBack ∧ review.summary.utf8ByteSize ≤ 4 * 1024 ∧
    review.reviewedMaterial ≠ [] ∧ review.reviewedMaterial.length ≤ 1000000

inductive SignerBackendRequirement where
  | frostSecp256k1Tr | frostSecp256k1Kaspa | cbMpcThresholdEcdsa | isolatedBip340
  | isolatedSecp256k1Ecdsa | isolatedBitcoinCashSchnorr | chiaBlsAug | chiaBlsAugThreshold2of3
  | ergoSigma | ergoSigmaP2pk | ergoSigmaP2pkThreshold2of3
  deriving DecidableEq

def SignerBackendRequirement.asStr : SignerBackendRequirement → String
  | .frostSecp256k1Tr => "frost-secp256k1-tr"
  | .frostSecp256k1Kaspa => "frost-secp256k1-kaspa"
  | .cbMpcThresholdEcdsa => "cb-mpc-threshold-ecdsa"
  | .isolatedBip340 => "isolated-bip340"
  | .isolatedSecp256k1Ecdsa => "isolated-secp256k1-ecdsa"
  | .isolatedBitcoinCashSchnorr => "isolated-bitcoin-cash-schnorr"
  | .chiaBlsAug => "chia-bls-aug"
  | .chiaBlsAugThreshold2of3 => "chia-bls-aug-threshold-2of3"
  | .ergoSigma => "ergo-sigma"
  | .ergoSigmaP2pk => "ergo-sigma-p2pk"
  | .ergoSigmaP2pkThreshold2of3 => "ergo-sigma-p2pk-threshold-2of3"

inductive SigningAvailability where
  | declarationOnly | executable
  deriving DecidableEq

inductive SigningSuiteId where
  | bitcoinBip340FrostV1 | bitcoinBip340IsolatedV1 | fractalBitcoinBip340FrostV1
  | bitcoinCashSchnorrIsolatedV1 | bitcoinCashEcdsaIsolatedV1 | bitcoinCashEcdsaCbMpcV1
  | bsvEcdsaIsolatedV1 | bsvEcdsaCbMpcV1 | kaspaSchnorrFrostV1 | kaspaEcdsaIsolatedV1
  | kaspaEcdsaCbMpcV1 | chiaBls12381AugNativeV1 | chiaBls12381AugThreshold2of3V1 | ergoSigmaNativeV1
  | ergoSigmaP2pkIsolatedV1 | ergoSigmaP2pkThreshold2of3V1
  deriving DecidableEq

namespace SigningSuiteId

def asStr : SigningSuiteId → String
  | bitcoinBip340FrostV1 => "btc.bip340.frost-secp256k1-tr.v1"
  | bitcoinBip340IsolatedV1 => "btc.bip340.isolated.v1"
  | fractalBitcoinBip340FrostV1 => "fractal-bitcoin.bip340.frost-secp256k1-tr.v1"
  | bitcoinCashSchnorrIsolatedV1 => "bch.schnorr.isolated.v1"
  | bitcoinCashEcdsaIsolatedV1 => "bch.ecdsa.isolated.v1"
  | bitcoinCashEcdsaCbMpcV1 => "bch.ecdsa.cb-mpc.v1"
  | bsvEcdsaIsolatedV1 => "bsv.ecdsa.isolated.v1"
  | bsvEcdsaCbMpcV1 => "bsv.ecdsa.cb-mpc.v1"
  | kaspaSchnorrFrostV1 => "kaspa.schnorr.frost-secp256k1.v1"
  | kaspaEcdsaIsolatedV1 => "kaspa.ecdsa.isolated.v1"
  | kaspaEcdsaCbMpcV1 => "kaspa.ecdsa.cb-mpc.v1"
  | chiaBls12381AugNativeV1 => "chia.bls12-381.aug.native.v1"
  | chiaBls12381AugThreshold2of3V1 => "chia.bls12-381.aug.threshold-2of3.v1"
  | ergoSigmaNativeV1 => "ergo.sigma.native.v1"
  | ergoSigmaP2pkIsolatedV1 => "ergo.sigma.p2pk.isolated.v1"
  | ergoSigmaP2pkThreshold2of3V1 => "ergo.sigma.p2pk.threshold-2of3.v1"

def chainId : SigningSuiteId → ChainId
  | bitcoinBip340FrostV1 | bitcoinBip340IsolatedV1 => .bitcoin
  | fractalBitcoinBip340FrostV1 => .fractalBitcoin
  | bitcoinCashSchnorrIsolatedV1 | bitcoinCashEcdsaIsolatedV1 | bitcoinCashEcdsaCbMpcV1 =>
    .bitcoinCash
  | bsvEcdsaIsolatedV1 | bsvEcdsaCbMpcV1 => .bsv
  | kaspaSchnorrFrostV1 | kaspaEcdsaIsolatedV1 | kaspaEcdsaCbMpcV1 => .kaspa
  | chiaBls12381AugNativeV1 | chiaBls12381AugThreshold2of3V1 => .chia
  | ergoSigmaNativeV1 | ergoSigmaP2pkIsolatedV1 | ergoSigmaP2pkThreshold2of3V1 => .ergo

def backendRequirement : SigningSuiteId → SignerBackendRequirement
  | bitcoinBip340FrostV1 | fractalBitcoinBip340FrostV1 => .frostSecp256k1Tr
  | bitcoinBip340IsolatedV1 => .isolatedBip340
  | bitcoinCashSchnorrIsolatedV1 => .isolatedBitcoinCashSchnorr
  | bitcoinCashEcdsaIsolatedV1 | bsvEcdsaIsolatedV1 | kaspaEcdsaIsolatedV1 =>
    .isolatedSecp256k1Ecdsa
  | bitcoinCashEcdsaCbMpcV1 | bsvEcdsaCbMpcV1 | kaspaEcdsaCbMpcV1 => .cbMpcThresholdEcdsa
  | kaspaSchnorrFrostV1 => .frostSecp256k1Kaspa
  | chiaBls12381AugNativeV1 => .chiaBlsAug
  | chiaBls12381AugThreshold2of3V1 => .chiaBlsAugThreshold2of3
  | ergoSigmaNativeV1 => .ergoSigma
  | ergoSigmaP2pkIsolatedV1 => .ergoSigmaP2pk
  | ergoSigmaP2pkThreshold2of3V1 => .ergoSigmaP2pkThreshold2of3

def availability : SigningSuiteId → SigningAvailability
  | bitcoinBip340FrostV1 | fractalBitcoinBip340FrostV1 | bitcoinCashEcdsaCbMpcV1
  | bsvEcdsaCbMpcV1 | kaspaEcdsaCbMpcV1 | chiaBls12381AugThreshold2of3V1
  | ergoSigmaP2pkIsolatedV1 | ergoSigmaP2pkThreshold2of3V1 => .executable
  | bitcoinBip340IsolatedV1 | bitcoinCashSchnorrIsolatedV1 | bitcoinCashEcdsaIsolatedV1
  | bsvEcdsaIsolatedV1 | kaspaSchnorrFrostV1 | kaspaEcdsaIsolatedV1 | chiaBls12381AugNativeV1
  | ergoSigmaNativeV1 => .declarationOnly

end SigningSuiteId

structure SigningSuiteDescriptor where
  id : SigningSuiteId
  backendRequirement : SignerBackendRequirement
  availability : SigningAvailability

inductive SigningContractError where
  | unsupportedCombination (scope : ChainScope) (suite : SigningSuiteId)
  | suiteNotExecutable (suite : SigningSuiteId)
  | invalidSignerSetId (maxBytes : ℕ)
  | invalidReviewSchemaVersion
  deriving DecidableEq

def resolveBuiltinSuite (scope : ChainScope) (suite : SigningSuiteId) :
    Except SigningContractError SigningSuiteDescriptor :=
  if scope.chain ≠ scope.network.chainId ∨ scope.chain ≠ suite.chainId then
    .error (.unsupportedCombination scope suite)
  else .ok ⟨suite, suite.backendRequirement, suite.availability⟩

def requireExecutableSuite (scope : ChainScope) (suite : SigningSuiteId) :
    Except SigningContractError SigningSuiteDescriptor := do
  let descriptor ← resolveBuiltinSuite scope suite
  if descriptor.availability ≠ .executable then .error (.suiteNotExecutable suite)
  else return descriptor

structure ReviewBinding where
  schemaVersion : UInt16
  chainScope : ChainScope
  signingSuiteId : SigningSuiteId
  signerSetId : String
  signerSetEpoch : UInt64
  reviewSchemaVersion : UInt16
  reviewDigest : Bytes32
  deriving DecidableEq

def maxSignerSetIdBytes : ℕ := 128

def ReviewBinding.new (chainScope : ChainScope) (signingSuiteId : SigningSuiteId)
    (signerSetId : String) (signerSetEpoch : UInt64) (reviewSchemaVersion : UInt16)
    (reviewDigest : Bytes32) : Except SigningContractError ReviewBinding := do
  let _ ← resolveBuiltinSuite chainScope signingSuiteId
  require (signerSetId ≠ "" ∧ signerSetId.utf8ByteSize ≤ maxSignerSetIdBytes)
    (.invalidSignerSetId maxSignerSetIdBytes)
  require (reviewSchemaVersion ≠ 0) .invalidReviewSchemaVersion
  return ⟨1, chainScope, signingSuiteId, signerSetId, signerSetEpoch, reviewSchemaVersion,
    reviewDigest⟩

/-- A field with its length in front. The source panics on a field of 2^32 bytes. -/
def appendField (field : String) : Bytes :=
  let bytes := field.toUTF8.toList
  beBytes 4 bytes.length ++ bytes

def ReviewBinding.domainSeparator (b : ReviewBinding) : Bytes :=
  "catomicals.review-binding.v1\x00".toUTF8.toList ++ beBytes 2 b.schemaVersion.toNat ++
    appendField b.chainScope.chain.asStr ++ appendField b.chainScope.network.asStr ++
    appendField b.signingSuiteId.asStr ++ appendField b.signerSetId ++
    beBytes 8 b.signerSetEpoch.toNat ++ beBytes 2 b.reviewSchemaVersion.toNat ++
    b.reviewDigest.bytes

end Catomicals.Domain
