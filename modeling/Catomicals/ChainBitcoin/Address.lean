import Catomicals.Base.Bech32
import Catomicals.Base.Regroup
import Catomicals.Domain.Chains

/-!
# Addresses of the Bitcoin and Fractal Bitcoin adapter

The chain scopes of the `chain-bitcoin` crate, the network whose prefixes it uses for each of them,
and the derivation of single-key SegWit addresses.
-/
namespace Catomicals.ChainBitcoin

open Base Domain List

inductive AddressKind where
  | p2wpkh | p2tr

inductive BitcoinAdapterError where
  | mismatchedChainNetwork (declared actual : ChainId) (network : ChainNetwork)
  | unsupportedChainScope (scope : ChainScope)
  | unsupportedScopeSchemaVersion (expected actual : UInt16)

inductive Network where
  | bitcoin | testnet | testnet4 | signet | regtest

def Network.hrp : Network → String
  | .bitcoin => "bc"
  | .testnet | .testnet4 | .signet => "tb"
  | .regtest => "bcrt"

structure ScopeProfile where
  mainnet : Bool

def supportedChainScopeSchemaVersion : UInt16 := 1

def scopeProfile (scope : ChainScope) : Except BitcoinAdapterError ScopeProfile := do
  require (scope.schemaVersion = supportedChainScopeSchemaVersion)
    (.unsupportedScopeSchemaVersion supportedChainScopeSchemaVersion scope.schemaVersion)
  let actual := scope.network.chainId
  require (actual = scope.chain) (.mismatchedChainNetwork scope.chain actual scope.network)
  match scope.network with
  | .bitcoin .mainnet | .fractalBitcoin .mainnet => pure ⟨true⟩
  | .bitcoin _ | .fractalBitcoin _ => pure ⟨false⟩
  | _ => .error (.unsupportedChainScope scope)

def addressNetwork (scope : ChainScope) : Except BitcoinAdapterError Network := do
  let _ ← scopeProfile scope
  match scope.network with
  -- Fractal's testnet3 is given the prefixes of the Bitcoin main network.
  | .bitcoin .mainnet | .fractalBitcoin .mainnet | .fractalBitcoin .testnet3 => pure .bitcoin
  | .bitcoin .testnet3 => pure .testnet
  | .bitcoin .testnet4 | .fractalBitcoin .testnet4 => pure .testnet4
  | .bitcoin .signet | .fractalBitcoin .signet => pure .signet
  | .bitcoin .regtest | .fractalBitcoin .regtest => pure .regtest
  | _ => .error (.unsupportedChainScope scope)

structure WitnessProgram where
  version : ℕ
  program : Bytes

structure Address where
  network : Network
  witness : WitnessProgram

/-- Version 0 is written in Bech32, every later one in Bech32m. -/
def WitnessProgram.variant (witness : WitnessProgram) : Bech32.Variant :=
  if witness.version = 0 then .bech32 else .bech32m

def WitnessProgram.words (witness : WitnessProgram) : List ℕ :=
  witness.version :: (regroup 8 5 true (witness.program.map UInt8.toNat)).getD []

def Address.text (address : Address) : String :=
  String.ofList (Bech32.encode address.witness.variant address.network.hrp.toList
    address.witness.words)

/-- A checked address with the scope it was derived for. -/
structure ScopedAddress where
  scope : ChainScope
  kind : AddressKind
  address : Address

section

variable {PublicKey : Type} (wpubkeyHash : PublicKey → Bytes20)

def deriveP2wpkhAddress (scope : ChainScope) (publicKey : PublicKey) :
    Except BitcoinAdapterError ScopedAddress := do
  let network ← addressNetwork scope
  pure ⟨scope, .p2wpkh, ⟨network, ⟨0, (wpubkeyHash publicKey).bytes⟩⟩⟩

def deriveP2trOutputKeyAddress (scope : ChainScope) (outputKey : Bytes32) :
    Except BitcoinAdapterError ScopedAddress := do
  let network ← addressNetwork scope
  pure ⟨scope, .p2tr, ⟨network, ⟨1, outputKey.bytes⟩⟩⟩

end

theorem WitnessProgram.words_spec (witness : WitnessProgram) :
    ∃ rest, witness.words = witness.version :: rest ∧ (∀ w ∈ rest, w < 32)
      ∧ regroup 5 8 false rest = some (witness.program.map UInt8.toNat)
      ∧ rest.length * 5 < witness.program.length * 8 + 5 := by
  have hbytes : ∀ v ∈ witness.program.map UInt8.toNat, v < 2 ^ 8 := by
    intro v hv
    obtain ⟨b, -, rfl⟩ := mem_map.mp hv
    exact b.toNat_lt
  obtain ⟨rest, hpad, hrest, hback⟩ := regroup_regroup 8 5 (by decide) (by decide) hbytes
  refine ⟨rest, by rw [WitnessProgram.words, hpad]; rfl, hrest, hback, ?_⟩
  have hlen := (length_regroup_pad (by decide) hpad).1
  rwa [length_map] at hlen

theorem Network.hrp_lower (network : Network) :
    network.hrp.toList ≠ [] ∧ (∀ c ∈ network.hrp.toList, Bech32.Lower c)
      ∧ network.hrp.toList.length ≤ 4 := by
  cases network <;> decide

/-- An address text is read by its own format only, as its prefix and symbols. -/
theorem Address.decode_text (address : Address) (variant : Bech32.Variant)
    (hvers : address.witness.version < 32) (hlen : address.witness.program.length ≤ 40) :
    Bech32.decode variant 90 address.text.toList
      = if variant = address.witness.variant then
          some (address.network.hrp.toList, address.witness.words) else none := by
  obtain ⟨hhrp, hlower, hshort⟩ := address.network.hrp_lower
  obtain ⟨rest, hwords, hrest, -, hcount⟩ := address.witness.words_spec
  rw [Address.text, String.toList_ofList]
  apply Bech32.decode_encode _ _ hhrp hlower
  · rw [hwords]
    exact forall_mem_cons.mpr ⟨hvers, hrest⟩
  · rw [hwords, length_cons]
    omega

end Catomicals.ChainBitcoin
