import Catomicals.ChainBitcoin.Address
import Catomicals.Desktop.AddressInput

/-!
# Bitcoin-family addresses of the desktop application

The parser of SegWit and Base58Check addresses, and how it agrees with the addresses that the
`chain-bitcoin` crate derives. The Base58 library and the hash are parameters.
-/
namespace Catomicals.Desktop

open Base Domain ChainBitcoin Bech32 List

structure Base58 where
  decode : String → Option Bytes
  encode : Bytes → String

structure BitcoinAddressParameters where
  hrp : String
  (p2pkh p2sh : ℕ)

def networkParameters (descriptor : NetworkDescriptor) :
    Except AddressParseError BitcoinAddressParameters :=
  match descriptor.chainNetwork with
  | .bitcoin .mainnet | .fractalBitcoin .mainnet | .bsv .mainnet => .ok ⟨"bc", 0x00, 0x05⟩
  | .bitcoin .testnet3 | .bitcoin .testnet4 | .bitcoin .signet
  | .fractalBitcoin .testnet3 | .fractalBitcoin .testnet4 | .fractalBitcoin .signet
  | .bsv .testnet | .bsv .stn => .ok ⟨"tb", 0x6f, 0xc4⟩
  | .bitcoin .regtest | .fractalBitcoin .regtest | .bsv .regtest => .ok ⟨"bcrt", 0x6f, 0xc4⟩
  | _ => .error ⟨.invalidDescriptor, "unsupported chain or network descriptor"⟩

def parsed (descriptor : NetworkDescriptor) (format : AddressFormat) (addressType : AddressType)
    (canonical : String) (payload : List ℕ) (witnessVersion : Option ℕ) : ParsedAddress :=
  ⟨descriptor.chainId, descriptor.chainNetwork, format, addressType, canonical, bytesToHex payload,
    witnessVersion⟩

def segwitType (witnessVersion : ℕ) (program : List ℕ) : AddressType :=
  if witnessVersion = 0 then (if program.length = 20 then .p2wpkh else .p2wsh)
  else if witnessVersion = 1 ∧ program.length = 32 then .p2tr
  else .witnessUnknown

/-- `/^(?:bc|tb|bcrt)1/iu`. -/
def hasSegwitPrefix (value : String) : Bool :=
  let lower := value.toList.map Char.toLower
  "bc1".toList.isPrefixOf lower || "tb1".toList.isPrefixOf lower
    || "bcrt1".toList.isPrefixOf lower

section

variable (L : LowerCase) (base58 : Base58) (sha256 : Bytes → Bytes32)

def parseSegwit (descriptor : NetworkDescriptor) (value : String) :
    Except AddressParseError ParsedAddress := do
  let parameters ← networkParameters descriptor
  let normalized := L.toLowerCase value.toList
  let decodedBech32 := decode .bech32 90 value.toList
  let decodedBech32m := decode .bech32m 90 value.toList
  let (hrp, words) ← orError (decodedBech32 <|> decodedBech32m)
    ⟨.invalidEncoding, "invalid SegWit checksum or encoding"⟩
  require (L.toLowerCase hrp = parameters.hrp.toList)
    ⟨.wrongNetwork, "expected " ++ parameters.hrp ++ " SegWit address"⟩
  let (witnessVersion, rest) ← match words with
    | witnessVersion :: word :: rest => pure (witnessVersion, word :: rest)
    | _ => .error ⟨.invalidLength, "SegWit address has no witness program"⟩
  require (witnessVersion ≤ 16) ⟨.unsupportedAddressType, "unsupported witness version"⟩
  let program ← orError (regroup 5 8 false rest)
    ⟨.invalidEncoding, "invalid SegWit conversion padding"⟩
  require (2 ≤ program.length ∧ program.length ≤ 40)
    ⟨.invalidLength, "witness program must contain 2 to 40 bytes"⟩
  if witnessVersion = 0 then
    require (decodedBech32.isSome ∧ (program.length = 20 ∨ program.length = 32))
      ⟨.invalidEncoding, "witness v0 requires Bech32 and a 20 or 32 byte program"⟩
  else
    require decodedBech32m.isSome ⟨.invalidEncoding, "witness v1+ requires Bech32m"⟩
  pure (parsed descriptor (if witnessVersion = 0 then .bech32 else .bech32m)
    (segwitType witnessVersion program) (String.ofList normalized) program (some witnessVersion))

def decodeBase58Check (value : String) : Except AddressParseError (ℕ × List ℕ) := do
  let decoded ← orError (base58.decode value) ⟨.invalidEncoding, "invalid Base58 encoding"⟩
  require (base58.encode decoded = value) ⟨.invalidEncoding, "non-canonical Base58 encoding"⟩
  require (decoded.length = 25)
    ⟨.invalidLength, "Base58Check payment address must decode to 25 bytes"⟩
  let body := decoded.take 21
  let checksum := decoded.drop 21
  let expected := (sha256 (sha256 body).bytes).bytes.take 4
  require (checksum = expected) ⟨.badChecksum, "invalid Base58Check checksum"⟩
  pure ((body.headD 0).toNat, (body.drop 1).map UInt8.toNat)

def parseBitcoinFamilyAddress (descriptor : NetworkDescriptor) (value : String) :
    Except AddressParseError ParsedAddress := do
  if descriptor.chainId = .bsv then
    require (¬hasSegwitPrefix value)
      ⟨.unsupportedAddressType, "BSV does not support native SegWit addresses"⟩
  if descriptor.chainId ≠ .bsv ∧ hasSegwitPrefix value then
    parseSegwit L descriptor value
  else
    let parameters ← networkParameters descriptor
    let (version, payload) ← decodeBase58Check base58 sha256 value
    if version ≠ parameters.p2pkh ∧ version ≠ parameters.p2sh then
      let knownVersion := version = 0x00 ∨ version = 0x05 ∨ version = 0x6f ∨ version = 0xc4
      .error ⟨if knownVersion then .wrongNetwork else .unsupportedAddressType,
        if knownVersion then "Base58Check address belongs to another network"
        else "unsupported Base58Check version"⟩
    else
      pure (parsed descriptor .base58check (if version = parameters.p2pkh then .p2pkh else .p2sh)
        value payload none)

end

inductive FamilyNetwork where
  | bitcoin (network : BitcoinNetwork)
  | fractalBitcoin (network : FractalBitcoinNetwork)
  deriving DecidableEq

def FamilyNetwork.chainNetwork : FamilyNetwork → ChainNetwork
  | .bitcoin network => .bitcoin network
  | .fractalBitcoin network => .fractalBitcoin network

def FamilyNetwork.scope (network : FamilyNetwork) : ChainScope :=
  ⟨1, network.chainNetwork.chainId, network.chainNetwork⟩

section

variable (L : LowerCase) (base58 : Base58) (sha256 : Bytes → Bytes32) (network : FamilyNetwork)

/-- The desktop application reads a derived address as its witness program. -/
def ReadsBack (derived : Except BitcoinAdapterError ScopedAddress) : Prop :=
  ∃ made result, derived = .ok made
    ∧ parseBitcoinFamilyAddress L base58 sha256 (.of network.chainNetwork) made.address.text
      = .ok result
    ∧ result.witnessVersion = some made.address.witness.version
    ∧ result.payloadHex = bytesToHex (made.address.witness.program.map UInt8.toNat)

/-- A single key's witness programs: the hash of a public key, or an output key. -/
def SingleKey (witness : WitnessProgram) : Prop :=
  witness.version = 0 ∧ witness.program.length = 20
    ∨ witness.version = 1 ∧ witness.program.length = 32

theorem hrp_toLowerCase (network : Network) :
    L.toLowerCase network.hrp.toList = network.hrp.toList := by
  have hascii : ∀ c ∈ network.hrp.toList, LowerCase.LowersToAscii c := by
    cases network <;> decide
  rw [L.toLowerCase_eq_map hascii]
  cases network <;> decide

theorem hasSegwitPrefix_text (address : Address) : hasSegwitPrefix address.text = true := by
  obtain ⟨network, _⟩ := address
  rw [hasSegwitPrefix, Address.text, String.toList_ofList, encode]
  cases network <;> simp [Network.hrp, isPrefixOf]

variable {L base58 sha256}

/-- A single-key address is read under its own prefix, and is another network's under every
other. -/
theorem parseSegwit_text (address : Address) {descriptor : NetworkDescriptor}
    {parameters : BitcoinAddressParameters} (hpars : networkParameters descriptor = .ok parameters)
    (hkey : SingleKey address.witness) :
    parseSegwit L descriptor address.text =
      if parameters.hrp = address.network.hrp then
        .ok (parsed descriptor (if address.witness.version = 0 then .bech32 else .bech32m)
          (segwitType address.witness.version (address.witness.program.map UInt8.toNat))
          (String.ofList (L.toLowerCase address.text.toList))
          (address.witness.program.map UInt8.toNat) (some address.witness.version))
      else .error ⟨.wrongNetwork, "expected " ++ parameters.hrp ++ " SegWit address"⟩ := by
  set program := address.witness.program.map UInt8.toNat
  have hlen : program.length = address.witness.program.length := length_map _
  have hvers : address.witness.version < 32 := by rcases hkey with h | h <;> omega
  have hshort : address.witness.program.length ≤ 40 := by rcases hkey with h | h <;> omega
  obtain ⟨rest, hwords, -, hback, -⟩ := address.witness.words_spec
  -- There is at least one symbol after the version, since the program is not empty.
  obtain ⟨word, more, rfl⟩ : ∃ word more, rest = word :: more := by
    apply exists_cons_of_ne_nil
    intro hnil
    rw [hnil] at hback
    have hempty : program = [] := (Option.some.inj hback).symm
    rw [hempty, length_nil] at hlen
    rcases hkey with h | h <;> omega
  have hbech32 := address.decode_text .bech32 hvers hshort
  have hbech32m := address.decode_text .bech32m hvers hshort
  have hdec : (decode .bech32 90 address.text.toList
      <|> decode .bech32m 90 address.text.toList)
        = some (address.network.hrp.toList, address.witness.version :: word :: more) := by
    rw [hbech32, hbech32m, hwords, WitnessProgram.variant]
    split <;> rfl
  simp only [parseSegwit, hpars, ok_bind, hdec, orError]
  rw [hrp_toLowerCase]
  by_cases hhrp : parameters.hrp = address.network.hrp
  · rw [if_pos hhrp, require_pos (by rw [hhrp]), ok_bind]
    have hsize : 2 ≤ program.length ∧ program.length ≤ 40 := by
      rcases hkey with h | h <;> omega
    show (require (address.witness.version ≤ 16) _ >>= _) = _
    rw [require_pos (by rcases hkey with h | h <;> omega), ok_bind, hback]
    show (require (2 ≤ program.length ∧ program.length ≤ 40) _ >>= _) = _
    rw [require_pos hsize, ok_bind, hbech32, hbech32m, WitnessProgram.variant]
    rcases hkey with ⟨hzero, htwenty⟩ | ⟨hone, -⟩
    · simp [hzero, htwenty, require]
      rfl
    · simp [hone, require]
      rfl
  · rw [if_neg hhrp, require_neg (fun h => hhrp (String.toList_inj.mp h).symm), error_bind]

/-- The two tables of address prefixes agree on every network but one. -/
theorem prefixes_agree_iff : ∃ made parameters, addressNetwork network.scope = .ok made
      ∧ networkParameters (.of network.chainNetwork) = .ok parameters
      ∧ (parameters.hrp = made.hrp ↔ network ≠ .fractalBitcoin .testnet3) := by
  rcases network with network | network <;> cases network <;>
    exact ⟨_, _, rfl, rfl, by decide⟩

theorem chainId_ne_bsv : (NetworkDescriptor.of network.chainNetwork).chainId ≠ .bsv := by
  rcases network with network | network <;> simp [NetworkDescriptor.of, FamilyNetwork.chainNetwork,
    ChainNetwork.chainId]

variable (base58 sha256) in
theorem parseBitcoinFamilyAddress_text (address : Address) :
    parseBitcoinFamilyAddress L base58 sha256 (.of network.chainNetwork) address.text
      = parseSegwit L (.of network.chainNetwork) address.text := by
  have hchain := chainId_ne_bsv network
  have hprefix := hasSegwitPrefix_text address
  simp only [parseBitcoinFamilyAddress, hchain, hprefix, if_false, ne_eq, not_false_eq_true,
    true_and, if_true]

/-- A derived single-key address is read back unless the network is Fractal's testnet3. -/
theorem readsBack_iff_of_singleKey {network : FamilyNetwork} (made : Network) (kind : AddressKind)
    {derived : Except BitcoinAdapterError ScopedAddress} {witness : WitnessProgram}
    (hmade : addressNetwork network.scope = .ok made)
    (hderived : derived = .ok ⟨network.scope, kind, ⟨made, witness⟩⟩) (hkey : SingleKey witness) :
    ReadsBack L base58 sha256 network derived ↔ network ≠ .fractalBitcoin .testnet3 := by
  obtain ⟨made', _, hmade', hpars, hprefix⟩ := prefixes_agree_iff network
  obtain rfl : made = made' := Except.ok.inj (hmade.symm.trans hmade')
  have hparsed := parseSegwit_text (L := L) ⟨made, witness⟩ hpars hkey
  rw [← hprefix]
  constructor
  · rintro ⟨_, _, hok, hres, _⟩
    obtain rfl := Except.ok.inj (hderived.symm.trans hok)
    by_contra hne
    simp [parseBitcoinFamilyAddress_text, hparsed, if_neg hne] at hres
  · intro heq
    rw [if_pos heq, ← parseBitcoinFamilyAddress_text base58 sha256] at hparsed
    exact ⟨_, _, hderived, hparsed, rfl, rfl⟩

end

section

variable (L : LowerCase) (base58 : Base58) (sha256 : Bytes → Bytes32) {PublicKey : Type}
  (wpubkeyHash : PublicKey → Bytes20)

/-- The derived addresses of every key are read back on every network but Fractal's testnet3, where
the crate writes the main network's prefix. -/
theorem derivedAddresses_readBack_iff (network : FamilyNetwork) (publicKey : PublicKey)
    (outputKey : Bytes32) :
    (ReadsBack L base58 sha256 network (deriveP2wpkhAddress wpubkeyHash network.scope publicKey)
        ↔ network ≠ .fractalBitcoin .testnet3)
      ∧ (ReadsBack L base58 sha256 network (deriveP2trOutputKeyAddress network.scope outputKey)
        ↔ network ≠ .fractalBitcoin .testnet3) := by
  obtain ⟨made, -, hmade, -⟩ := prefixes_agree_iff network
  constructor
  · apply readsBack_iff_of_singleKey made .p2wpkh hmade
    · rw [deriveP2wpkhAddress, hmade]
      rfl
    · exact .inl ⟨rfl, (wpubkeyHash publicKey).length_eq⟩
  · apply readsBack_iff_of_singleKey made .p2tr hmade
    · rw [deriveP2trOutputKeyAddress, hmade]
      rfl
    · exact .inr ⟨rfl, outputKey.length_eq⟩

/-- The x coordinate of the generator of secp256k1. -/
def generatorKey : Bytes32 :=
  ⟨[0x79, 0xbe, 0x66, 0x7e, 0xf9, 0xdc, 0xbb, 0xac, 0x55, 0xa0, 0x62, 0x95, 0xce, 0x87,
    0x0b, 0x07, 0x02, 0x9b, 0xfc, 0xdb, 0x2d, 0xce, 0x28, 0xd9, 0x59, 0xf2, 0x81, 0x5b, 0x16,
    0xf8, 0x17, 0x98], rfl⟩

/-- An output key's address on Fractal's testnet3 is taken for another network's. -/
theorem not_readsBack_fractalTestnet3 :
    ¬ReadsBack .plain ⟨fun _ => none, fun _ => ""⟩ (fun _ => .zeros) (.fractalBitcoin .testnet3)
      (deriveP2trOutputKeyAddress (FamilyNetwork.fractalBitcoin .testnet3).scope generatorKey) := by
  intro h
  have hne := (readsBack_iff_of_singleKey .bitcoin .p2tr rfl rfl
    (.inr ⟨rfl, generatorKey.length_eq⟩)).mp h
  exact hne rfl

end

end Catomicals.Desktop
