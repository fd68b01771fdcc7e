import Catomicals.Issuance.Verify

/-!
# Fixed-price listings

The listing terms of an item receipt, the two tapscript leaves that commit to them, and the order
output. Encodings are spelled out byte by byte; the linked crates are parameters.
-/
namespace Catomicals.Trading

open Base Base.Outcome Issuance

inductive Network where
  | signet
  deriving DecidableEq

structure ItemReceipt where
  network : Network
  outpoint : OutPoint
  scriptPubkey : Bytes
  itemSatAmount : UInt64
  (termsHash itemId itemCommitment : Bytes32)
  lane : UInt8
  sequence : UInt32
  deriving DecidableEq

structure ListingTerms where
  protocolVersion : UInt16
  network : Network
  receipt : ItemReceipt
  sellerKey : XOnlyPublicKey
  sellerPayoutScript : Bytes
  priceSat : UInt64
  creatorFeeScript : Bytes
  creatorFeeSat : UInt64
  cancelScript : Bytes
  expiryHeight : UInt32
  maxNetworkFeeSat : UInt64
  deriving DecidableEq

inductive TradeError where
  | unsupportedVersion | wrongNetwork | invalidAmount | invalidRule | invalidScript
  | receiptOwnerMismatch | invalidReceipt | invalidListingLineage | invalidRawTransaction
  | partiallySigned | invalidTransactionHeader | invalidInputs | invalidPrevouts | invalidOutputs
  | invalidFee | expired | cancelNotMature | invalidBuyerProof | taproot | finalTransactionMismatch
  | invalidSellerSignature | wrongCompetitionOutpoint | invalidCandidateState

/-- The spend data of a taproot tree: its output key and the control block of a leaf. -/
structure TaprootSpendInfo where
  outputKey : XOnlyPublicKey
  controlBlock : Bytes → Option Bytes

structure TradePlatform extends Platform where
  /-- `hex::decode` -/
  decodeHex : String → Option Bytes
  /-- `deserialize` of a transaction -/
  deserializeTx : Bytes → Option Transaction
  /-- `serialize` of a transaction -/
  serializeTx : Transaction → Bytes
  /-- `serialize` of an output -/
  serializeTxOut : TxOut → Bytes
  /-- the tree with two leaves at depth one under the protocol's internal key -/
  finalizeTaproot : Bytes → Bytes → Option TaprootSpendInfo
  /-- the default key-path signature hash of the first input -/
  keySpendSighash : Transaction → List TxOut → Option Bytes32
  /-- the default script-path signature hash of the first input, for a tapscript leaf -/
  scriptSpendSighash : Transaction → List TxOut → Bytes → Option Bytes32
  /-- `verify_schnorr` of a 64-byte signature -/
  verifySchnorr : Bytes → Bytes32 → XOnlyPublicKey → Bool

def lockTimeThreshold : UInt32 := 500000000

/-- `LISTING_TAG`, with its closing zero byte. -/
def listingTag : Bytes := "catomicals/fixed-price-listing/v1".toUTF8.toList ++ [0]

/-- `BUYER_TAG`, with its closing zero byte. -/
def buyerTag : Bytes := "catomicals/buyer-ownership/v1".toUTF8.toList ++ [0]

/-- `push_len_prefixed`: the length in eight big-endian bytes, then the bytes. -/
def pushLenPrefixed (bytes : Bytes) : Bytes := beBytes 8 bytes.length ++ bytes

def ItemReceipt.txout (r : ItemReceipt) : TxOut := ⟨r.itemSatAmount, r.scriptPubkey⟩

def nullTxOut : TxOut := ⟨0xffffffffffffffff, []⟩

namespace ListingTerms

def validate (l : ListingTerms) : Outcome TradeError Unit := do
  ensure (l.protocolVersion = 1) .unsupportedVersion
  ensure (l.network = .signet ∧ l.receipt.network = .signet) .wrongNetwork
  ensure (l.receipt.itemSatAmount ≠ 0 ∧ l.priceSat ≠ 0 ∧ l.creatorFeeSat ≠ 0) .invalidAmount
  ensure (l.expiryHeight ≠ 0 ∧ l.expiryHeight < lockTimeThreshold ∧ l.maxNetworkFeeSat ≠ 0)
    .invalidRule
  ensure (l.sellerPayoutScript ≠ [] ∧ l.creatorFeeScript ≠ [] ∧ l.cancelScript ≠ [] ∧
    l.sellerPayoutScript ≠ l.creatorFeeScript) .invalidScript
  ensure (l.receipt.scriptPubkey = itemOwnerScript l.sellerKey) .receiptOwnerMismatch

/-- The bytes a listing commits to, without the validity check in front. -/
def encoding (l : ListingTerms) : Bytes :=
  listingTag ++ beBytes 2 l.protocolVersion.toNat ++ "signet".toUTF8.toList ++ [0] ++
    l.receipt.outpoint.txid.bytes ++ beBytes 4 l.receipt.outpoint.vout.toNat ++
    pushLenPrefixed l.receipt.scriptPubkey ++ beBytes 8 l.receipt.itemSatAmount.toNat ++
    l.receipt.termsHash.bytes ++ l.receipt.itemId.bytes ++ l.receipt.itemCommitment.bytes ++
    [l.receipt.lane] ++ beBytes 4 l.receipt.sequence.toNat ++ l.sellerKey.serialize.bytes ++
    pushLenPrefixed l.sellerPayoutScript ++ beBytes 8 l.priceSat.toNat ++
    pushLenPrefixed l.creatorFeeScript ++ beBytes 8 l.creatorFeeSat.toNat ++
    pushLenPrefixed l.cancelScript ++ beBytes 4 l.expiryHeight.toNat ++
    beBytes 8 l.maxNetworkFeeSat.toNat

def canonicalBytes (l : ListingTerms) : Outcome TradeError Bytes := do
  l.validate
  return l.encoding

def commitment (T : TradePlatform) (l : ListingTerms) : Outcome TradeError Bytes32 := do
  let bytes ← l.canonicalBytes
  return T.sha256 bytes

end ListingTerms

namespace Op

def drop : UInt8 := 0x75
def checksig : UInt8 := 0xac
def cltv : UInt8 := 0xb1

end Op

/-- A positive number in script's little-endian encoding, whose top bit is the sign. -/
def scriptIntBytes : ℕ → ℕ → Bytes
  | 0, _ => []
  | width + 1, n =>
    if n < 128 then [UInt8.ofNat n] else UInt8.ofNat n :: scriptIntBytes width (n / 256)

/-- `Builder::push_int` of a non-negative number. -/
def pushInt (n : ℕ) : Bytes :=
  if n = 0 then [0]
  else if n ≤ 16 then [0x50 + UInt8.ofNat n]
  else UInt8.ofNat (scriptIntBytes 9 n).length :: scriptIntBytes 9 n

def push32 (b : Bytes32) : Bytes := 0x20 :: b.bytes

variable (T : TradePlatform) (l : ListingTerms)

def buyLeafScript : Outcome TradeError Bytes := do
  let commitment ← l.commitment T
  return push32 commitment ++ [Op.drop] ++ push32 l.sellerKey.serialize ++ [Op.checksig]

def cancelLeafScript : Outcome TradeError Bytes := do
  let commitment ← l.commitment T
  return pushInt l.expiryHeight.toNat ++ [Op.cltv, Op.drop] ++ push32 commitment ++ [Op.drop] ++
    push32 l.sellerKey.serialize ++ [Op.checksig]

def spendInfo : Outcome TradeError TaprootSpendInfo := do
  l.validate
  let buyLeaf ← buyLeafScript T l
  let cancelLeaf ← cancelLeafScript T l
  okOr (T.finalizeTaproot buyLeaf cancelLeaf) .taproot

def listingOutputScript : Outcome TradeError Bytes := do
  let info ← spendInfo T l
  return p2trOutputScript info.outputKey

def ListingTerms.orderTxout : Outcome TradeError TxOut := do
  let script ← listingOutputScript T l
  return ⟨l.receipt.itemSatAmount, script⟩

structure IssuanceProof where
  rawMintTxHex : String
  issuerOutpoint : OutPoint
  issuerUtxo : TxOut
  terms : IssuanceTerms

structure ListRequest where
  listing : ListingTerms
  issuanceProof : IssuanceProof
  rawTxHex : String
  prevouts : List TxOut

structure BuyRequest where
  listing : ListingTerms
  listRequest : ListRequest
  orderOutpoint : OutPoint
  buyerKey : XOnlyPublicKey
  proposalExpiryHeight : UInt32
  rawTxHex : String
  prevouts : List TxOut
  buyerOwnershipSignature : Bytes

structure CancelRequest where
  listing : ListingTerms
  listRequest : ListRequest
  orderOutpoint : OutPoint
  rawTxHex : String
  prevouts : List TxOut

inductive TradeSigningRequest where
  | list (request : ListRequest)
  | buy (request : BuyRequest)
  | cancel (request : CancelRequest)

inductive TradePath where
  | list | buy | cancel

structure VerifiedTrade where
  path : TradePath
  txid : Txid
  sighash : Bytes32
  inputIndex : ℕ
  spentOrderOutpoint : OutPoint
  feeSat : UInt64
  listingCommitment : Bytes32
  transaction : Transaction
  prevouts : List TxOut
  sellerKey : XOnlyPublicKey
  (witnessScript controlBlock : Option Bytes)

end Catomicals.Trading
