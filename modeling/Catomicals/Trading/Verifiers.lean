import Catomicals.Trading.Listing

/-!
# The agent and the wallet verifier

Two implementations of one policy, with their checks in different orders. They share the decoding,
the fee rule, the receipt check and the assembly of the verified trade.
-/
namespace Catomicals.Trading

open Base Base.Outcome Issuance TxOut

variable (T : TradePlatform)

/-- `hex::decode` and `deserialize`, accepting only the canonical serialization. -/
def decodeTransaction (rawHex : String) : Outcome TradeError Transaction := do
  let bytes ← okOr (T.decodeHex rawHex) .invalidRawTransaction
  let tx ← okOr (T.deserializeTx bytes) .invalidRawTransaction
  ensure (T.serializeTx tx = bytes) .invalidRawTransaction
  return tx

/-- A transaction without scripts and witnesses. -/
def decodeUnsigned (rawHex : String) : Outcome TradeError Transaction := do
  let tx ← decodeTransaction T rawHex
  ensure (∀ input ∈ tx.input, input.scriptSig = [] ∧ input.witness = []) .partiallySigned
  return tx

/-- The receipt of a minted item. -/
def ItemReceipt.fromVerifiedMint (mintTx : Transaction)
    (verified : VerifiedMint) (terms : IssuanceTerms) : Outcome TradeError ItemReceipt := do
  ensure (verified.issuerState.termsHash = terms.termsHash T.toPlatform ∧
    mintTx.output[verified.itemOutputIndex]? = some verified.itemOutput) .invalidReceipt
  ensure (verified.itemOutputIndex < 2 ^ 32) .invalidReceipt
  return { network := .signet
           outpoint := ⟨T.computeTxid mintTx, UInt32.ofNat verified.itemOutputIndex⟩
           scriptPubkey := verified.itemOutput.scriptPubkey
           itemSatAmount := verified.itemOutput.value
           termsHash := verified.issuerState.termsHash
           itemId := terms.itemId
           itemCommitment := verified.witness.itemCommitment
           lane := verified.issuerState.lane
           sequence := verified.issuerState.seq }

/-- The verified mint of an issuance proof; every error is an invalid receipt. -/
def verifyProof (mintTx : Transaction) (proof : IssuanceProof) : Outcome TradeError VerifiedMint :=
  match verifyMint T.toPlatform mintTx proof.issuerOutpoint proof.issuerUtxo proof.terms with
  | .ok verified => .ok verified
  | .error (.error _) => .error (.error .invalidReceipt)
  | .error (.panic p) => .error (.panic p)

/-- The listing has the receipt of its issuance proof. -/
def verifyIssuanceReceipt (request : ListRequest) : Outcome TradeError Unit := do
  let mintTx ← decodeTransaction T request.issuanceProof.rawMintTxHex
  let verified ← verifyProof T mintTx request.issuanceProof
  let receipt ← ItemReceipt.fromVerifiedMint T mintTx verified request.issuanceProof.terms
  ensure (receipt = request.listing.receipt) .invalidReceipt

/-- Two or more distinct inputs, with their previous outputs. -/
def commonInputs (tx : Transaction) (prevouts : List TxOut) : Outcome TradeError Unit := do
  ensure (2 ≤ tx.input.length ∧ tx.input.length = prevouts.length) .invalidPrevouts
  ensure (tx.input.map TxIn.previousOutput).Nodup .invalidInputs

/-- `try_fold` with `checked_add`. -/
def checkedSum (values : List UInt64) : Option UInt64 :=
  values.foldlM (fun sum v => if sum.toNat + v.toNat < 2 ^ 64 then some (sum + v) else none) 0

def checkedSub (a b : UInt64) : Option UInt64 := if b ≤ a then some (a - b) else none

/-- What the outputs leave, at most `max`. -/
def fee (tx : Transaction) (prevouts : List TxOut) (max : UInt64) : Outcome TradeError UInt64 := do
  let inputs := checkedSum (prevouts.map value)
  let outputs := checkedSum (tx.output.map value)
  let fee ← okOr (inputs.bind fun i => outputs.bind fun o => checkedSub i o) .invalidFee
  ensure (fee ≠ 0 ∧ fee ≤ max) .invalidFee
  return fee

def validHeader (tx : Transaction) (zeroLocktime : Bool) : Bool :=
  tx.version = 2 ∧ (zeroLocktime = true → tx.lockTime = 0)

def itemScript (key : XOnlyPublicKey) : Bytes := itemOwnerScript key

def isFinal (sequence : UInt32) : Bool := sequence = 0xffffffff

/-- `u32::saturating_sub(1)`. -/
def saturatingPred (a : UInt32) : UInt32 := if a = 0 then 0 else a - 1

/-- The bytes the buyer signs a hash of. -/
def buyerOwnershipPreimage (commitment : Bytes32) (orderOutpoint : OutPoint)
    (txid : Txid) (buyerKey : XOnlyPublicKey) (proposalExpiryHeight : UInt32)
    (prevouts : List TxOut) : Bytes :=
  buyerTag ++ commitment.bytes ++ orderOutpoint.txid.bytes ++ beBytes 4 orderOutpoint.vout.toNat ++
    txid.bytes ++ buyerKey.serialize.bytes ++ beBytes 4 proposalExpiryHeight.toNat ++
    beBytes 8 prevouts.length ++
    prevouts.flatMap fun prevout => pushLenPrefixed (T.serializeTxOut prevout)

def buyerOwnershipMessage (request : BuyRequest) : Outcome TradeError Bytes32 := do
  let tx ← decodeUnsigned T request.rawTxHex
  let commitment ← request.listing.commitment T
  return T.sha256 (buyerOwnershipPreimage T commitment request.orderOutpoint (T.computeTxid tx)
    request.buyerKey request.proposalExpiryHeight request.prevouts)

def verifyBuyer (request : BuyRequest) : Outcome TradeError Unit := do
  ensure (request.buyerOwnershipSignature.length = 64) .invalidBuyerProof
  let message ← buyerOwnershipMessage T request
  ensure (T.verifySchnorr request.buyerOwnershipSignature message request.buyerKey = true)
    .invalidBuyerProof

def sighash (tx : Transaction) (prevouts : List TxOut) (leaf : Option Bytes) :
    Outcome TradeError Bytes32 :=
  match leaf with
  | some script => okOr (T.scriptSpendSighash tx prevouts script) .taproot
  | none => okOr (T.keySpendSighash tx prevouts) .taproot

def pathScript (path : TradePath) (listing : ListingTerms) : Outcome TradeError (Option Bytes) :=
  match path with
  | .list => return none
  | .buy => do return some (← buyLeafScript T listing)
  | .cancel => do return some (← cancelLeafScript T listing)

def pathControlBlock (listing : ListingTerms) : Option Bytes → Outcome TradeError (Option Bytes)
  | none => return none
  | some script => do
    let info ← spendInfo T listing
    let block ← okOr (info.controlBlock script) .taproot
    return some block

/-- What is to be signed, and by which path. -/
def verified (path : TradePath) (listing : ListingTerms) (tx : Transaction)
    (prevouts : List TxOut) (spent : OutPoint) (feeSat : UInt64) :
    Outcome TradeError VerifiedTrade := do
  let script ← pathScript T path listing
  let controlBlock ← pathControlBlock T listing script
  let hash ← sighash T tx prevouts script
  let commitment ← listing.commitment T
  return { path := path, txid := T.computeTxid tx, sighash := hash, inputIndex := 0
           spentOrderOutpoint := spent, feeSat := feeSat, listingCommitment := commitment
           transaction := tx, prevouts := prevouts, sellerKey := listing.sellerKey
           witnessScript := script, controlBlock := controlBlock }

namespace AgentTradingApi

variable (T : TradePlatform)

def orderOrNull (listing : ListingTerms) : TxOut :=
  match listing.orderTxout T with
  | .ok order => order
  | .error _ => nullTxOut

def listOutputs (tx : Transaction) (listing : ListingTerms) : Bool :=
  match tx.output with
  | [order, change] => order = orderOrNull T listing ∧ change.scriptPubkey = listing.cancelScript
  | _ => false

def buyOutputs (tx : Transaction) (listing : ListingTerms) (buyer : XOnlyPublicKey) : Bool :=
  (tx.output.length = 3 ∨ tx.output.length = 4) ∧
    tx.output[0]? = some ⟨listing.receipt.itemSatAmount, itemScript buyer⟩ ∧
    tx.output[1]? = some ⟨listing.priceSat, listing.sellerPayoutScript⟩ ∧
    tx.output[2]? = some ⟨listing.creatorFeeSat, listing.creatorFeeScript⟩ ∧
    (tx.output.length = 3 ∨ tx.output[3]?.map scriptPubkey = some (itemScript buyer))

def cancelOutputs (tx : Transaction) (listing : ListingTerms) : Bool :=
  (tx.output.length = 1 ∨ tx.output.length = 2) ∧
    tx.output[0]? = some ⟨listing.receipt.itemSatAmount, listing.cancelScript⟩ ∧
    (tx.output.length = 1 ∨ tx.output[1]?.map scriptPubkey = some listing.cancelScript)

def verifyList (request : ListRequest) (height : UInt32) : Outcome TradeError VerifiedTrade := do
  request.listing.validate
  verifyIssuanceReceipt T request
  ensure (height < request.listing.expiryHeight) .expired
  let tx ← decodeUnsigned T request.rawTxHex
  commonInputs tx request.prevouts
  ensure (validHeader tx true = true) .invalidTransactionHeader
  let input ← ofPanic (index tx.input 0)
  ensure (input.previousOutput = request.listing.receipt.outpoint) .invalidInputs
  let prevout ← ofPanic (index request.prevouts 0)
  ensure (prevout = request.listing.receipt.txout) .invalidPrevouts
  ensure (listOutputs T tx request.listing = true) .invalidOutputs
  let feeSat ← fee tx request.prevouts request.listing.maxNetworkFeeSat
  verified T .list request.listing tx request.prevouts request.listing.receipt.outpoint feeSat

def verifyBuy (request : BuyRequest) (height : UInt32) : Outcome TradeError VerifiedTrade := do
  request.listing.validate
  ensure (request.listRequest.listing = request.listing) .invalidListingLineage
  let listed ← verifyList T request.listRequest height
  ensure (request.orderOutpoint = ⟨listed.txid, 0⟩) .invalidListingLineage
  ensure (height < request.listing.expiryHeight ∧ height ≤ request.proposalExpiryHeight ∧
    request.proposalExpiryHeight ≤ request.listing.expiryHeight) .expired
  verifyBuyer T request
  let tx ← decodeUnsigned T request.rawTxHex
  commonInputs tx request.prevouts
  ensure (validHeader tx true = true) .invalidTransactionHeader
  let input ← ofPanic (index tx.input 0)
  ensure (input.previousOutput = request.orderOutpoint) .invalidInputs
  let prevout ← ofPanic (index request.prevouts 0)
  let order ← request.listing.orderTxout T
  ensure (prevout = order) .invalidPrevouts
  ensure (buyOutputs tx request.listing request.buyerKey = true) .invalidOutputs
  let feeSat ← fee tx request.prevouts request.listing.maxNetworkFeeSat
  verified T .buy request.listing tx request.prevouts request.orderOutpoint feeSat

def verifyCancel (request : CancelRequest) (height : UInt32) :
    Outcome TradeError VerifiedTrade := do
  request.listing.validate
  ensure (request.listRequest.listing = request.listing) .invalidListingLineage
  let listed ← verifyList T request.listRequest (saturatingPred request.listing.expiryHeight)
  ensure (request.orderOutpoint = ⟨listed.txid, 0⟩) .invalidListingLineage
  ensure (request.listing.expiryHeight ≤ height) .cancelNotMature
  let tx ← decodeUnsigned T request.rawTxHex
  commonInputs tx request.prevouts
  ensure (tx.version = 2 ∧ request.listing.expiryHeight ≤ tx.lockTime ∧
    ∀ input ∈ tx.input, isFinal input.sequence = false) .invalidTransactionHeader
  let input ← ofPanic (index tx.input 0)
  ensure (input.previousOutput = request.orderOutpoint) .invalidInputs
  let prevout ← ofPanic (index request.prevouts 0)
  let order ← request.listing.orderTxout T
  ensure (prevout = order) .invalidPrevouts
  ensure (cancelOutputs tx request.listing = true) .invalidOutputs
  let feeSat ← fee tx request.prevouts request.listing.maxNetworkFeeSat
  verified T .cancel request.listing tx request.prevouts request.orderOutpoint feeSat

def verify (request : TradeSigningRequest) (height : UInt32) : Outcome TradeError VerifiedTrade :=
  match request with
  | .list request => verifyList T request height
  | .buy request => verifyBuy T request height
  | .cancel request => verifyCancel T request height

end AgentTradingApi

/-! The wallet reads an element only behind the length tests of the same condition, so its
accesses stay in bounds and an absent element simply fails the comparison. -/

namespace WalletTradingApi

def verifyList (request : ListRequest) (height : UInt32) : Outcome TradeError VerifiedTrade := do
  let listing := request.listing
  listing.validate
  verifyIssuanceReceipt T request
  let tx ← decodeUnsigned T request.rawTxHex
  ensure (height < listing.expiryHeight ∧ validHeader tx true = true ∧ 2 ≤ tx.input.length ∧
    tx.input.length = request.prevouts.length ∧
    tx.input[0]?.map TxIn.previousOutput = some listing.receipt.outpoint ∧
    request.prevouts.head? = some listing.receipt.txout) .invalidInputs
  commonInputs tx request.prevouts
  let expectedOrder ← listing.orderTxout T
  ensure (tx.output.length = 2 ∧ tx.output.head? = some expectedOrder ∧
    tx.output[1]?.map scriptPubkey = some listing.cancelScript) .invalidOutputs
  let feeSat ← fee tx request.prevouts listing.maxNetworkFeeSat
  verified T .list listing tx request.prevouts listing.receipt.outpoint feeSat

def verifyBuy (request : BuyRequest) (height : UInt32) : Outcome TradeError VerifiedTrade := do
  let listing := request.listing
  listing.validate
  ensure (request.listRequest.listing = listing) .invalidListingLineage
  let listed ← verifyList T request.listRequest height
  ensure (request.orderOutpoint = ⟨listed.txid, 0⟩) .invalidListingLineage
  let tx ← decodeUnsigned T request.rawTxHex
  ensure (height < listing.expiryHeight ∧ height ≤ request.proposalExpiryHeight ∧
    request.proposalExpiryHeight ≤ listing.expiryHeight) .expired
  verifyBuyer T request
  ensure (validHeader tx true = true ∧ 2 ≤ tx.input.length ∧
    tx.input.length = request.prevouts.length ∧
    tx.input[0]?.map TxIn.previousOutput = some request.orderOutpoint) .invalidInputs
  let order ← listing.orderTxout T
  ensure (request.prevouts.head? = some order) .invalidInputs
  commonInputs tx request.prevouts
  let buyerScript := itemScript request.buyerKey
  ensure ((tx.output.length = 3 ∨ tx.output.length = 4) ∧
    tx.output[0]?.map value = some listing.receipt.itemSatAmount ∧
    tx.output[0]?.map scriptPubkey = some buyerScript ∧
    tx.output[1]?.map value = some listing.priceSat ∧
    tx.output[1]?.map scriptPubkey = some listing.sellerPayoutScript ∧
    tx.output[2]?.map value = some listing.creatorFeeSat ∧
    tx.output[2]?.map scriptPubkey = some listing.creatorFeeScript ∧
    (tx.output.length = 4 → tx.output[3]?.map scriptPubkey = some buyerScript))
    .invalidOutputs
  let feeSat ← fee tx request.prevouts listing.maxNetworkFeeSat
  verified T .buy listing tx request.prevouts request.orderOutpoint feeSat

def verifyCancel (request : CancelRequest) (height : UInt32) :
    Outcome TradeError VerifiedTrade := do
  let listing := request.listing
  listing.validate
  ensure (request.listRequest.listing = listing) .invalidListingLineage
  let listed ← verifyList T request.listRequest (saturatingPred listing.expiryHeight)
  ensure (request.orderOutpoint = ⟨listed.txid, 0⟩) .invalidListingLineage
  let tx ← decodeUnsigned T request.rawTxHex
  ensure (listing.expiryHeight ≤ height) .cancelNotMature
  ensure (tx.version = 2 ∧ listing.expiryHeight ≤ tx.lockTime ∧
    (∀ input ∈ tx.input, isFinal input.sequence = false) ∧ 2 ≤ tx.input.length ∧
    tx.input.length = request.prevouts.length ∧
    tx.input[0]?.map TxIn.previousOutput = some request.orderOutpoint) .invalidInputs
  let order ← listing.orderTxout T
  ensure (request.prevouts.head? = some order) .invalidInputs
  commonInputs tx request.prevouts
  ensure (tx.output ≠ [] ∧ tx.output.length ≤ 2 ∧
    tx.output[0]?.map value = some listing.receipt.itemSatAmount ∧
    tx.output[0]?.map scriptPubkey = some listing.cancelScript ∧
    (tx.output.length = 2 → tx.output[1]?.map scriptPubkey = some listing.cancelScript))
    .invalidOutputs
  let feeSat ← fee tx request.prevouts listing.maxNetworkFeeSat
  verified T .cancel listing tx request.prevouts request.orderOutpoint feeSat

def verify (request : TradeSigningRequest) (height : UInt32) : Outcome TradeError VerifiedTrade :=
  match request with
  | .list request => verifyList T request height
  | .buy request => verifyBuy T request height
  | .cancel request => verifyCancel T request height

end WalletTradingApi

end Catomicals.Trading
