import Catomicals.Issuance.Supply
import Catomicals.Trading.Agreement

/-!
# What accepted spends of an order do

An accepted buy pays everyone exactly. An accepted cancellation can be mined only if its lock time
is a height: the verifiers compare it with the expiry height as a number.
-/
namespace Catomicals.Trading

open Base Base.Outcome Issuance AgentTradingApi List

variable {T : TradePlatform} {v : VerifiedTrade} {height : UInt32} {tx : Transaction}
  {prevouts : List TxOut}

lemma verified_reads {path : TradePath} {listing : ListingTerms} {spent : OutPoint}
    {feeSat : UInt64} (h : verified T path listing tx prevouts spent feeSat = .ok v) :
    v.txid = T.computeTxid tx ∧ v.inputIndex = 0 ∧ v.feeSat = feeSat ∧ v.transaction = tx ∧
      v.prevouts = prevouts := by
  simp only [verified, ok_iff] at h
  obtain ⟨_, -, _, -, _, -, _, -, rfl⟩ := h
  exact ⟨rfl, rfl, rfl, rfl, rfl⟩

lemma fee_eq_ok {max feeSat : UInt64} (h : fee tx prevouts max = .ok feeSat) :
    (prevouts.map fun o => o.value.toNat).sum =
        (tx.output.map fun o => o.value.toNat).sum + feeSat.toNat ∧
      0 < feeSat.toNat ∧ feeSat ≤ max := by
  simp only [fee, ok_iff, Option.bind_eq_some_iff] at h
  obtain ⟨_, ⟨_, hin, _, hout, hsub⟩, ⟨hpos, hmax⟩, rfl⟩ := h
  have hinputs := toNat_checkedSum hin
  have houts := toNat_checkedSum hout
  rw [map_map, Function.comp_def] at hinputs houts
  rw [checkedSub] at hsub
  split_ifs at hsub with hle
  have hfee := UInt64.toNat_sub_of_le _ _ hle
  rw [Option.some.inj hsub] at hfee
  have hlenat := UInt64.le_iff_toNat_le.mp hle
  refine ⟨by omega, Nat.pos_of_ne_zero fun hzero => hpos (UInt64.toNat_inj.mp hzero), hmax⟩

structure PaysEveryone (T : TradePlatform) (request : BuyRequest) (height : UInt32)
    (v : VerifiedTrade) : Prop where
  prevouts : v.prevouts = request.prevouts
  /-- The first input spends the first output of a listing that both verifiers accept. -/
  order : ∃ listed, verifyList T request.listRequest height = .ok listed ∧
    WalletTradingApi.verifyList T request.listRequest height = .ok listed ∧
    v.transaction.input[0]?.map TxIn.previousOutput =
      some ⟨T.computeTxid listed.transaction, 0⟩ ∧
    v.prevouts[0]? = listed.transaction.output[0]?
  distinct : (v.transaction.input.map TxIn.previousOutput).Nodup
  aligned : v.transaction.input.length = v.prevouts.length
  outputs : BuyOutputs v.transaction request.listing request.buyerKey
  balanced : (v.prevouts.map fun o => o.value.toNat).sum =
    (v.transaction.output.map fun o => o.value.toNat).sum + v.feeSat.toNat
  fee : 0 < v.feeSat.toNat ∧ v.feeSat ≤ request.listing.maxNetworkFeeSat

/-- An accepted buy pays everyone exactly. -/
theorem verifyBuy_pays {request : BuyRequest}
    (h : verifyBuy T request height = .ok v ∨
      WalletTradingApi.verifyBuy T request height = .ok v) : PaysEveryone T request height v := by
  obtain ⟨_, _, policy, hfee, hver⟩ := h.elim agent_verifyBuy_iff.mp wallet_verifyBuy_iff.mp
  obtain ⟨-, -, rfl, rfl, hprevs⟩ := verified_reads hver
  obtain ⟨listed, hlisted, horder⟩ := policy.listed
  obtain ⟨_, _, listPolicy, -, hlistVerified⟩ := agent_verifyList_iff.mp hlisted
  obtain ⟨htxid, -, -, rfl, -⟩ := verified_reads hlistVerified
  have hin := policy.inputs
  simp only [commonInputs, ok_iff] at hin
  obtain ⟨⟨-, hlen⟩, hdist⟩ := hin
  obtain ⟨hbal, hrange⟩ := fee_eq_ok hfee
  rw [← hprevs] at hlen hbal
  refine ⟨hprevs, ⟨listed, hlisted, verifyList_agree.mp hlisted, ?_, ?_⟩, hdist, hlen,
    policy.outputs, hbal, hrange⟩
  · rw [policy.spends, horder, htxid]
  · obtain ⟨_, hbuilt, hprev⟩ := policy.prevout
    obtain ⟨_, _, hbuilt', hout, -⟩ := listPolicy.outputs
    rw [policy.lineage, hbuilt] at hbuilt'
    rw [hprevs, ← head?_eq_getElem?, hprev, hout, Except.ok.inj hbuilt']
    rfl

/-- What `OP_CHECKLOCKTIMEVERIFY` asks of the signed input, for a lock time in the script. -/
structure SatisfiesCltv (v : VerifiedTrade) (lockTime : UInt32) : Prop where
  kind : v.transaction.lockTime < lockTimeThreshold ↔ lockTime < lockTimeThreshold
  reached : lockTime ≤ v.transaction.lockTime
  notFinal : ∃ input, v.transaction.input[v.inputIndex]? = some input ∧
    isFinal input.sequence = false

/-- The lock time of an accepted cancellation is good for the cancel leaf exactly if it is a
height. -/
theorem satisfiesCltv_iff {request : CancelRequest}
    (h : verifyCancel T request height = .ok v ∨
      WalletTradingApi.verifyCancel T request height = .ok v) :
    SatisfiesCltv v request.listing.expiryHeight ↔ v.transaction.lockTime < lockTimeThreshold := by
  obtain ⟨_, _, policy, -, hver⟩ := h.elim agent_verifyCancel_iff.mp wallet_verifyCancel_iff.mp
  obtain ⟨-, hindex, -, rfl, -⟩ := verified_reads hver
  have hvalid := policy.valid
  simp only [ListingTerms.validate, ok_iff] at hvalid
  obtain ⟨-, -, -, ⟨-, hexpy, -⟩, -⟩ := hvalid
  obtain ⟨-, hrchd, hfinal⟩ := policy.header
  obtain ⟨input, hinput, -⟩ := Option.map_eq_some_iff.mp policy.spends
  constructor
  · intro hcltv
    exact hcltv.kind.mpr hexpy
  · intro hhgt
    exact ⟨iff_of_true hhgt hexpy, hrchd, input, by rw [hindex, hinput],
      hfinal input (mem_of_getElem? hinput)⟩

def soloListing : ListingTerms where
  protocolVersion := 1
  network := .signet
  receipt := ⟨.signet, ⟨.zeros, 0⟩, itemOwnerScript ⟨.replicate 3⟩, 1, .replicate 1, .zeros,
    .replicate 1, 0, 0⟩
  sellerKey := ⟨.replicate 3⟩
  sellerPayoutScript := [1]
  priceSat := 5
  creatorFeeScript := [2]
  creatorFeeSat := 2
  cancelScript := [3]
  expiryHeight := 10
  maxNetworkFeeSat := 100

/-- A transaction that spends the item, as it is or in the order, and a coin of nine. -/
def spendOf (lockTime : UInt32) (output : List TxOut) : Transaction where
  version := 2
  lockTime := lockTime
  input := [⟨⟨.zeros, 0⟩, [], 0, []⟩, ⟨⟨.zeros, 1⟩, [], 0, []⟩]
  output := output

def spentOutputs : List TxOut := [soloListing.receipt.txout, ⟨9, []⟩]

/-- The mint of the item, its listing and the spend of the order. -/
def soloTrade (spend : Transaction) : List Transaction :=
  [mintFrom (laneState 0 1) ⟨.zeros, 0⟩ [], spendOf 0 [soloListing.receipt.txout, ⟨8, [3]⟩], spend]

/-- A transaction is written as its position in unary, and every signature is good. -/
def soloPlatform (spend : Transaction) : TradePlatform where
  toPlatform := onesPlatform
  decodeHex := fun s => some (replicate s.length 0)
  deserializeTx := fun bytes => (soloTrade spend)[bytes.length]?
  serializeTx := fun tx => replicate ((soloTrade spend).idxOf tx) 0
  serializeTxOut := fun _ => []
  finalizeTaproot := fun _ _ => some ⟨⟨.replicate 3⟩, fun _ => some []⟩
  keySpendSighash := fun _ _ => some .zeros
  scriptSpendSighash := fun _ _ _ => some .zeros
  verifySchnorr := fun _ _ _ => true

def soloList : ListRequest where
  listing := soloListing
  issuanceProof := ⟨"", ⟨.zeros, 0⟩, issuerUtxo (laneState 0 1), singleItem⟩
  rawTxHex := "0"
  prevouts := spentOutputs

def soloBuy : BuyRequest where
  listing := soloListing
  listRequest := soloList
  orderOutpoint := ⟨.zeros, 0⟩
  buyerKey := ⟨.replicate 4⟩
  proposalExpiryHeight := 10
  rawTxHex := "00"
  prevouts := spentOutputs
  buyerOwnershipSignature := replicate 64 0

def soloCancel : CancelRequest where
  listing := soloListing
  listRequest := soloList
  orderOutpoint := ⟨.zeros, 0⟩
  rawTxHex := "00"
  prevouts := spentOutputs

def buyOf : Transaction :=
  spendOf 0 [⟨1, itemScript ⟨.replicate 4⟩⟩, ⟨5, [1]⟩, ⟨2, [2]⟩]

def cancelOf (lockTime : UInt32) : Transaction := spendOf lockTime [⟨1, [3]⟩]

theorem verifyBuy_pays_solo :
    ∃ v, verifyBuy (soloPlatform buyOf) soloBuy 9 = .ok v ∧
      v.feeSat = 2 ∧ PaysEveryone (soloPlatform buyOf) soloBuy 9 v := by
  have hbuy : (verifyBuy (soloPlatform buyOf) soloBuy 9).toOption.map (·.feeSat) =
      some 2 := by decide +kernel
  obtain ⟨v, hv, hfee⟩ := exists_ok_of_toOption hbuy
  exact ⟨v, hv, hfee, verifyBuy_pays (.inl hv)⟩

/-- The first lock time above the heights is accepted, and no miner can include it. -/
theorem cancelOf_time_accepted :
    ∃ v, verifyCancel (soloPlatform (cancelOf lockTimeThreshold)) soloCancel 10 = .ok v ∧
      WalletTradingApi.verifyCancel (soloPlatform (cancelOf lockTimeThreshold)) soloCancel 10 =
        .ok v ∧ ¬SatisfiesCltv v soloListing.expiryHeight := by
  have hcancel : (verifyCancel (soloPlatform (cancelOf lockTimeThreshold))
      soloCancel 10).toOption.map (·.transaction.lockTime) = some lockTimeThreshold := by
    decide +kernel
  obtain ⟨v, hv, hlock⟩ := exists_ok_of_toOption hcancel
  refine ⟨v, hv, wallet_verifyCancel_iff.mpr (agent_verifyCancel_iff.mp hv), fun hcltv => ?_⟩
  have hhgt := hcltv.kind.mpr (by decide)
  rw [hlock] at hhgt
  exact absurd hhgt (by decide)

theorem satisfiesCltv_iff_height :
    ∃ v, WalletTradingApi.verifyCancel (soloPlatform (cancelOf 10)) soloCancel 10 = .ok v ∧
      SatisfiesCltv v soloListing.expiryHeight := by
  have hcancel : (WalletTradingApi.verifyCancel (soloPlatform (cancelOf 10))
      soloCancel 10).toOption.map (·.transaction.lockTime) = some 10 := by decide +kernel
  obtain ⟨v, hv, hlock⟩ := exists_ok_of_toOption hcancel
  exact ⟨v, hv, (satisfiesCltv_iff (.inr hv)).mpr (by rw [hlock]; decide)⟩

end Catomicals.Trading
