import Catomicals.Trading.Verifiers

/-!
# The two verifiers implement one policy

Both verifiers accept a request exactly when its transaction satisfies the policy of its path and
the fee rule. They use different data for a listing whose order output cannot be built: the agent
compares with the null output, whose value no fee rule admits.
-/
namespace Catomicals.Trading

open Base Base.Outcome Issuance AgentTradingApi TxOut List

lemma toNat_checkedSum_aux {values : List UInt64} {start sum : UInt64}
    (h : values.foldlM (fun sum v =>
      if sum.toNat + v.toNat < 2 ^ 64 then some (sum + v) else none) start = some sum) :
    sum.toNat = start.toNat + (values.map UInt64.toNat).sum := by
  induction values generalizing start with
  | nil =>
    obtain rfl : start = sum := by simpa using h
    simp
  | cons v _ ih =>
    rw [foldlM_cons] at h
    split_ifs at h with hfits
    · have hnext : (start + v).toNat = start.toNat + v.toNat := by
        rw [UInt64.toNat_add, Nat.mod_eq_of_lt hfits]
      have hrest := ih h
      rw [hrest, map_cons, sum_cons]
      omega
    · simp at h

lemma toNat_checkedSum {values : List UInt64} {sum : UInt64} (h : checkedSum values = some sum) :
    sum.toNat = (values.map UInt64.toNat).sum := by
  have haux := toNat_checkedSum_aux h
  rwa [UInt64.toNat_zero, Nat.zero_add] at haux

variable {tx : Transaction} {listing : ListingTerms} {T : TradePlatform} {height : UInt32}
  {v : VerifiedTrade} {prevouts : List TxOut}

lemma ne_null_of_fee {max feeSat : UInt64}
    (h : fee tx prevouts max = .ok feeSat) : nullTxOut ∉ tx.output := by
  simp only [fee, ok_iff, Option.bind_eq_some_iff] at h
  obtain ⟨_, ⟨inputs, _, outputs, hout, hsub⟩, ⟨hpos, -⟩, rfl⟩ := h
  intro hnull
  -- The outputs reach the largest amount, so nothing is left for a fee.
  have hlarge : (0xffffffffffffffff : UInt64).toNat ≤ outputs.toNat := by
    rw [toNat_checkedSum hout]
    refine single_le_sum (by simp) _ ?_
    exact mem_map_of_mem (mem_map_of_mem hnull)
  have hbound := inputs.toNat_lt
  unfold checkedSub at hsub
  split_ifs at hsub with hle
  rw [Option.some.injEq] at hsub
  apply hpos
  rw [← hsub]
  apply UInt64.toNat_inj.mp
  rw [UInt64.toNat_sub_of_le _ _ hle, UInt64.toNat_zero]
  simp only [UInt64.reduceToNat] at hlarge
  omega

/-- What both verifiers return for a transaction that meets a policy and pays a fee. -/
def Trades (T : TradePlatform) (policy : Transaction → Prop) (path : TradePath)
    (listing : ListingTerms) (prevouts : List TxOut) (outpoint : OutPoint) (v : VerifiedTrade) :
    Prop :=
  ∃ tx feeSat, policy tx ∧ fee tx prevouts listing.maxNetworkFeeSat = .ok feeSat ∧
    verified T path listing tx prevouts outpoint feeSat = .ok v

lemma exists_input_iff {o : OutPoint} {p : Prop} :
    (∃ input, tx.input[0]? = some input ∧ input.previousOutput = o ∧ p) ↔
      tx.input[0]?.map TxIn.previousOutput = some o ∧ p := by
  cases tx.input[0]? <;> simp

lemma exists_prevout_iff {p : TxOut → Prop} :
    (∃ prevout, prevouts[0]? = some prevout ∧ p prevout) ↔
      ∃ prevout, prevouts.head? = some prevout ∧ p prevout := by
  rw [head?_eq_getElem?]

lemma length_of_commonInputs (h : commonInputs tx prevouts = .ok ()) :
    2 ≤ tx.input.length ∧ tx.input.length = prevouts.length := by
  simp only [commonInputs, ok_iff] at h
  exact h.1

section List

variable {request : ListRequest}

structure ListPolicy (T : TradePlatform) (request : ListRequest) (height : UInt32)
    (tx : Transaction) : Prop where
  valid : request.listing.validate = .ok ()
  receipt : verifyIssuanceReceipt T request = .ok ()
  live : height < request.listing.expiryHeight
  decoded : decodeUnsigned T request.rawTxHex = .ok tx
  inputs : commonInputs tx request.prevouts = .ok ()
  header : validHeader tx true = true
  spends : tx.input[0]?.map TxIn.previousOutput = some request.listing.receipt.outpoint
  prevout : request.prevouts.head? = some request.listing.receipt.txout
  outputs : ∃ order change, request.listing.orderTxout T = .ok order ∧
    tx.output = [order, change] ∧ change.scriptPubkey = request.listing.cancelScript

lemma listOutputs_iff (hnull : nullTxOut ∉ tx.output) :
    listOutputs T tx listing = true ↔
      ∃ order change, listing.orderTxout T = .ok order ∧ tx.output = [order, change] ∧
        change.scriptPubkey = listing.cancelScript := by
  unfold listOutputs
  constructor
  · intro h
    match hout : tx.output, h with
    | [order, change], h =>
      rw [decide_eq_true_eq] at h
      obtain ⟨horder, hcancel⟩ := h
      unfold orderOrNull at horder
      cases hbuilt : listing.orderTxout T with
      | ok built =>
        rw [hbuilt] at horder
        exact ⟨built, change, rfl, by rw [horder], hcancel⟩
      | error =>
        rw [hbuilt] at horder
        rw [hout, horder] at hnull
        exact absurd mem_cons_self hnull
  · rintro ⟨_, _, hbuilt, hout, hcancel⟩
    rw [hout]
    simp [orderOrNull, hbuilt, hcancel]

theorem agent_verifyList_iff :
    verifyList T request height = .ok v ↔
      Trades T (ListPolicy T request height) .list request.listing request.prevouts
        request.listing.receipt.outpoint v := by
  simp only [Trades, verifyList, ok_iff, exists_input_iff, exists_prevout_iff]
  constructor
  · rintro ⟨hvalid, hrcpt, hlive, tx, hdec, hinputs, hhdr, hspends, _, hprev, rfl,
      houts, feeSat, hfee, hver⟩
    exact ⟨tx, feeSat, ⟨hvalid, hrcpt, hlive, hdec, hinputs, hhdr, hspends, hprev,
      (listOutputs_iff (ne_null_of_fee hfee)).mp houts⟩, hfee, hver⟩
  · rintro ⟨tx, feeSat, policy, hfee, hver⟩
    exact ⟨policy.valid, policy.receipt, policy.live, tx, policy.decoded, policy.inputs,
      policy.header, policy.spends, _, policy.prevout, rfl,
      (listOutputs_iff (ne_null_of_fee hfee)).mpr policy.outputs, feeSat, hfee, hver⟩

theorem wallet_verifyList_iff :
    WalletTradingApi.verifyList T request height = .ok v ↔
      Trades T (ListPolicy T request height) .list request.listing request.prevouts
        request.listing.receipt.outpoint v := by
  simp only [Trades, WalletTradingApi.verifyList, ok_iff]
  constructor
  · rintro ⟨hvalid, hrcpt, tx, hdec, ⟨hlive, hhdr, -, -, hspends, hprev⟩, hinputs,
      order, horder, ⟨htwo, hfirst, hcancel⟩, feeSat, hfee, hver⟩
    refine ⟨tx, feeSat, ⟨hvalid, hrcpt, hlive, hdec, hinputs, hhdr, hspends, hprev, ?_⟩, hfee, hver⟩
    obtain ⟨_, change, hout⟩ := length_eq_two.mp htwo
    rw [hout] at hfirst hcancel
    exact ⟨order, change, horder, by rw [hout, Option.some.inj hfirst], Option.some.inj hcancel⟩
  · rintro ⟨tx, feeSat, policy, hfee, hver⟩
    obtain ⟨order, _, horder, hout, hcancel⟩ := policy.outputs
    obtain ⟨htwo, hsame⟩ := length_of_commonInputs policy.inputs
    refine ⟨policy.valid, policy.receipt, tx, policy.decoded, ⟨policy.live, policy.header,
      htwo, hsame, policy.spends, policy.prevout⟩, policy.inputs, order, horder, ?_,
      feeSat, hfee, hver⟩
    rw [hout]
    exact ⟨rfl, rfl, by rw [← hcancel]; rfl⟩

lemma verifyList_agree : verifyList T request height = .ok v ↔
    WalletTradingApi.verifyList T request height = .ok v := by
  rw [agent_verifyList_iff, wallet_verifyList_iff]

end List

/-- What a buy and a cancellation share: a verified listing, whose order the first input spends. -/
structure OrderPolicy (T : TradePlatform) (listing : ListingTerms) (listRequest : ListRequest)
    (listHeight : UInt32) (orderOutpoint : OutPoint) (rawTxHex : String) (prevouts : List TxOut)
    (tx : Transaction) : Prop where
  valid : listing.validate = .ok ()
  lineage : listRequest.listing = listing
  listed : ∃ listed, verifyList T listRequest listHeight = .ok listed ∧
    orderOutpoint = ⟨listed.txid, 0⟩
  decoded : decodeUnsigned T rawTxHex = .ok tx
  inputs : commonInputs tx prevouts = .ok ()
  spends : tx.input[0]?.map TxIn.previousOutput = some orderOutpoint
  prevout : ∃ order, listing.orderTxout T = .ok order ∧ prevouts.head? = some order

/-- Item to the buyer, price to the seller, fee to the creator, and perhaps an output back to the
buyer. -/
def BuyOutputs (tx : Transaction) (listing : ListingTerms) (buyer : XOnlyPublicKey) : Prop :=
  ∃ change : List TxOut, tx.output =
      ⟨listing.receipt.itemSatAmount, itemScript buyer⟩ ::
        ⟨listing.priceSat, listing.sellerPayoutScript⟩ ::
        ⟨listing.creatorFeeSat, listing.creatorFeeScript⟩ :: change ∧
    change.length ≤ 1 ∧ ∀ o ∈ change, o.scriptPubkey = itemScript buyer

/-- The item back to the seller's cancel script, and perhaps one more output to it. -/
def CancelOutputs (tx : Transaction) (listing : ListingTerms) : Prop :=
  ∃ change : List TxOut,
    tx.output = ⟨listing.receipt.itemSatAmount, listing.cancelScript⟩ :: change ∧
    change.length ≤ 1 ∧ ∀ o ∈ change, o.scriptPubkey = listing.cancelScript

lemma txOut_eq_iff {o : TxOut} {value : UInt64} {script : Bytes} :
    o = ⟨value, script⟩ ↔ o.value = value ∧ o.scriptPubkey = script := by
  cases o
  simp

lemma agent_buyOutputs_iff {buyer : XOnlyPublicKey} :
    buyOutputs tx listing buyer = true ↔ BuyOutputs tx listing buyer := by
  unfold buyOutputs BuyOutputs
  rcases tx.output with _ | ⟨_, _ | ⟨_, _ | ⟨_, _ | ⟨_, _ | ⟨_, _⟩⟩⟩⟩⟩ <;> simp [and_assoc]

lemma wallet_buyOutputs_iff {buyer : XOnlyPublicKey} :
    ((tx.output.length = 3 ∨ tx.output.length = 4) ∧
      tx.output[0]?.map value = some listing.receipt.itemSatAmount ∧
      tx.output[0]?.map scriptPubkey = some (itemScript buyer) ∧
      tx.output[1]?.map value = some listing.priceSat ∧
      tx.output[1]?.map scriptPubkey = some listing.sellerPayoutScript ∧
      tx.output[2]?.map value = some listing.creatorFeeSat ∧
      tx.output[2]?.map scriptPubkey = some listing.creatorFeeScript ∧
      (tx.output.length = 4 → tx.output[3]?.map scriptPubkey = some (itemScript buyer))) ↔
      BuyOutputs tx listing buyer := by
  unfold BuyOutputs
  rcases tx.output with _ | ⟨_, _ | ⟨_, _ | ⟨_, _ | ⟨_, _ | ⟨_, _⟩⟩⟩⟩⟩ <;>
    simp [txOut_eq_iff, and_assoc]

lemma agent_cancelOutputs_iff : cancelOutputs tx listing = true ↔ CancelOutputs tx listing := by
  unfold cancelOutputs CancelOutputs
  rcases tx.output with _ | ⟨_, _ | ⟨_, _ | ⟨_, _⟩⟩⟩ <;> simp

lemma wallet_cancelOutputs_iff :
    (tx.output ≠ [] ∧ tx.output.length ≤ 2 ∧
      tx.output[0]?.map value = some listing.receipt.itemSatAmount ∧
      tx.output[0]?.map scriptPubkey = some listing.cancelScript ∧
      (tx.output.length = 2 → tx.output[1]?.map scriptPubkey = some listing.cancelScript)) ↔
      CancelOutputs tx listing := by
  unfold CancelOutputs
  rcases tx.output with _ | ⟨_, _ | ⟨_, _ | ⟨_, _⟩⟩⟩ <;> simp [txOut_eq_iff, and_assoc]

structure BuyPolicy (T : TradePlatform) (request : BuyRequest) (height : UInt32)
    (tx : Transaction) : Prop extends OrderPolicy T request.listing request.listRequest height
      request.orderOutpoint request.rawTxHex request.prevouts tx where
  live : height < request.listing.expiryHeight ∧ height ≤ request.proposalExpiryHeight ∧
    request.proposalExpiryHeight ≤ request.listing.expiryHeight
  buyer : verifyBuyer T request = .ok ()
  header : validHeader tx true = true
  outputs : BuyOutputs tx request.listing request.buyerKey

structure CancelPolicy (T : TradePlatform) (request : CancelRequest) (height : UInt32)
    (tx : Transaction) : Prop extends OrderPolicy T request.listing request.listRequest
      (saturatingPred request.listing.expiryHeight) request.orderOutpoint request.rawTxHex
      request.prevouts tx where
  mature : request.listing.expiryHeight ≤ height
  header : tx.version = 2 ∧ request.listing.expiryHeight ≤ tx.lockTime ∧
    ∀ input ∈ tx.input, isFinal input.sequence = false
  outputs : CancelOutputs tx request.listing

section Buy

variable {request : BuyRequest}

theorem agent_verifyBuy_iff :
    verifyBuy T request height = .ok v ↔ Trades T (BuyPolicy T request height) .buy
      request.listing request.prevouts request.orderOutpoint v := by
  simp only [Trades, verifyBuy, ok_iff, exists_input_iff, exists_prevout_iff, agent_buyOutputs_iff]
  constructor
  · rintro ⟨hvalid, hlin, listed, hlisted, horder, hlive, hbuyer, tx, hdec, hinputs,
      hhdr, hspends, prevout, hprev, _, hbuilt, rfl, houts, feeSat, hfee, hver⟩
    exact ⟨tx, feeSat, ⟨⟨hvalid, hlin, ⟨listed, hlisted, horder⟩, hdec, hinputs, hspends,
      prevout, hbuilt, hprev⟩, hlive, hbuyer, hhdr, houts⟩, hfee, hver⟩
  · rintro ⟨tx, feeSat, policy, hfee, hver⟩
    obtain ⟨listed, hlisted, horder⟩ := policy.listed
    obtain ⟨order, hbuilt, hprev⟩ := policy.prevout
    exact ⟨policy.valid, policy.lineage, listed, hlisted, horder, policy.live, policy.buyer, tx,
      policy.decoded, policy.inputs, policy.header, policy.spends, order, hprev, order, hbuilt,
      rfl, policy.outputs, feeSat, hfee, hver⟩

theorem wallet_verifyBuy_iff :
    WalletTradingApi.verifyBuy T request height = .ok v ↔ Trades T (BuyPolicy T request height) .buy
      request.listing request.prevouts request.orderOutpoint v := by
  simp only [Trades, WalletTradingApi.verifyBuy, ok_iff, wallet_buyOutputs_iff, ← verifyList_agree]
  constructor
  · rintro ⟨hvalid, hlin, listed, hlisted, horder, tx, hdec, hlive, hbuyer,
      ⟨hhdr, -, -, hspends⟩, order, hbuilt, hprev, hinputs, houts, feeSat, hfee,
      hver⟩
    exact ⟨tx, feeSat, ⟨⟨hvalid, hlin, ⟨listed, hlisted, horder⟩, hdec, hinputs, hspends,
      order, hbuilt, hprev⟩, hlive, hbuyer, hhdr, houts⟩, hfee, hver⟩
  · rintro ⟨tx, feeSat, policy, hfee, hver⟩
    obtain ⟨listed, hlisted, horder⟩ := policy.listed
    obtain ⟨order, hbuilt, hprev⟩ := policy.prevout
    obtain ⟨htwo, hsame⟩ := length_of_commonInputs policy.inputs
    exact ⟨policy.valid, policy.lineage, listed, hlisted, horder, tx, policy.decoded, policy.live,
      policy.buyer, ⟨policy.header, htwo, hsame, policy.spends⟩, order, hbuilt,
      hprev, policy.inputs, policy.outputs, feeSat, hfee, hver⟩

end Buy

section Cancel

variable {request : CancelRequest}

theorem agent_verifyCancel_iff :
    verifyCancel T request height = .ok v ↔
      Trades T (CancelPolicy T request height) .cancel request.listing request.prevouts
        request.orderOutpoint v := by
  simp only [Trades, verifyCancel, ok_iff, exists_input_iff, exists_prevout_iff,
    agent_cancelOutputs_iff]
  constructor
  · rintro ⟨hvalid, hlin, listed, hlisted, horder, hmature, tx, hdec, hinputs, hhdr,
      hspends, prevout, hprev, _, hbuilt, rfl, houts, feeSat, hfee, hver⟩
    exact ⟨tx, feeSat, ⟨⟨hvalid, hlin, ⟨listed, hlisted, horder⟩, hdec, hinputs, hspends,
      prevout, hbuilt, hprev⟩, hmature, hhdr, houts⟩, hfee, hver⟩
  · rintro ⟨tx, feeSat, policy, hfee, hver⟩
    obtain ⟨listed, hlisted, horder⟩ := policy.listed
    obtain ⟨order, hbuilt, hprev⟩ := policy.prevout
    exact ⟨policy.valid, policy.lineage, listed, hlisted, horder, policy.mature, tx,
      policy.decoded, policy.inputs, policy.header, policy.spends, order, hprev, order, hbuilt,
      rfl, policy.outputs, feeSat, hfee, hver⟩

theorem wallet_verifyCancel_iff :
    WalletTradingApi.verifyCancel T request height = .ok v ↔
      Trades T (CancelPolicy T request height) .cancel request.listing request.prevouts
        request.orderOutpoint v := by
  simp only [Trades, WalletTradingApi.verifyCancel, ok_iff, wallet_cancelOutputs_iff,
    ← verifyList_agree]
  constructor
  · rintro ⟨hvalid, hlin, listed, hlisted, horder, tx, hdec, hmature,
      ⟨hvers, hlock, hfinal, -, -, hspends⟩, order, hbuilt, hprev, hinputs, houts, feeSat,
      hfee, hver⟩
    exact ⟨tx, feeSat, ⟨⟨hvalid, hlin, ⟨listed, hlisted, horder⟩, hdec, hinputs, hspends,
      order, hbuilt, hprev⟩, hmature, ⟨hvers, hlock, hfinal⟩, houts⟩, hfee, hver⟩
  · rintro ⟨tx, feeSat, policy, hfee, hver⟩
    obtain ⟨listed, hlisted, horder⟩ := policy.listed
    obtain ⟨order, hbuilt, hprev⟩ := policy.prevout
    obtain ⟨hvers, hlock, hfinal⟩ := policy.header
    obtain ⟨htwo, hsame⟩ := length_of_commonInputs policy.inputs
    exact ⟨policy.valid, policy.lineage, listed, hlisted, horder, tx, policy.decoded,
      policy.mature, ⟨hvers, hlock, hfinal, htwo, hsame, policy.spends⟩, order,
      hbuilt, hprev, policy.inputs, policy.outputs, feeSat, hfee, hver⟩

end Cancel

/-- The agent and the wallet accept the same requests and return the same verified trade. -/
theorem agent_verify_iff_wallet_verify (T : TradePlatform) (request : TradeSigningRequest)
    (height : UInt32) (v : VerifiedTrade) :
    verify T request height = .ok v ↔ WalletTradingApi.verify T request height = .ok v := by
  cases request with
  | list => exact verifyList_agree
  | buy => exact agent_verifyBuy_iff.trans wallet_verifyBuy_iff.symm
  | cancel => exact agent_verifyCancel_iff.trans wallet_verifyCancel_iff.symm

end Catomicals.Trading
