import Catomicals.Indexer.Utxo

/-!
# Items of the stored transitions

The item of a stored transition is the one output of its transaction with the owner's script. So two
transitions share an item exactly when one transaction mints twice for the same owner.
-/
namespace Catomicals.Index

open Base Base.Outcome Issuance WriteBatch BlockScan List

variable {P : Platform} {cfg : IndexerConfig} {db : Db} {tx : Transaction}

/-- The stored transition `r` under the key `k` is a mint of the transaction. -/
structure MintOf (P : Platform) (tx : Transaction) (k : Txid × UInt32)
    (r : IssuanceTransitionRecord) : Prop where
  txid : P.computeTxid tx = k.1
  item : ∃ i, outputIndices tx (itemOwnerScript ⟨r.ownerKey⟩) = [i] ∧
    r.itemOutpoint = ⟨k.1, UInt32.ofNat i⟩
  owner : ∃ j input, k.2 = UInt32.ofNat j ∧ tx.input[j]? = some input ∧
    input.witness.length = 7 ∧ input.witness[3]? = some r.ownerKey.bytes

def ItemsUnique (db : Db) : Prop :=
  ∀ k k' r r', db.transitions.get k = some r → db.transitions.get k' = some r' →
    r.itemOutpoint = r'.itemOutpoint → k = k'

def OwnersUnique (db : Db) : Prop :=
  ∀ k k' r r', db.transitions.get k = some r → db.transitions.get k' = some r' →
    k.1 = k'.1 → r.ownerKey = r'.ownerKey → k = k'

/-- No two inputs with the witness shape of a mint name the same owner. -/
def DistinctOwners (tx : Transaction) : Prop :=
  ∀ (i j : ℕ) (a b : TxIn), tx.input[i]? = some a → tx.input[j]? = some b → a.witness.length = 7 →
    b.witness.length = 7 → a.witness[3]? = b.witness[3]? → i = j

section Pass

variable {pos : TxPosition} {txs : List Transaction} {scan scan' : BlockScan}

/-- Every transition of the batch is a mint of one of the transactions. -/
def AddsMintsOf (P : Platform) (txs : List Transaction) (scan : BlockScan) : Prop :=
  ∀ e ∈ transitions scan.batch, ∃ k r, e = .put k r ∧ ∃ tx ∈ txs, MintOf P tx k r

lemma transitions_addTransition (scan : BlockScan) (k : Txid × UInt32)
    (r : IssuanceTransitionRecord) (count : UInt32) :
    transitions (scan.addTransition k r count).batch = transitions scan.batch ++ [.put k r] := by
  simp [addTransition, transitions]

variable {records : List (Option UtxoRecord)}

lemma transitions_spendInputs {inputs : List (TxIn × ℕ)}
    (h : spendInputs P records inputs scan = .ok scan') :
    transitions scan'.batch = transitions scan.batch := by
  induction inputs generalizing scan with
  | nil =>
    obtain rfl : scan = scan' := by simpa [spendInputs] using h
    rfl
  | cons _ _ ih =>
    rw [spendInputs] at h
    split_ifs at h
    · exact ih h
    · simp only [bind_eq_ok] at h
      obtain ⟨_, -, _, -, _, -, h⟩ := h
      rw [ih h]
      simp [spendOutput, transitions]

lemma transitions_createOutputs {outputs : List (TxOut × ℕ)}
    (h : createOutputs P cfg pos outputs scan = .ok scan') :
    transitions scan'.batch = transitions scan.batch := by
  induction outputs generalizing scan with
  | nil =>
    obtain rfl : scan = scan' := by simpa [createOutputs] using h
    rfl
  | cons _ _ ih =>
    simp only [createOutputs, bind_eq_ok] at h
    obtain ⟨_, -, h⟩ := h
    rw [ih h]
    simp [createOutput, transitions]

section

variable (hpos : P.computeTxid tx = pos.txid)
include hpos

lemma mintOf_transitionRecord {outpoint : OutPoint} {utxo : TxOut} {terms : IssuanceTerms}
    {v : VerifiedMint}
    (h : verifyMint P tx outpoint utxo terms = .ok v) :
    MintOf P tx (pos.txid, UInt32.ofNat v.issuerInputIndex)
      (transitionRecord cfg pos outpoint v) := by
  obtain ⟨input, hinput, hseven, howner⟩ := verifyMint_owner h
  exact ⟨hpos, ⟨v.itemOutputIndex, verifyMint_item h, rfl⟩,
    ⟨v.issuerInputIndex, input, rfl, hinput, hseven, howner⟩⟩

lemma addsMintsOf_indexIssuerSpend {d : DiscoveredIssuerSpend}
    (htx : tx ∈ txs) (hscan : AddsMintsOf P txs scan)
    (h : indexIssuerSpend P cfg pos tx records scan d = .ok scan') : AddsMintsOf P txs scan' := by
  unfold indexIssuerSpend at h
  split at h
  · split at h
    · next hverify =>
      simp only [recordTransition, ok_iff] at h
      obtain ⟨_, -, rfl⟩ := h
      intro e he
      rw [transitions_addTransition, mem_append, mem_singleton] at he
      rcases he with hold | hnew
      · exact hscan e hold
      · exact ⟨_, _, hnew, tx, htx, mintOf_transitionRecord hpos hverify⟩
    · obtain rfl : scan = scan' := by simpa using h
      exact hscan
    · simp at h
  · obtain rfl : scan = scan' := by simpa using h
    exact hscan

lemma addsMintsOf_scanTx (htx : tx ∈ txs)
    (hscan : AddsMintsOf P txs scan) (h : scanTx P cfg db pos tx scan = .ok scan') :
    AddsMintsOf P txs scan' := by
  simp only [scanTx, bind_eq_ok, ofPanic_eq_ok] at h
  obtain ⟨-, -, _, -, discovered, -, scan₁, h₁, _, h₂, _, h₃, h₄⟩ := h
  have hfold : AddsMintsOf P txs scan₁ := by
    generalize discovered.consumedIssuers = ds at h₁
    induction ds generalizing scan with
    | nil =>
      obtain rfl : scan = scan₁ := by simpa using h₁
      exact hscan
    | cons _ _ ih =>
      rw [foldlM_cons, bind_eq_ok] at h₁
      obtain ⟨_, hmid, h₁⟩ := h₁
      exact ih (addsMintsOf_indexIssuerSpend hpos htx hscan hmid) h₁
  simp only [recordTransaction, bind_eq_ok, pure_eq_ok] at h₃
  obtain ⟨_, -, rfl⟩ := h₃
  have heq : transitions scan'.batch = transitions scan₁.batch := by
    rw [transitions_createOutputs h₄, ← transitions_spendInputs h₂]
    simp [addTransaction, transitions]
  unfold AddsMintsOf
  rw [heq]
  exact hfold

end

lemma addsMintsOf_scanTxs {blockHash : BlockHash} {height : UInt32} {n : ℕ}
    {rest : List Transaction} (hrest : rest ⊆ txs) (hscan : AddsMintsOf P txs scan)
    (h : scanTxs P cfg db blockHash height n rest scan = .ok scan') :
    AddsMintsOf P txs scan' := by
  induction rest generalizing n scan with
  | nil =>
    obtain rfl : scan = scan' := by simpa [scanTxs] using h
    exact hscan
  | cons _ _ ih =>
    simp only [scanTxs, bind_eq_ok] at h
    obtain ⟨mid, hmid, h⟩ := h
    have hmid' : AddsMintsOf P txs mid := addsMintsOf_scanTx rfl (hrest mem_cons_self) hscan hmid
    exact ih (fun t ht => hrest (mem_cons_of_mem _ ht)) hmid' h

end Pass

variable {chain : List Block}

lemma chainTxs_concat (chain : List Block) (block : Block) :
    chainTxs (chain ++ [block]) = chainTxs chain ++ block.txdata := by
  simp [chainTxs]

lemma Built.mintOf (h : Built P cfg db chain) {k : Txid × UInt32} {r : IssuanceTransitionRecord}
    (hr : db.transitions.get k = some r) : ∃ tx ∈ chainTxs chain, MintOf P tx k r := by
  induction h with
  | nil => simp [Db.empty] at hr
  | @snoc _ _ _ block scan _ _ pass ih =>
    have hadds : AddsMintsOf P block.txdata scan :=
      addsMintsOf_scanTxs (fun t ht => ht) (by simp [AddsMintsOf, transitions]) pass
    rw [chainTxs_concat]
    rcases Table.put_mem_or_get_of_applyAll hr with hput | hold
    · obtain ⟨_, _, heq, tx, htx, hmint⟩ := hadds _ hput
      obtain ⟨rfl, rfl⟩ := Edit.put.inj heq
      exact ⟨tx, mem_append_right _ htx, hmint⟩
    · obtain ⟨tx, htx, hmint⟩ := ih hold
      exact ⟨tx, mem_append_left _ htx, hmint⟩

lemma Built.nodup_txids (h : Built P cfg db chain) :
    ((chainTxs chain).map P.computeTxid).Nodup ∧
      ∀ tx ∈ chainTxs chain, (db.transactions.get (P.computeTxid tx)).isSome := by
  induction h with
  | nil => simp [chainTxs]
  | @snoc _ _ _ _ _ prev acc pass ih =>
    obtain ⟨hinv, hcrtd⟩ := pass_spec prev.coherent pass
    obtain ⟨hnodup, hindexed⟩ := ih
    rw [chainTxs_concat]
    constructor
    · rw [map_append]
      refine hnodup.append acc.nodup_txids ?_
      intro t hold hnew
      obtain ⟨tx, htx, rfl⟩ := mem_map.mp hold
      have hsome := hindexed tx htx
      rw [acc.new_txids _ hnew] at hsome
      simp at hsome
    · intro tx htx
      rw [isSome_transactions_applied hinv, hcrtd]
      rcases mem_append.mp htx with hold | hnew
      · exact .inr (hindexed tx hold)
      · exact .inl (mem_map_of_mem hnew)

variable {k k' : Txid × UInt32} {r r' : IssuanceTransitionRecord}

lemma Built.same_tx (h : Built P cfg db chain) (hr : db.transitions.get k = some r)
    (hr' : db.transitions.get k' = some r') (hk : k.1 = k'.1) :
    ∃ tx ∈ chainTxs chain, MintOf P tx k r ∧ MintOf P tx k' r' := by
  obtain ⟨tx, htx, hmint⟩ := h.mintOf hr
  obtain ⟨tx', htx', hmint'⟩ := h.mintOf hr'
  have hid : P.computeTxid tx = P.computeTxid tx' := by rw [hmint.txid, hmint'.txid, hk]
  obtain rfl := inj_on_of_nodup_map h.nodup_txids.1 htx htx' hid
  exact ⟨tx, htx, hmint, hmint'⟩

lemma length_lt_of_mem_chainTxs (h : tx ∈ chainTxs chain) :
    tx.input.length < 2 ^ 32 ∧ tx.output.length < 2 ^ 32 := by
  obtain ⟨_, -, htx⟩ := mem_flatMap.mp h
  exact ⟨Block.input_length_lt htx, Block.output_length_lt htx⟩

lemma ofNat_inj_of_lt {i j : ℕ} (hi : i < 2 ^ 32) (hj : j < 2 ^ 32)
    (h : UInt32.ofNat i = UInt32.ofNat j) : i = j := by
  have hnat := congrArg UInt32.toNat h
  rwa [UInt32.toNat_ofNat', UInt32.toNat_ofNat', Nat.mod_eq_of_lt hi, Nat.mod_eq_of_lt hj] at hnat

lemma MintOf.item_eq_iff (h : MintOf P tx k r) (h' : MintOf P tx k' r')
    (hlen : tx.output.length < 2 ^ 32) :
    r.itemOutpoint = r'.itemOutpoint ↔ r.ownerKey = r'.ownerKey := by
  obtain ⟨i, hi, hitem⟩ := h.item
  obtain ⟨i', hi', hitem'⟩ := h'.item
  have htxid : k.1 = k'.1 := by rw [← h.txid, h'.txid]
  obtain ⟨_, hout, hscr⟩ := mem_outputIndices.mp (hi ▸ mem_singleton_self i)
  obtain ⟨_, hout', hscr'⟩ := mem_outputIndices.mp (hi' ▸ mem_singleton_self i')
  constructor
  · intro heq
    rw [hitem, hitem', OutPoint.mk.injEq] at heq
    have hi_lt : i < tx.output.length := (List.getElem?_eq_some_iff.mp hout).1
    have hi_lt' : i' < tx.output.length := (List.getElem?_eq_some_iff.mp hout').1
    obtain rfl : i = i' := ofNat_inj_of_lt (by omega) (by omega) heq.2
    rw [hout, Option.some.injEq] at hout'
    have hkeys : itemOwnerScript ⟨r.ownerKey⟩ = itemOwnerScript ⟨r'.ownerKey⟩ := by
      rw [← hscr, ← hscr', hout']
    exact XOnlyPublicKey.mk.inj (p2trOutputScript_inj hkeys)
  · intro heq
    rw [heq, hi', singleton_inj] at hi
    rw [hitem, hitem', htxid, hi]

/-- Items are unique exactly when no transaction has two stored mints for one owner, so they are if
every transaction names different owners at its inputs. -/
theorem runCalls_items_unique_iff (P : Platform) (cfg : IndexerConfig) (calls : List Call) :
    let db := (runCalls P cfg .empty calls).db
    (ItemsUnique db ↔ OwnersUnique db) ∧
      ((∀ tx ∈ chainTxs (canonicalChain db), DistinctOwners tx) → ItemsUnique db) := by
  intro db
  have hmoves : Relation.ReflTransGen (BlockStep P cfg fun _ => True) Db.empty db :=
    runCalls_moves Indexer.empty calls fun _ _ _ _ => trivial
  obtain ⟨db', hbuilt, hcore⟩ := tracks_of_moves hmoves
  have htrans : db.core.transitions = db'.core.transitions := congrArg Db.transitions hcore
  change db.transitions = db'.transitions at htrans
  have hiff : ItemsUnique db ↔ OwnersUnique db := by
    unfold ItemsUnique OwnersUnique
    rw [htrans]
    constructor
    · intro hitems k k' r r' hr hr' hk howner
      obtain ⟨tx, htx, hmint, hmint'⟩ := hbuilt.same_tx hr hr' hk
      have hlen := (length_lt_of_mem_chainTxs htx).2
      exact hitems k k' r r' hr hr' ((hmint.item_eq_iff hmint' hlen).mpr howner)
    · intro howners k k' r r' hr hr' hitem
      obtain ⟨tx, -, hmint⟩ := hbuilt.mintOf hr
      obtain ⟨_, -, hmint'⟩ := hbuilt.mintOf hr'
      have hk : k.1 = k'.1 := by
        obtain ⟨_, -, hi⟩ := hmint.item
        obtain ⟨_, -, hi'⟩ := hmint'.item
        rw [hi, hi', OutPoint.mk.injEq] at hitem
        exact hitem.1
      obtain ⟨tx, htx, hmint, hmint'⟩ := hbuilt.same_tx hr hr' hk
      have hlen := (length_lt_of_mem_chainTxs htx).2
      exact howners k k' r r' hr hr' hk ((hmint.item_eq_iff hmint' hlen).mp hitem)
  refine ⟨hiff, ?_⟩
  intro hdist
  rw [hiff]
  intro k _ r _ hr hr' hk howner
  rw [htrans] at hr hr'
  obtain ⟨tx, htx, hmint, hmint'⟩ := hbuilt.same_tx hr hr' hk
  obtain ⟨j, input, hj, hinput, hseven, hkey⟩ := hmint.owner
  obtain ⟨j', input', hj', hinput', hseven', hkey'⟩ := hmint'.owner
  have hindex : j = j' := hdist tx htx j j' input input' hinput hinput' hseven hseven'
    (by rw [hkey, hkey', howner])
  exact Prod.ext (by rw [← hmint.txid, hmint'.txid]) (by rw [hj, hj', hindex])

/-- Ids read off the lock time and the header nonce, everything else fixed. -/
def lanesPlatform : Platform :=
  { onesPlatform with
    computeTxid := fun tx => .replicate tx.lockTime.toUInt8
    blockHash := fun header => .replicate header.nonce.toUInt8 }

def twoLanes : IssuanceTerms where
  itemId := .zeros
  targetPrefix := 1
  totalSupply := 2
  successorRule := .shardedLanes
  laneCount := 2
  salt := .zeros
  metadata := []

def twoLanesConfig : IndexerConfig := ⟨"verifier-v1", Table.empty.put (.replicate 1) twoLanes⟩

def soleSlot (lane : UInt8) : IssuerState := ⟨.replicate 1, lane, 0, 1, 1⟩

/-- The first block creates the issuer outputs of both lanes. -/
def lanesBlock : Block where
  header := ⟨1, .zeros, .zeros, 0, 0, 1⟩
  txdata := [⟨2, 1, [⟨OutPoint.null, [], 0, []⟩],
    [⟨10, canonicalIssuerSpk lanesPlatform (soleSlot 0)⟩,
      ⟨10, canonicalIssuerSpk lanesPlatform (soleSlot 1)⟩]⟩]
  fits := by simp [Transaction.footprint]

/-- The mint input of a lane, for the owner with key bytes `owner`. -/
def laneInput (lane : UInt8) (owner : UInt8) : TxIn :=
  ⟨⟨.replicate 1, lane.toUInt32⟩, [], 0, [replicate 8 0, replicate 32 1,
    replicate 31 1, replicate 32 owner, [], issuerScript (soleSlot lane), []]⟩

/-- The second block mints from the given lanes into one output of the owner. -/
def mintBlock (inputs : List TxIn) (hlen : inputs.length ≤ 2) : Block where
  header := ⟨1, .replicate 1, .zeros, 0, 0, 2⟩
  txdata := [⟨2, 2, inputs, [⟨1, itemOwnerScript ⟨.replicate 3⟩⟩]⟩]
  fits := by simp [Transaction.footprint]; omega

/-- One transaction mints the last slots of both lanes into the same output. -/
theorem items_credited_twice :
    let db := (runCalls lanesPlatform twoLanesConfig .empty
      [.applyBlock true 0 lanesBlock,
        .applyBlock true 1 (mintBlock [laneInput 0 3, laneInput 1 3] (by decide))]).db
    (db.transitions.get (.replicate 2, 0)).map (·.itemOutpoint) = some ⟨.replicate 2, 0⟩ ∧
      (db.transitions.get (.replicate 2, 1)).map (·.itemOutpoint) = some ⟨.replicate 2, 0⟩ ∧
      ¬ItemsUnique db := by
  intro db
  have hfirst : (db.transitions.get (.replicate 2, 0)).map (·.itemOutpoint) =
      some ⟨.replicate 2, 0⟩ := by decide +kernel
  have hsnd : (db.transitions.get (.replicate 2, 1)).map (·.itemOutpoint) =
      some ⟨.replicate 2, 0⟩ := by decide +kernel
  refine ⟨hfirst, hsnd, ?_⟩
  intro hunique
  obtain ⟨r, hr, hitem⟩ := Option.map_eq_some_iff.mp hfirst
  obtain ⟨r', hr', hitem'⟩ := Option.map_eq_some_iff.mp hsnd
  have hkeys := hunique _ _ r r' hr hr' (hitem.trans hitem'.symm)
  simp at hkeys

end Catomicals.Index
