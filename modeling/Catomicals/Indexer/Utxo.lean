import Catomicals.Indexer.Chain
import Mathlib.Data.List.Chain

/-!
# The stored set of unspent outputs

The transactions of a canonical chain form a ledger history, so the stored set holds the outputs the
chain created and did not spend. The heights take no part in this.
-/
namespace Catomicals.Index

open Base Base.Outcome Issuance Transfer List

def chainTxs (chain : List Block) : List Transaction := chain.flatMap Block.txdata

def chainSpends (chain : List Block) : List OutPoint :=
  (chainTxs chain).flatMap fun tx => spentOutpoints tx.input

variable (P : Platform)

def txOutpoints (tx : Transaction) : List OutPoint :=
  (range tx.output.length).map fun j => ⟨P.computeTxid tx, UInt32.ofNat j⟩

/-- Output `j` of transaction `i` of block `n`, referred to by `o`, has the record `r`. -/
def CreatedOutput (cfg : IndexerConfig) (chain : List Block) (o : OutPoint) (r : UtxoRecord) :
    Prop :=
  ∃ n i j block tx output, chain[n]? = some block ∧ block.txdata[i]? = some tx ∧
    tx.output[j]? = some output ∧ o = ⟨P.computeTxid tx, UInt32.ofNat j⟩ ∧
      r = { outpoint := o, valueSat := output.value, scriptPubkey := output.scriptPubkey,
            provenance := provenance (P.blockHash block.header) (heightOf n) (P.computeTxid tx)
              (UInt32.ofNat i) none (some (UInt32.ofNat j)) cfg.verifierVersion .discoveryOnly }

/-- The blocks of the chain are linked by their parents and end at the tip. -/
structure EndsAtTip (db : Db) (chain : List Block) : Prop where
  linked : chain.IsChain fun a b => b.header.prevBlockhash = P.blockHash a.header
  tip_eq : db.tip.map Tip.hash = chain.getLast?.map fun b => P.blockHash b.header

def chainTransfers (cfg : IndexerConfig) (chain : List Block) :
    List (Transfer OutPoint UtxoRecord) :=
  chain.zipIdx.flatMap fun p =>
    txTransfers P cfg (P.blockHash p.1.header) (heightOf p.2) 0 p.1.txdata

variable {P : Platform} {cfg : IndexerConfig} {db : Db} {chain : List Block}

lemma txTransfers_map (blockHash : BlockHash) (height : UInt32) (n : ℕ) (txs : List Transaction) :
    (txTransfers P cfg blockHash height n txs).map (fun x => (x.spends, x.createdKeys)) =
      txs.map fun tx => (spentOutpoints tx.input, txOutpoints P tx) := by
  have hpair : ∀ p : Transaction × ℕ,
      ((txTransfer cfg ⟨blockHash, height, P.computeTxid p.1, p.2⟩ p.1).spends,
        (txTransfer cfg ⟨blockHash, height, P.computeTxid p.1, p.2⟩ p.1).createdKeys) =
      (spentOutpoints p.1.input, txOutpoints P p.1) := fun p => by
    rw [createdKeys_txTransfer]
    rfl
  rw [txTransfers, map_map]
  conv_rhs => rw [← zipIdx_map_fst n txs, map_map]
  exact map_congr_left fun p _ => hpair p

lemma chainTransfers_map (P : Platform) (cfg : IndexerConfig) (chain : List Block) :
    (chainTransfers P cfg chain).map (fun x => (x.spends, x.createdKeys)) =
      (chainTxs chain).map fun tx => (spentOutpoints tx.input, txOutpoints P tx) := by
  rw [chainTransfers, chainTxs, map_flatMap, map_flatMap]
  conv_rhs => rw [← zipIdx_map_fst 0 chain, flatMap_map]
  simp only [txTransfers_map]

lemma spent_chainTransfers (P : Platform) (cfg : IndexerConfig) (chain : List Block) :
    spent (chainTransfers P cfg chain) = chainSpends chain := by
  have h : ((chainTransfers P cfg chain).map fun x => (x.spends, x.createdKeys)).flatMap Prod.fst =
      chainSpends chain := by
    rw [chainTransfers_map, flatMap_map, chainSpends]
  rwa [flatMap_map] at h

lemma mem_creates_txTransfer {pos : TxPosition} {tx : Transaction} {o : OutPoint}
    {r : UtxoRecord} : (o, r) ∈ (txTransfer cfg pos tx).creates ↔
      ∃ j output, tx.output[j]? = some output ∧ o = ⟨pos.txid, UInt32.ofNat j⟩ ∧
        r = utxoRecord cfg pos output j := by
  rw [txTransfer, mem_map]
  constructor
  · rintro ⟨⟨output, j⟩, hj, heq⟩
    obtain ⟨rfl, rfl⟩ := Prod.mk.inj heq
    exact ⟨j, output, mem_zipIdx_iff_getElem?.mp hj, rfl, rfl⟩
  · rintro ⟨j, output, hj, rfl, rfl⟩
    exact ⟨(output, j), mem_zipIdx_iff_getElem?.mpr hj, rfl⟩

lemma mem_created_chainTransfers (o : OutPoint) (r : UtxoRecord) :
    (o, r) ∈ created (chainTransfers P cfg chain) ↔ CreatedOutput P cfg chain o r := by
  simp only [created, chainTransfers, txTransfers, mem_flatMap, mem_map,
    Prod.exists, mem_zipIdx_iff_getElem?, CreatedOutput]
  constructor
  · rintro ⟨_, ⟨block, n, hn, tx, i, hi, rfl⟩, hcreate⟩
    obtain ⟨j, output, hj, rfl, rfl⟩ := mem_creates_txTransfer.mp hcreate
    exact ⟨n, i, j, block, tx, output, hn, hi, hj, rfl, rfl⟩
  · rintro ⟨n, i, j, block, tx, output, hn, hi, hj, rfl, rfl⟩
    exact ⟨_, ⟨block, n, hn, tx, i, hi, rfl⟩, mem_creates_txTransfer.mpr ⟨j, output, hj, rfl, rfl⟩⟩

section

variable (h : Built P cfg db chain)
include h

lemma Built.history :
    History db.utxos (chainTransfers P cfg chain) ∧
      ∀ o ∈ (created (chainTransfers P cfg chain)).map Prod.fst,
        (db.transactions.get o.txid).isSome := by
  induction h with
  | nil => exact ⟨.nil, by simp [chainTransfers]⟩
  | @snoc _ chain height block _ prev acc pass ih =>
    obtain ⟨hist, hindexed⟩ := ih
    obtain ⟨hinv, hcrtd⟩ := pass_spec prev.coherent pass
    have hnew : ∀ o ∈ (created (chainTransfers P cfg chain)).map Prod.fst,
        o.txid ∉ block.txdata.map P.computeTxid := by
      intro o ho hmem
      have hsome := hindexed o ho
      rw [acc.new_txids _ hmem] at hsome
      simp at hsome
    have hpass := scanTxs_history (ScanInv.init prev.coherent) hist hnew acc.nodup_txids
      (fun tx htx => Block.output_length_lt htx) pass
    have hconcat : chainTransfers P cfg (chain ++ [block]) = chainTransfers P cfg chain ++
        txTransfers P cfg (P.blockHash block.header) height 0 block.txdata := by
      simp [chainTransfers, zipIdx_append, prev.height_eq acc]
    rw [hconcat]
    refine ⟨hpass, fun o ho => ?_⟩
    rw [isSome_transactions_applied hinv, hcrtd]
    rw [created_append, map_append, mem_append] at ho
    rcases ho with ho | ho
    · exact .inr (hindexed o ho)
    · left
      simp only [created, map_flatMap, mem_flatMap, txTransfers, mem_map, Prod.exists] at ho
      obtain ⟨_, ⟨tx, i, hmem, rfl⟩, ho⟩ := ho
      have hkey := txid_of_mem_createdKeys (mem_map.mpr (by simpa using ho))
      rw [hkey]
      exact mem_map_of_mem (fst_mem_of_mem_zipIdx hmem)

lemma Built.endsAtTip : EndsAtTip P db chain := by
  induction h with
  | nil => exact ⟨.nil, rfl⟩
  | @snoc _ _ _ block _ _ acc _ ih =>
    refine ⟨?_, by simp⟩
    refine ih.linked.append (.singleton _) fun a ha b hb => ?_
    obtain rfl : block = b := by simpa using hb
    have htip := ih.tip_eq
    rw [Option.mem_def.mp ha] at htip
    obtain ⟨tip, htip', hhash⟩ := Option.map_eq_some_iff.mp htip
    rw [acc.parent_eq, expectedNext, htip']
    exact hhash

lemma Built.spends_earlier {pre post : List Transaction}
    {tx : Transaction} (hsplit : chainTxs chain = pre ++ tx :: post) {o : OutPoint}
    (ho : o ∈ spentOutpoints tx.input) : ∃ tx' ∈ pre, o ∈ txOutpoints P tx' := by
  -- Split the transfers of the chain at the place where its transactions are split.
  have hmap := chainTransfers_map P cfg chain
  rw [hsplit, map_append, map_cons, map_eq_append_iff] at hmap
  obtain ⟨xs, ys, hxy, hxs, hys⟩ := hmap
  obtain ⟨x, zs, rfl, hx, -⟩ := map_eq_cons_iff.mp hys
  have hspend : o ∈ x.spends := by
    rw [(Prod.mk.inj hx).1]
    exact ho
  have hkey := h.history.1.spent_after_created hxy hspend
  have hkeys : (created xs).map Prod.fst = pre.flatMap (txOutpoints P) := by
    have hcrtd := congrArg (fun l => l.flatMap Prod.snd) hxs
    simp only [flatMap_map] at hcrtd
    rw [← hcrtd, created, map_flatMap]
    rfl
  rw [hkeys] at hkey
  exact mem_flatMap.mp hkey

end

/-- After every run the stored set is what the canonical chain created and did not spend, and that
chain spends nothing twice and nothing before it exists. -/
theorem runCalls_utxos_correct (P : Platform) (cfg : IndexerConfig) (calls : List Call) :
    let db := (runCalls P cfg .empty calls).db
    let chain := canonicalChain db
    EndsAtTip P db chain ∧
      (∀ o r, db.utxos.get o = some r ↔ CreatedOutput P cfg chain o r ∧ o ∉ chainSpends chain) ∧
      (chainSpends chain).Nodup ∧
      ∀ pre tx post, chainTxs chain = pre ++ tx :: post →
        ∀ o ∈ spentOutpoints tx.input, ∃ tx' ∈ pre, o ∈ txOutpoints P tx' := by
  intro db _
  have hmoves : Relation.ReflTransGen (BlockStep P cfg fun _ => True) Db.empty db :=
    runCalls_moves Indexer.empty calls fun _ _ _ _ => trivial
  obtain ⟨db', hbuilt, hcore⟩ := tracks_of_moves hmoves
  have hutxos : db.core.utxos = db'.core.utxos := congrArg Db.utxos hcore
  have htip : db.core.tip = db'.core.tip := congrArg Db.tip hcore
  change db.utxos = db'.utxos at hutxos
  change db.tip = db'.tip at htip
  have hhist := hbuilt.history.1
  refine ⟨⟨hbuilt.endsAtTip.linked, by rw [htip]; exact hbuilt.endsAtTip.tip_eq⟩, ?_, ?_, ?_⟩
  · intro o r
    rw [hutxos, hhist.get_eq_some_iff, mem_created_chainTransfers, spent_chainTransfers]
  · rw [← spent_chainTransfers P cfg]
    exact hhist.spent_nodup
  · intro _ _ _ hsplit o ho
    exact hbuilt.spends_earlier hsplit ho

end Catomicals.Index
