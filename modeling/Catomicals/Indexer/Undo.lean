import Catomicals.Indexer.Scan

/-!
# Rolling back inverts applying

What writing a planned block does to each column family, and that the rollback puts every family
back. The entry of the heights family is deleted, not restored, so its height has to be free before.
-/
namespace Catomicals.Index

open Base Base.Outcome Issuance Transfer WriteBatch Table List

attribute [local simp] WriteBatch.blocks WriteBatch.heights WriteBatch.undo WriteBatch.metadata
  WriteBatch.transactions WriteBatch.utxos WriteBatch.transitions

variable {P : Platform} {cfg : IndexerConfig} {db : Db} {height : UInt32}

def txTransfers (P : Platform) (cfg : IndexerConfig) (blockHash : BlockHash) (height : UInt32)
    (n : ℕ) (txs : List Transaction) : List (Transfer OutPoint UtxoRecord) :=
  (txs.zipIdx n).map fun p => txTransfer cfg ⟨blockHash, height, P.computeTxid p.1, p.2⟩ p.1

variable {txids : List Txid}

section Pass

variable {blockHash : BlockHash} {scan scan' : BlockScan}

lemma createdKeys_txTransfer (cfg : IndexerConfig) (pos : TxPosition) (tx : Transaction) :
    (txTransfer cfg pos tx).createdKeys =
      (range tx.output.length).map fun i => ⟨pos.txid, UInt32.ofNat i⟩ := by
  rw [createdKeys, txTransfer, map_map,
    show range tx.output.length = tx.output.zipIdx.map Prod.snd by
      rw [zipIdx_map_snd, range_eq_range'], map_map]
  rfl

lemma createdKeys_txTransfer_nodup {pos : TxPosition} {tx : Transaction}
    (h : tx.output.length < 2 ^ 32) : (txTransfer cfg pos tx).createdKeys.Nodup := by
  rw [createdKeys_txTransfer]
  refine List.Nodup.map_on ?_ nodup_range
  intro i hi j hj heq
  have hi' : i < UInt32.size := lt_trans (mem_range.mp hi) h
  have hj' : j < UInt32.size := lt_trans (mem_range.mp hj) h
  have hnat := congrArg UInt32.toNat (OutPoint.mk.inj heq).2
  rwa [UInt32.toNat_ofNat_of_lt' hi', UInt32.toNat_ofNat_of_lt' hj'] at hnat

lemma txid_of_mem_createdKeys {pos : TxPosition} {tx : Transaction} {o : OutPoint}
    (h : o ∈ (txTransfer cfg pos tx).createdKeys) : o.txid = pos.txid := by
  rw [createdKeys_txTransfer] at h
  obtain ⟨i, -, rfl⟩ := mem_map.mp h
  rfl

/-- The invariant after the pass over some transactions, and the edits it added. -/
theorem scanTxs_spec {n : ℕ} {txs : List Transaction} (hinv : ScanInv db txids scan)
    (h : scanTxs P cfg db blockHash height n txs scan = .ok scan') :
    ScanInv db (txids ++ txs.map P.computeTxid) scan' ∧
      Extends scan scan' ((txTransfers P cfg blockHash height n txs).flatMap edits)
        (txs.map P.computeTxid) := by
  induction txs generalizing n txids scan with
  | nil =>
    obtain rfl : scan = scan' := by simpa [scanTxs] using h
    simpa [txTransfers] using And.intro hinv (Extends.refl scan)
  | cons tx _ ih =>
    simp only [scanTxs, bind_eq_ok] at h
    obtain ⟨mid, hmid, h⟩ := h
    have hwide : ScanInv db (txids ++ [P.computeTxid tx]) scan :=
      hinv.mono fun t ht => mem_append_left _ ht
    obtain ⟨hinv₁, hext₁, -⟩ := scanTx_spec hwide (by simp) hmid
    obtain ⟨hinv₂, hext₂⟩ := ih hinv₁ h
    refine ⟨by simpa using hinv₂, ?_⟩
    simpa [txTransfers] using hext₁.trans hext₂

/-- The pass continues a ledger history, transaction by transaction. -/
theorem scanTxs_history {n : ℕ} {txs : List Transaction} {xs : List (Transfer OutPoint UtxoRecord)}
    (hinv : ScanInv db txids scan) (hist : History (current db scan) xs)
    (hnew : ∀ o ∈ (created xs).map Prod.fst, o.txid ∉ txs.map P.computeTxid)
    (hnodup : (txs.map P.computeTxid).Nodup) (hlen : ∀ tx ∈ txs, tx.output.length < 2 ^ 32)
    (h : scanTxs P cfg db blockHash height n txs scan = .ok scan') :
    History (current db scan') (xs ++ txTransfers P cfg blockHash height n txs) := by
  induction txs generalizing n txids scan xs with
  | nil =>
    obtain rfl : scan = scan' := by simpa [scanTxs] using h
    simpa [txTransfers] using hist
  | cons tx rest ih =>
    simp only [scanTxs, bind_eq_ok] at h
    obtain ⟨mid, hmid, h⟩ := h
    have hwide : ScanInv db (txids ++ [P.computeTxid tx]) scan :=
      hinv.mono fun t ht => mem_append_left _ ht
    obtain ⟨hinv₁, hext₁, hadm⟩ := scanTx_spec hwide (by simp) hmid
    rw [map_cons, nodup_cons] at hnodup
    have hstep : History (current db mid)
        (xs ++ [txTransfer cfg ⟨blockHash, height, P.computeTxid tx, n⟩ tx]) := by
      rw [hext₁.current_eq db]
      refine .snoc hist hadm (createdKeys_txTransfer_nodup (hlen tx mem_cons_self)) ?_
      intro o ho hold
      apply hnew o hold
      rw [txid_of_mem_createdKeys ho]
      exact mem_cons_self
    have hnew' : ∀ o ∈ (created (xs ++
        [txTransfer cfg ⟨blockHash, height, P.computeTxid tx, n⟩ tx])).map Prod.fst,
        o.txid ∉ rest.map P.computeTxid := by
      intro o ho
      rw [created_append, created_singleton, map_append, mem_append] at ho
      rcases ho with ho | ho
      · exact fun hmem => hnew o ho (mem_cons_of_mem _ hmem)
      · rw [txid_of_mem_createdKeys ho]
        exact hnodup.1
    have hrest := ih hinv₁ hstep hnew' hnodup.2
      (fun tx' htx' => hlen tx' (mem_cons_of_mem _ htx')) h
    simpa [txTransfers] using hrest

end Pass

lemma checkUniqueTxids_eq_ok {seen : List Txid} :
    checkUniqueTxids seen txids = .ok () ↔ txids.Nodup ∧ ∀ t ∈ txids, t ∉ seen := by
  induction txids generalizing seen with
  | nil => simp [checkUniqueTxids]
  | cons t _ ih =>
    rw [checkUniqueTxids]
    by_cases ht : t ∈ seen
    · simp [ht]
    · rw [if_neg ht, ih]
      simp only [mem_cons, not_or, nodup_cons, forall_eq_or_imp]
      constructor
      · rintro ⟨hnodup, hnew⟩
        exact ⟨⟨fun hmem => (hnew t hmem).1 rfl, hnodup⟩, ht, fun t' ht' => (hnew t' ht').2⟩
      · rintro ⟨⟨hnot, hnodup⟩, -, hnew⟩
        exact ⟨hnodup, fun t' ht' => ⟨fun heq => hnot (heq ▸ ht'), hnew t' ht'⟩⟩

lemma checkNewTxids_eq_ok :
    checkNewTxids db txids = .ok () ↔ ∀ t ∈ txids, db.transactions.get t = none := by
  induction txids with
  | nil => simp [checkNewTxids]
  | cons _ _ ih => simp [checkNewTxids, ih]

structure BlockAccepted (P : Platform) (db : Db) (height : UInt32) (block : Block) : Prop where
  height_eq : height = (expectedNext db).1
  parent_eq : block.header.prevBlockhash = (expectedNext db).2
  new_block : db.blocks.get (P.blockHash block.header) = none
  nodup_txids : (block.txdata.map P.computeTxid).Nodup
  new_txids : ∀ t ∈ block.txdata.map P.computeTxid, db.transactions.get t = none

lemma checkBlock_eq_ok {block : Block} :
    checkBlock P db height block = .ok () ↔ BlockAccepted P db height block := by
  simp only [checkBlock, ok_iff, checkUniqueTxids_eq_ok, checkNewTxids_eq_ok]
  constructor
  · rintro ⟨hhgt, hparent, hblock, ⟨hnodup, -⟩, hnew⟩
    exact ⟨hhgt, hparent, hblock, hnodup, hnew⟩
  · rintro ⟨hhgt, hparent, hblock, hnodup, hnew⟩
    exact ⟨hhgt, hparent, hblock, ⟨hnodup, by simp⟩, hnew⟩

/-- A planned block: its checks and its pass succeeded, and its batch is the pass and the closing
records. -/
lemma planBlock_eq_ok {block : Block} {batch : WriteBatch} {stats : ApplyStats} :
    planBlock P cfg db height block = .ok (batch, stats) ↔
      BlockAccepted P db height block ∧ ∃ scan,
        scanTxs P cfg db (P.blockHash block.header) height 0 block.txdata {} = .ok scan ∧
          batch = scan.batch ++ closingOps P db height block scan ∧ stats = scan.stats := by
  simp only [planBlock, ok_iff, checkBlock_eq_ok, Prod.mk.injEq, eq_comm (b := batch),
    eq_comm (b := stats)]

def applied (P : Platform) (db : Db) (height : UInt32) (block : Block) (scan : BlockScan) : Db where
  blocks := db.blocks.put (P.blockHash block.header) (blockRecord P height block)
  heights := db.heights.put height (P.blockHash block.header)
  transactions := db.transactions.applyAll (transactions scan.batch)
  utxos := current db scan
  transitions := db.transitions.applyAll (transitions scan.batch)
  undo := db.undo.put (P.blockHash block.header) (undoRecord P db height block scan)
  metadata := db.metadata.put .tip ⟨P.blockHash block.header, height⟩

section Applied

variable {block : Block} {scan : BlockScan}

lemma write_eq_applied (hinv : ScanInv db txids scan) :
    db.write (scan.batch ++ closingOps P db height block scan) =
      applied P db height block scan := by
  have hsplit : db.write (scan.batch ++ closingOps P db height block scan) =
      (db.write scan.batch).write (closingOps P db height block scan) := by simp [Db.write]
  rw [hsplit]
  simp only [Db.write, hinv.blocks_nil, hinv.heights_nil, hinv.undo_nil, hinv.metadata_nil]
  rfl

@[simp] lemma tip_applied :
    (applied P db height block scan).tip = some ⟨P.blockHash block.header, height⟩ := by
  simp [Db.tip, applied]

lemma isSome_transactions_applied (hinv : ScanInv db txids scan) (t : Txid) :
    ((applied P db height block scan).transactions.get t).isSome ↔
      t ∈ scan.createdTxids ∨ (db.transactions.get t).isSome := by
  obtain ⟨rs, hrs, htxids⟩ := hinv.transactions_eq
  rw [applied, hrs, htxids]
  exact isSome_get_applyAll_put db.transactions rs _ id t

lemma coherent_applied (hdb : Coherent db) (hinv : ScanInv db scan.createdTxids scan) :
    Coherent (applied P db height block scan) where
  utxo_outpoint := hinv.current_outpoint
  utxo_txid := by
    intro o ho
    rw [isSome_transactions_applied hinv]
    by_cases hc : o ∈ scan.createdOutpoints
    · exact .inl (hinv.created_txid o hc)
    · rcases hinv.untouched o hc with hsame | ⟨hnone, -⟩
      · exact .inr (hdb.utxo_txid o (by rw [← hsame]; exact ho))
      · simp [applied, hnone] at ho
  transition_txid := by
    intro k hk
    rw [isSome_transactions_applied hinv]
    obtain ⟨ps, hps, hkeys⟩ := hinv.transitions_eq
    rw [applied, hps, isSome_get_applyAll_put db.transitions ps Prod.fst Prod.snd, ← hkeys] at hk
    exact hk.imp (hinv.transition_txid k) (hdb.transition_txid k)
  undo_block := by
    intro h hh
    simp only [applied, get_put] at hh ⊢
    split_ifs at hh ⊢
    · rfl
    · exact hdb.undo_block h hh

lemma utxos_undo (hdb : Coherent db) (hinv : ScanInv db txids scan)
    (hnew : ∀ t ∈ txids, db.transactions.get t = none) :
    (current db scan).applyAll (scan.createdOutpoints.map .delete ++
      scan.restoredUtxos.map fun r => .put r.outpoint r) = db.utxos := by
  refine applyAll_undo (fun o ho => ?_) (fun o v hv => ?_)
  · rw [effect_append, Option.or_eq_none_iff] at ho
    obtain ⟨hrest, hcrtd⟩ := ho
    have hc : o ∉ scan.createdOutpoints := by simpa using hcrtd
    rcases hinv.untouched o hc with hsame | ⟨-, r, hr, hkey⟩
    · exact hsame
    · have := effect_eq_none_iff.mp hrest _ (mem_map_of_mem hr)
      simp [hkey] at this
  · rw [effect_append] at hv
    rcases Option.or_eq_some_iff.mp hv with hr | ⟨-, hc⟩
    · obtain ⟨r, hmem, rfl, rfl⟩ := effect_map_put hr
      exact (hinv.restored r hmem).symm
    · rw [effect_map_delete] at hc
      split_ifs at hc with hmem
      rw [← Option.some.inj hc]
      -- A created output belongs to a new transaction, so the stored set had none there.
      have hfresh := hnew o.txid (hinv.created_txid o hmem)
      by_contra hne
      have hsome := hdb.utxo_txid o (Option.isSome_iff_ne_none.mpr (Ne.symm hne))
      rw [hfresh] at hsome
      simp at hsome

/-- Rolling back a block just applied gives back the store, but for the heights entry. -/
theorem write_rollback_applied (hdb : Coherent db) (hacc : BlockAccepted P db height block)
    (hinv : ScanInv db (block.txdata.map P.computeTxid) scan)
    (hcrtd : scan.createdTxids = block.txdata.map P.computeTxid) :
    (applied P db height block scan).write
        (rollbackBatch ⟨P.blockHash block.header, height⟩ (undoRecord P db height block scan)) =
      { db with heights := db.heights.delete height } := by
  have hundo : db.undo.get (P.blockHash block.header) = none := by
    by_contra hne
    have := hdb.undo_block _ (Option.isSome_iff_ne_none.mpr hne)
    rw [hacc.new_block] at this
    simp at this
  have htx : (db.transactions.applyAll (transactions scan.batch)).applyAll
      (scan.createdTxids.map .delete) = db.transactions := by
    obtain ⟨rs, hrs, htxids⟩ := hinv.transactions_eq
    refine applyAll_delete_fresh ?_ (by rw [hcrtd]; exact hacc.new_txids)
    rw [hrs, htxids]
    intro e he
    obtain ⟨r, hr, rfl⟩ := mem_map.mp he
    exact mem_map_of_mem hr
  have htr : (db.transitions.applyAll (transitions scan.batch)).applyAll
      (scan.createdTransitions.map .delete) = db.transitions := by
    obtain ⟨ps, hps, hkeys⟩ := hinv.transitions_eq
    refine applyAll_delete_fresh ?_ fun k hk => ?_
    · rw [hps, hkeys]
      intro e he
      obtain ⟨p, hp, rfl⟩ := mem_map.mp he
      exact mem_map_of_mem hp
    · have hfresh := hacc.new_txids k.1 (hinv.transition_txid k hk)
      by_contra hne
      have := hdb.transition_txid k (Option.isSome_iff_ne_none.mpr hne)
      rw [hfresh] at this
      simp at this
  -- the batch is read family by family
  cases htip : db.tip
  all_goals
    simp [Db.write, rollbackBatch, filterMap_map, htip, applied, undoRecord, delete_put,
      delete_of_get_eq_none hacc.new_block, delete_of_get_eq_none hundo,
      utxos_undo hdb hinv hacc.new_txids]
    refine ⟨htx, htr, ?_⟩
    ext k : 1
    cases k
    simpa [Db.tip] using htip.symm

end Applied

end Catomicals.Index
