import Catomicals.Base.Ledger
import Catomicals.Indexer.Apply

/-!
# What the pass over a block writes

The overlay of the pass is the net effect of the output edits in its batch. Every output that
differs from the stored set was created in this block or is listed among the outputs to restore.
-/
namespace Catomicals.Index

open Base Base.Outcome Issuance WriteBatch Table List

attribute [local simp] WriteBatch.blocks WriteBatch.heights WriteBatch.undo WriteBatch.metadata
  WriteBatch.transactions WriteBatch.utxos WriteBatch.transitions BlockScan.addTransition
  BlockScan.addTransaction BlockScan.spendOutput BlockScan.createOutput

variable {db : Db} {txids : List Txid} {scan : BlockScan} {r : UtxoRecord}

def spentOutpoints (inputs : List TxIn) : List OutPoint :=
  (inputs.map TxIn.previousOutput).filter fun o => !o.isNull

@[simp] lemma spentOutpoints_nil : spentOutpoints [] = [] := rfl

lemma spentOutpoints_cons_of_null {input : TxIn} {rest : List TxIn}
    (h : input.previousOutput.isNull = true) :
    spentOutpoints (input :: rest) = spentOutpoints rest := by
  simp [spentOutpoints, h]

lemma spentOutpoints_cons_of_not_null {input : TxIn} {rest : List TxIn}
    (h : input.previousOutput.isNull = false) :
    spentOutpoints (input :: rest) = input.previousOutput :: spentOutpoints rest := by
  simp [spentOutpoints, h]

/-- The transaction as a transfer: what it spends and the records it creates. -/
def txTransfer (cfg : IndexerConfig) (pos : TxPosition) (tx : Transaction) :
    Transfer OutPoint UtxoRecord where
  spends := spentOutpoints tx.input
  creates := tx.output.zipIdx.map fun o =>
    ((utxoRecord cfg pos o.1 o.2).outpoint, utxoRecord cfg pos o.1 o.2)

/-- The set of outputs if the batch of the pass were written now. -/
def current (db : Db) (scan : BlockScan) : Table OutPoint UtxoRecord :=
  db.utxos.applyAll (utxos scan.batch)

/-- Output records sit at their own references, outputs and transitions belong to indexed
transactions, and undo records to indexed blocks. -/
structure Coherent (db : Db) : Prop where
  utxo_outpoint : ∀ o r, db.utxos.get o = some r → r.outpoint = o
  utxo_txid : ∀ o, (db.utxos.get o).isSome → (db.transactions.get o.txid).isSome
  transition_txid : ∀ k, (db.transitions.get k).isSome → (db.transactions.get k.1).isSome
  undo_block : ∀ h, (db.undo.get h).isSome → (db.blocks.get h).isSome

/-- The invariant of the pass, where `txids` are the transactions met so far. -/
structure ScanInv (db : Db) (txids : List Txid) (scan : BlockScan) : Prop where
  blocks_nil : blocks scan.batch = []
  heights_nil : heights scan.batch = []
  undo_nil : undo scan.batch = []
  metadata_nil : metadata scan.batch = []
  transactions_eq : ∃ rs : List TransactionRecord,
    transactions scan.batch = rs.map (fun r => .put r.txid r) ∧
      scan.createdTxids = rs.map TransactionRecord.txid
  transitions_eq : ∃ ps : List ((Txid × UInt32) × IssuanceTransitionRecord),
    transitions scan.batch = ps.map (fun p => .put p.1 p.2) ∧
      scan.createdTransitions = ps.map Prod.fst
  overlay_eq : ∀ o, scan.overlay.get o = effect (utxos scan.batch) o
  created_iff : ∀ o, o ∈ scan.createdInBlock ↔ o ∈ scan.createdOutpoints
  created_txid : ∀ o ∈ scan.createdOutpoints, o.txid ∈ txids
  restored : ∀ r ∈ scan.restoredUtxos, db.utxos.get r.outpoint = some r
  untouched : ∀ o ∉ scan.createdOutpoints, (current db scan).get o = db.utxos.get o ∨
    (current db scan).get o = none ∧ ∃ r ∈ scan.restoredUtxos, r.outpoint = o
  current_outpoint : ∀ o r, (current db scan).get o = some r → r.outpoint = o
  transition_txid : ∀ k ∈ scan.createdTransitions, k.1 ∈ txids

namespace ScanInv

lemma init (hdb : Coherent db) : ScanInv db [] {} where
  blocks_nil := rfl
  heights_nil := rfl
  undo_nil := rfl
  metadata_nil := rfl
  transactions_eq := ⟨[], rfl, rfl⟩
  transitions_eq := ⟨[], rfl, rfl⟩
  overlay_eq := by simp
  created_iff := by simp
  created_txid := by simp
  restored := by simp
  untouched := by simp [current]
  current_outpoint := hdb.utxo_outpoint
  transition_txid := by simp

variable (h : ScanInv db txids scan)
include h

lemma mono {txids' : List Txid} (hsub : ∀ t ∈ txids, t ∈ txids') : ScanInv db txids' scan :=
  { h with
    created_txid := fun o ho => hsub _ (h.created_txid o ho)
    transition_txid := fun k hk => hsub _ (h.transition_txid k hk) }

lemma resolve_eq_ok {o : OutPoint} :
    resolveOverlayUtxo db scan.overlay o = .ok r ↔ (current db scan).get o = some r := by
  rw [current, get_applyAll, ← h.overlay_eq o, resolveOverlayUtxo]
  cases scan.overlay.get o with
  | none => simp
  | some v => cases v <;> simp

lemma addTransition {key : Txid × UInt32}
    {record : IssuanceTransitionRecord} {count : UInt32} (hkey : key.1 ∈ txids) :
    ScanInv db txids (scan.addTransition key record count) := by
  have hutxos : utxos (scan.addTransition key record count).batch = utxos scan.batch := by simp
  have hcur : current db (scan.addTransition key record count) = current db scan := by
    rw [current, hutxos, current]
  obtain ⟨ps, hps, hkeys⟩ := h.transitions_eq
  exact
    { blocks_nil := by simpa using h.blocks_nil
      heights_nil := by simpa using h.heights_nil
      undo_nil := by simpa using h.undo_nil
      metadata_nil := by simpa using h.metadata_nil
      transactions_eq := by simpa using h.transactions_eq
      transitions_eq := by
        refine ⟨ps ++ [(key, record)], ?_, by simp [hkeys]⟩
        simp only [transitions] at hps
        simp [hps]
      overlay_eq := by rw [hutxos]; exact h.overlay_eq
      created_iff := h.created_iff
      created_txid := h.created_txid
      restored := h.restored
      untouched := by rw [hcur]; exact h.untouched
      current_outpoint := by rw [hcur]; exact h.current_outpoint
      transition_txid := by
        intro k hk
        rcases mem_append.mp hk with hk | hk
        · exact h.transition_txid k hk
        · obtain rfl : k = key := by simpa using hk
          exact hkey }

lemma addTransaction (record : TransactionRecord) (count : UInt32) :
    ScanInv db txids (scan.addTransaction record count) := by
  have hutxos : utxos (scan.addTransaction record count).batch = utxos scan.batch := by simp
  have hcur : current db (scan.addTransaction record count) = current db scan := by
    rw [current, hutxos, current]
  obtain ⟨rs, hrs, htxids⟩ := h.transactions_eq
  exact
    { blocks_nil := by simpa using h.blocks_nil
      heights_nil := by simpa using h.heights_nil
      undo_nil := by simpa using h.undo_nil
      metadata_nil := by simpa using h.metadata_nil
      transactions_eq := by
        refine ⟨rs ++ [record], ?_, by simp [htxids]⟩
        simp only [transactions] at hrs
        simp [hrs]
      transitions_eq := by simpa using h.transitions_eq
      overlay_eq := by rw [hutxos]; exact h.overlay_eq
      created_iff := h.created_iff
      created_txid := h.created_txid
      restored := h.restored
      untouched := by rw [hcur]; exact h.untouched
      current_outpoint := by rw [hcur]; exact h.current_outpoint
      transition_txid := h.transition_txid }

end ScanInv

lemma utxos_spendOutput (scan : BlockScan) (o : OutPoint) (r : UtxoRecord) (count : UInt32) :
    utxos (scan.spendOutput o r count).batch = utxos scan.batch ++ [.delete o] := by
  simp

lemma utxos_createOutput (scan : BlockScan) (r : UtxoRecord) (count : UInt32) :
    utxos (scan.createOutput r count).batch = utxos scan.batch ++ [.put r.outpoint r] := by
  simp

lemma get_current_spendOutput (db : Db) (scan : BlockScan) (o o' : OutPoint) (r : UtxoRecord)
    (count : UInt32) : (current db (scan.spendOutput o r count)).get o' =
      if o' = o then none else (current db scan).get o' := by
  simp [current]

lemma get_current_createOutput (db : Db) (scan : BlockScan) (o' : OutPoint) (r : UtxoRecord)
    (count : UInt32) : (current db (scan.createOutput r count)).get o' =
      if o' = r.outpoint then some r else (current db scan).get o' := by
  simp [current]

namespace ScanInv

lemma spendOutput (h : ScanInv db txids scan) {o : OutPoint} (count : UInt32)
    (hcur : (current db scan).get o = some r) :
    ScanInv db txids (scan.spendOutput o r count) where
  blocks_nil := by simpa using h.blocks_nil
  heights_nil := by simpa using h.heights_nil
  undo_nil := by simpa using h.undo_nil
  metadata_nil := by simpa using h.metadata_nil
  transactions_eq := by simpa using h.transactions_eq
  transitions_eq := by simpa using h.transitions_eq
  overlay_eq := by
    intro o'
    rw [utxos_spendOutput, effect_append, ← h.overlay_eq o']
    by_cases ho : o' = o <;> simp [ho]
  created_iff := h.created_iff
  created_txid := h.created_txid
  restored := by
    intro r' hr'
    by_cases hc : o ∈ scan.createdInBlock
    · exact h.restored r' (by simpa [hc] using hr')
    · have hr'' : r' ∈ scan.restoredUtxos ∨ r' = r := by
        simpa [hc] using hr'
      rcases hr'' with hmem | rfl
      · exact h.restored r' hmem
      · rw [h.current_outpoint o r' hcur]
        rcases h.untouched o (fun ho => hc ((h.created_iff o).mpr ho)) with hsame | ⟨hnone, -⟩
        · rw [← hsame, hcur]
        · rw [hcur] at hnone
          simp at hnone
  untouched := by
    intro o' ho'
    rw [get_current_spendOutput]
    by_cases ho : o' = o
    · subst ho
      have hc : o' ∉ scan.createdInBlock := fun hc => ho' ((h.created_iff o').mp hc)
      exact .inr ⟨by simp, r, by simp [hc], h.current_outpoint o' r hcur⟩
    · rw [if_neg ho]
      rcases h.untouched o' ho' with hsame | ⟨hnone, r', hr', hkey⟩
      · exact .inl hsame
      · refine .inr ⟨hnone, r', ?_, hkey⟩
        by_cases hc : o ∈ scan.createdInBlock <;> simp [hc, hr']
  current_outpoint := by
    intro o' r' hget
    rw [get_current_spendOutput] at hget
    split_ifs at hget
    exact h.current_outpoint o' r' hget
  transition_txid := h.transition_txid

lemma createOutput (h : ScanInv db txids scan) (count : UInt32) (hr : r.outpoint.txid ∈ txids) :
    ScanInv db txids (scan.createOutput r count) where
  blocks_nil := by simpa using h.blocks_nil
  heights_nil := by simpa using h.heights_nil
  undo_nil := by simpa using h.undo_nil
  metadata_nil := by simpa using h.metadata_nil
  transactions_eq := by simpa using h.transactions_eq
  transitions_eq := by simpa using h.transitions_eq
  overlay_eq := by
    intro o'
    rw [utxos_createOutput, effect_append, ← h.overlay_eq o']
    by_cases ho : o' = r.outpoint <;> simp [ho]
  created_iff := by
    intro o
    simp [h.created_iff o, or_comm]
  created_txid := by
    intro o ho
    rcases mem_append.mp ho with ho | ho
    · exact h.created_txid o ho
    · obtain rfl : o = r.outpoint := by simpa using ho
      exact hr
  restored := h.restored
  untouched := by
    intro o ho
    have ho' : o ∉ scan.createdOutpoints ∧ o ≠ r.outpoint := by
      simpa using ho
    rw [get_current_createOutput, if_neg ho'.2]
    exact h.untouched o ho'.1
  current_outpoint := by
    intro o r' hget
    rw [get_current_createOutput] at hget
    split_ifs at hget with ho
    · rw [ho, ← Option.some.inj hget]
    · exact h.current_outpoint o r' hget
  transition_txid := h.transition_txid

end ScanInv

/-- `scan'` extends `scan` by output edits and transaction ids. -/
structure Extends (scan scan' : BlockScan) (edits : List (Edit OutPoint UtxoRecord))
    (txids : List Txid) : Prop where
  utxos_eq : utxos scan'.batch = utxos scan.batch ++ edits
  createdTxids_eq : scan'.createdTxids = scan.createdTxids ++ txids

namespace Extends

variable {scan scan' scan'' : BlockScan} {es es' : List (Edit OutPoint UtxoRecord)}
  {ts ts' : List Txid}

lemma refl (scan : BlockScan) : Extends scan scan [] [] := ⟨by simp, by simp⟩

lemma trans (h : Extends scan scan' es ts) (h' : Extends scan' scan'' es' ts') :
    Extends scan scan'' (es ++ es') (ts ++ ts') :=
  ⟨by rw [h'.utxos_eq, h.utxos_eq, append_assoc],
    by rw [h'.createdTxids_eq, h.createdTxids_eq, append_assoc]⟩

lemma current_eq (h : Extends scan scan' es ts) (db : Db) :
    current db scan' = (current db scan).applyAll es := by
  rw [current, h.utxos_eq, applyAll_append, current]

end Extends

section Steps

variable {P : Platform} {cfg : IndexerConfig} {pos : TxPosition}
  {scan scan' : BlockScan} {tx : Transaction} {records : List (Option UtxoRecord)}

lemma indexIssuerSpend_spec {d : DiscoveredIssuerSpend} (hinv : ScanInv db txids scan)
    (hpos : pos.txid ∈ txids) (h : indexIssuerSpend P cfg pos tx records scan d = .ok scan') :
    ScanInv db txids scan' ∧ Extends scan scan' [] [] := by
  unfold indexIssuerSpend at h
  split at h
  · split at h
    · simp only [recordTransition, ok_iff] at h
      obtain ⟨_, -, rfl⟩ := h
      exact ⟨hinv.addTransition hpos, by simp, by simp⟩
    · obtain rfl : scan = scan' := by simpa using h
      exact ⟨hinv, .refl scan⟩
    · simp at h
  · obtain rfl : scan = scan' := by simpa using h
    exact ⟨hinv, .refl scan⟩

lemma indexIssuerSpends_spec {ds : List DiscoveredIssuerSpend} (hinv : ScanInv db txids scan)
    (hpos : pos.txid ∈ txids)
    (h : ds.foldlM (indexIssuerSpend P cfg pos tx records) scan = .ok scan') :
    ScanInv db txids scan' ∧ Extends scan scan' [] [] := by
  induction ds generalizing scan with
  | nil =>
    obtain rfl : scan = scan' := by simpa using h
    exact ⟨hinv, .refl scan⟩
  | cons _ _ ih =>
    rw [foldlM_cons, bind_eq_ok] at h
    obtain ⟨_, hmid, h⟩ := h
    obtain ⟨hinv', hext⟩ := indexIssuerSpend_spec hinv hpos hmid
    obtain ⟨hinv'', hext'⟩ := ih hinv' h
    exact ⟨hinv'', hext.trans hext'⟩

lemma checkInputs_eq_ok {seen : List OutPoint} {inputs : List TxIn} :
    checkInputs seen inputs = .ok () ↔
      (spentOutpoints inputs).Nodup ∧ ∀ o ∈ spentOutpoints inputs, o ∉ seen := by
  induction inputs generalizing seen with
  | nil => simp [checkInputs]
  | cons input _ ih =>
    rw [checkInputs]
    cases hnull : input.previousOutput.isNull with
    | true => rw [if_pos rfl, ih, spentOutpoints_cons_of_null hnull]
    | false =>
      rw [if_neg (by simp), spentOutpoints_cons_of_not_null hnull]
      by_cases hseen : input.previousOutput ∈ seen
      · simp [hseen]
      · rw [if_neg hseen, ih]
        simp only [mem_cons, not_or, nodup_cons, forall_eq_or_imp]
        constructor
        · rintro ⟨hnodup, hnew⟩
          exact ⟨⟨fun hmem => (hnew _ hmem).1 rfl, hnodup⟩, hseen, fun o ho => (hnew o ho).2⟩
        · rintro ⟨⟨hnot, hnodup⟩, -, hnew⟩
          refine ⟨hnodup, fun o ho => ⟨fun heq => hnot (heq ▸ ho), hnew o ho⟩⟩

lemma resolveInputs_spec {overlay : Table OutPoint (Option UtxoRecord)} {inputs : List TxIn}
    (h : resolveInputs db overlay inputs = .ok records) {i : ℕ} {input : TxIn}
    (hi : inputs[i]? = some input) :
    (input.previousOutput.isNull = true → records[i]? = some none) ∧
      (input.previousOutput.isNull = false → ∃ r, records[i]? = some (some r) ∧
        resolveOverlayUtxo db overlay input.previousOutput = .ok r) := by
  induction inputs generalizing records i with
  | nil => simp at hi
  | cons first _ ih =>
    rw [resolveInputs] at h
    split_ifs at h with hfirst
    · simp only [ok_iff] at h
      obtain ⟨later, hlater, rfl⟩ := h
      cases i with
      | zero =>
        obtain rfl : first = input := by simpa using hi
        simp [hfirst]
      | succ => simpa using ih hlater (by simpa using hi)
    · simp only [ok_iff] at h
      obtain ⟨r, hr, _, hlater, rfl⟩ := h
      cases i with
      | zero =>
        obtain rfl : first = input := by simpa using hi
        exact ⟨fun hnull => absurd hnull hfirst, fun _ => ⟨r, by simp, hr⟩⟩
      | succ => simpa using ih hlater (by simpa using hi)

variable (hinv : ScanInv db txids scan)
include hinv

lemma spendInputs_spec {inputs : List (TxIn × ℕ)}
    (hnodup : (spentOutpoints (inputs.map Prod.fst)).Nodup)
    (hres : ∀ p ∈ inputs, p.1.previousOutput.isNull = false →
      ∃ r, records[p.2]? = some (some r) ∧ (current db scan).get p.1.previousOutput = some r)
    (h : spendInputs P records inputs scan = .ok scan') :
    ScanInv db txids scan' ∧
      Extends scan scan' ((spentOutpoints (inputs.map Prod.fst)).map .delete) [] := by
  induction inputs generalizing scan with
  | nil =>
    obtain rfl : scan = scan' := by simpa [spendInputs] using h
    exact ⟨hinv, .refl scan⟩
  | cons p rest ih =>
    obtain ⟨input, i⟩ := p
    rw [spendInputs] at h
    cases hnull : input.previousOutput.isNull with
    | true =>
      simp only [hnull, if_true] at h
      rw [map_cons, spentOutpoints_cons_of_null hnull] at hnodup ⊢
      exact ih hinv hnodup (fun p hp => hres p (mem_cons_of_mem _ hp)) h
    | false =>
      simp only [hnull, Bool.false_eq_true, if_false, ok_iff] at h
      obtain ⟨_, hslot, r, rfl, count, -, h⟩ := h
      obtain ⟨r', hr', hcur⟩ := hres (input, i) mem_cons_self hnull
      obtain rfl : r = r' := by simpa [hslot] using hr'
      rw [map_cons, spentOutpoints_cons_of_not_null hnull] at hnodup ⊢
      obtain ⟨hnot, hnodup'⟩ := nodup_cons.mp hnodup
      -- The remaining references differ from the one just spent, so they stay resolved.
      have hres' : ∀ p ∈ rest, p.1.previousOutput.isNull = false →
          ∃ r', records[p.2]? = some (some r') ∧ (current db
            (scan.spendOutput input.previousOutput r count)).get p.1.previousOutput = some r' := by
        intro p hp hp0
        obtain ⟨r', hr', hcur'⟩ := hres p (mem_cons_of_mem _ hp) hp0
        have hmem : p.1.previousOutput ∈ spentOutpoints (rest.map Prod.fst) :=
          mem_filter.mpr ⟨mem_map_of_mem (mem_map_of_mem hp), by simp [hp0]⟩
        have hne : p.1.previousOutput ≠ input.previousOutput := fun heq => hnot (heq ▸ hmem)
        exact ⟨r', hr', by rw [get_current_spendOutput, if_neg hne, hcur']⟩
      obtain ⟨hinv', hext⟩ := ih (hinv.spendOutput count hcur) hnodup' hres' h
      have hfirst : Extends scan (scan.spendOutput input.previousOutput r count)
          [.delete input.previousOutput] [] :=
        ⟨utxos_spendOutput _ _ _ _, by simp⟩
      exact ⟨hinv', by simpa using hfirst.trans hext⟩

lemma createOutputs_spec {outputs : List (TxOut × ℕ)}
    (hpos : pos.txid ∈ txids) (h : createOutputs P cfg pos outputs scan = .ok scan') :
    ScanInv db txids scan' ∧ Extends scan scan' (outputs.map fun o =>
      .put (utxoRecord cfg pos o.1 o.2).outpoint (utxoRecord cfg pos o.1 o.2)) [] := by
  induction outputs generalizing scan with
  | nil =>
    obtain rfl : scan = scan' := by simpa [createOutputs] using h
    exact ⟨hinv, .refl scan⟩
  | cons o _ ih =>
    obtain ⟨output, i⟩ := o
    simp only [createOutputs, bind_eq_ok] at h
    obtain ⟨count, -, h⟩ := h
    obtain ⟨hinv', hext⟩ := ih (hinv.createOutput count hpos) h
    have hfirst : Extends scan (scan.createOutput (utxoRecord cfg pos output i) count)
        [.put (utxoRecord cfg pos output i).outpoint (utxoRecord cfg pos output i)] [] :=
      ⟨utxos_createOutput _ _ _, by simp⟩
    exact ⟨hinv', by simpa using hfirst.trans hext⟩

/-- A transaction that passes the loop body is an admissible transfer. -/
theorem scanTx_spec (hpos : pos.txid ∈ txids) (h : scanTx P cfg db pos tx scan = .ok scan') :
    ScanInv db txids scan' ∧ Extends scan scan' (txTransfer cfg pos tx).edits [pos.txid] ∧
      (txTransfer cfg pos tx).Admissible (current db scan) := by
  simp only [scanTx, bind_eq_ok, ofPanic_eq_ok] at h
  obtain ⟨_, hcheck, records, hrecs, _, -, scan₁, h₁, scan₂, h₂, _, h₃, h₄⟩ := h
  obtain ⟨hnodup, -⟩ := checkInputs_eq_ok.mp hcheck
  have hfst : tx.input.zipIdx.map Prod.fst = tx.input := zipIdx_map_fst 0 tx.input
  have hres : ∀ p ∈ tx.input.zipIdx, p.1.previousOutput.isNull = false →
      ∃ r, records[p.2]? = some (some r) ∧ (current db scan).get p.1.previousOutput = some r := by
    intro p hp hnull
    obtain ⟨r, hr, hres⟩ := (resolveInputs_spec hrecs (mem_zipIdx_iff_getElem?.mp hp)).2 hnull
    exact ⟨r, hr, hinv.resolve_eq_ok.mp hres⟩
  obtain ⟨hinv₁, hext₁⟩ := indexIssuerSpends_spec hinv hpos h₁
  have hcur₁ : current db scan₁ = current db scan := by simpa using hext₁.current_eq db
  obtain ⟨hinv₂, hext₂⟩ := spendInputs_spec hinv₁ (by rwa [hfst]) (by rwa [hcur₁]) h₂
  simp only [recordTransaction, bind_eq_ok, pure_eq_ok] at h₃
  obtain ⟨count, -, rfl⟩ := h₃
  have hinv₃ := hinv₂.addTransaction (transactionRecord cfg pos) count
  have hext₃ : Extends scan₂ (scan₂.addTransaction (transactionRecord cfg pos) count) []
      [pos.txid] := ⟨by simp, rfl⟩
  obtain ⟨hinv₄, hext₄⟩ := createOutputs_spec hinv₃ hpos h₄
  refine ⟨hinv₄, ?_, hnodup, ?_⟩
  · have hall := ((hext₁.trans hext₂).trans hext₃).trans hext₄
    simpa [Transfer.edits, txTransfer, Function.comp_def] using hall
  · intro o ho
    obtain ⟨hmem, hnull⟩ := mem_filter.mp ho
    obtain ⟨input, hinput, rfl⟩ := mem_map.mp hmem
    obtain ⟨i, hi⟩ := getElem?_of_mem hinput
    obtain ⟨_, -, hcur⟩ := hres (input, i) (mem_zipIdx_iff_getElem?.mpr hi) (by simpa using hnull)
    simp [hcur]

end Steps

end Catomicals.Index
