import Catomicals.Indexer.PathIndependence
import Catomicals.Issuance.Panics

/-!
# Which blocks make the indexer panic

The pass over a block panics exactly when it arrives at a hostile transaction. Its counters never
overflow, because a block has fewer than `2 ^ 32` inputs and outputs.
-/
namespace Catomicals.Index

open Base Base.Outcome Issuance Transaction List

variable (P : Platform) (cfg : IndexerConfig) (utxos : Table OutPoint UtxoRecord)

/-- The transaction holds a mint of known terms from an output of the set whose verification
overflows. -/
def OverflowingSpend (tx : Transaction) (input : TxIn) : Prop :=
  input.previousOutput.isNull = false ∧ ∃ script state terms previous,
    revealedScript input = some script ∧ parseIssuerScript script = .ok (some state) ∧
      cfg.issuanceTerms.get state.termsHash = some terms ∧
        utxos.get input.previousOutput = some previous ∧
          OverflowingMint P tx input.previousOutput ⟨previous.valueSat, previous.scriptPubkey⟩ terms

/-- The transaction makes the pass panic once its inputs are resolved. -/
def HostileTx (tx : Transaction) : Prop :=
  ∃ input ∈ tx.input, HostileInput input ∨ OverflowingSpend P cfg utxos tx input

/-- Some transaction is hostile, and those up to it spend only distinct outputs that exist. -/
def HostileTxs (blockHash : BlockHash) (height : UInt32) (n : ℕ) (txs : List Transaction) : Prop :=
  ∃ pre tx post, txs = pre ++ tx :: post ∧
    Transfer.AdmissibleAll utxos (txTransfers P cfg blockHash height n (pre ++ [tx])) ∧
      HostileTx P cfg (utxos.applyAll ((txTransfers P cfg blockHash height n pre).flatMap
        Transfer.edits)) tx

def HostileBlock (db : Db) (height : UInt32) (block : Block) : Prop :=
  HostileTxs P cfg db.utxos (P.blockHash block.header) height 0 block.txdata

variable {P cfg} {db : Db} {scan : BlockScan}

structure Room (scan : BlockScan) (m : ℕ) : Prop where
  transitions : scan.stats.issuanceTransitions.toNat + m < 2 ^ 32
  spent : scan.stats.spentOutputs.toNat + m < 2 ^ 32
  transactions : scan.stats.transactions.toNat + m < 2 ^ 32
  created : scan.stats.createdOutputs.toNat + m < 2 ^ 32

structure Counted (scan scan' : BlockScan) (transitions spent transactions created : ℕ) :
    Prop where
  transitions_le : scan'.stats.issuanceTransitions.toNat ≤
    scan.stats.issuanceTransitions.toNat + transitions
  spent_le : scan'.stats.spentOutputs.toNat ≤ scan.stats.spentOutputs.toNat + spent
  transactions_le : scan'.stats.transactions.toNat ≤
    scan.stats.transactions.toNat + transactions
  created_le : scan'.stats.createdOutputs.toNat ≤ scan.stats.createdOutputs.toNat + created

lemma Counted.refl (scan : BlockScan) : Counted scan scan 0 0 0 0 := by
  constructor <;> omega

lemma Counted.trans {scan' scan'' : BlockScan} {t s x c t' s' x' c' : ℕ}
    (h : Counted scan scan' t s x c) (h' : Counted scan' scan'' t' s' x' c') :
    Counted scan scan'' (t + t') (s + s') (x + x') (c + c') := by
  obtain ⟨_, _, _, _⟩ := h
  obtain ⟨_, _, _, _⟩ := h'
  constructor <;> omega

lemma Counted.mono {scan' : BlockScan} {t s x c t' s' x' c' : ℕ}
    (h : Counted scan scan' t s x c) (ht : t ≤ t') (hs : s ≤ s') (hx : x ≤ x') (hc : c ≤ c') :
    Counted scan scan' t' s' x' c' := by
  obtain ⟨_, _, _, _⟩ := h
  constructor <;> omega

lemma Room.of_counted {scan' : BlockScan} {m m' t s x c : ℕ} (h : Room scan m)
    (hc : Counted scan scan' t s x c) (ht : t + m' ≤ m) (hs : s + m' ≤ m) (hx : x + m' ≤ m)
    (hcr : c + m' ≤ m) : Room scan' m' := by
  obtain ⟨_, _, _, _⟩ := h
  obtain ⟨_, _, _, _⟩ := hc
  constructor <;> omega

section Steps

variable {txids : List Txid}

section Total

variable (P cfg) (pos : TxPosition) (tx : Transaction) (records : List (Option UtxoRecord))

/-- The mint of a discovered spend makes verification panic. -/
def MintPanics (d : DiscoveredIssuerSpend) : Prop :=
  ∃ terms previous, cfg.issuanceTerms.get d.state.termsHash = some terms ∧
    records[d.inputIndex]?.join = some previous ∧
      Panics (verifyMint P tx d.outpoint ⟨previous.valueSat, previous.scriptPubkey⟩ terms)

lemma indexIssuerSpend_total (d : DiscoveredIssuerSpend)
    (hroom : scan.stats.issuanceTransitions.toNat + 1 < 2 ^ 32) :
    (MintPanics P cfg tx records d → Panics (indexIssuerSpend P cfg pos tx records scan d)) ∧
      (¬MintPanics P cfg tx records d →
        ∃ scan', indexIssuerSpend P cfg pos tx records scan d = .ok scan' ∧
          Counted scan scan' 1 0 0 0) := by
  have hskip : Counted scan scan 1 0 0 0 := (Counted.refl scan).mono (by omega) le_rfl le_rfl le_rfl
  unfold indexIssuerSpend MintPanics
  cases hterms : cfg.issuanceTerms.get d.state.termsHash with
  | none => exact ⟨by simp, fun _ => ⟨scan, rfl, hskip⟩⟩
  | some terms =>
    cases hprev : records[d.inputIndex]?.join with
    | none => exact ⟨by simp, fun _ => ⟨scan, rfl, hskip⟩⟩
    | some previous =>
      simp only [Option.some.injEq, exists_and_left, exists_eq_left']
      cases verifyMint P tx d.outpoint ⟨previous.valueSat, previous.scriptPubkey⟩ terms with
      | ok =>
        have hsum : scan.stats.issuanceTransitions.toNat + (1 : UInt32).toNat < 2 ^ 32 := hroom
        refine ⟨by simp, fun _ => ⟨_, by simp only [recordTransition, addU32_of_lt hsum]; rfl, ?_⟩⟩
        have hcount := toNat_add_of_lt hsum
        exact ⟨by simpa [BlockScan.addTransition] using hcount.le, le_rfl, le_rfl, le_rfl⟩
      | error e =>
        cases e with
        | error => exact ⟨by simp, fun _ => ⟨scan, rfl, hskip⟩⟩
        | panic => simp

lemma indexIssuerSpends_total (ds : List DiscoveredIssuerSpend)
    (hroom : scan.stats.issuanceTransitions.toNat + ds.length < 2 ^ 32) :
    ((∃ d ∈ ds, MintPanics P cfg tx records d) →
      Panics (ds.foldlM (indexIssuerSpend P cfg pos tx records) scan)) ∧
      ((∀ d ∈ ds, ¬MintPanics P cfg tx records d) →
        ∃ scan', ds.foldlM (indexIssuerSpend P cfg pos tx records) scan = .ok scan' ∧
          Counted scan scan' ds.length 0 0 0) := by
  induction ds generalizing scan with
  | nil => exact ⟨by simp, fun _ => ⟨scan, rfl, .refl scan⟩⟩
  | cons d _ ih =>
    rw [length_cons] at hroom
    obtain ⟨hpanic, hok⟩ :=
      indexIssuerSpend_total P cfg pos tx records d 
        (show scan.stats.issuanceTransitions.toNat + 1 < _ by omega)
    rw [foldlM_cons, panics_bind]
    by_cases hd : MintPanics P cfg tx records d
    · exact ⟨fun _ => .inl (hpanic hd), fun hall => absurd hd (hall d mem_cons_self)⟩
    · obtain ⟨mid, hmid, hcount⟩ := hok hd
      have hgrow := hcount.transitions_le
      obtain ⟨hpanic', hok'⟩ := ih (show mid.stats.issuanceTransitions.toNat + _ < _ by omega)
      refine ⟨?_, fun hall => ?_⟩
      · rintro ⟨d', hd', hpanics⟩
        rcases mem_cons.mp hd' with rfl | hd'
        · exact absurd hpanics hd
        · exact .inr ⟨mid, hmid, hpanic' ⟨d', hd', hpanics⟩⟩
      · obtain ⟨scan', hscan', hcount'⟩ := hok' fun d' hd' => hall d' (mem_cons_of_mem _ hd')
        refine ⟨scan', by rw [hmid]; exact hscan', ?_⟩
        rw [length_cons, Nat.add_comm]
        exact hcount.trans hcount'

variable {tx records}

lemma spendInputs_total (inputs : List (TxIn × ℕ))
    (hroom : scan.stats.spentOutputs.toNat + inputs.length < 2 ^ 32)
    (hres : ∀ p ∈ inputs, p.1.previousOutput.isNull = false → ∃ r, records[p.2]? = some (some r)) :
    ∃ scan', spendInputs P records inputs scan = .ok scan' ∧
      Counted scan scan' 0 inputs.length 0 0 := by
  induction inputs generalizing scan with
  | nil => exact ⟨scan, rfl, .refl scan⟩
  | cons p rest ih =>
    obtain ⟨input, i⟩ := p
    rw [length_cons] at hroom
    have hrest : ∀ p ∈ rest, p.1.previousOutput.isNull = false →
        ∃ r, records[p.2]? = some (some r) := fun p hp => hres p (mem_cons_of_mem _ hp)
    rw [spendInputs]
    cases hnull : input.previousOutput.isNull with
    | true =>
      obtain ⟨scan', hscan', hcount⟩ :=
        ih (show scan.stats.spentOutputs.toNat + _ < _ by omega) hrest
      exact ⟨scan', by simpa using hscan', hcount.mono le_rfl (by simp) le_rfl le_rfl⟩
    | false =>
      obtain ⟨r, hr⟩ := hres (input, i) mem_cons_self hnull
      have hsum : scan.stats.spentOutputs.toNat + (1 : UInt32).toNat < 2 ^ 32 := by
        rw [UInt32.toNat_one]
        omega
      have hslot : index records i = .ok (some r) := by simpa using hr
      let next := scan.spendOutput input.previousOutput r (scan.stats.spentOutputs + 1)
      have hone : Counted scan next 0 1 0 0 :=
        ⟨le_rfl, (toNat_add_of_lt hsum).le, le_rfl, le_rfl⟩
      have hgrow := hone.spent_le
      obtain ⟨scan', hscan', hcount⟩ :=
        ih (show next.stats.spentOutputs.toNat + _ < _ by omega) hrest
      refine ⟨scan', ?_, ?_⟩
      · simp only [Bool.false_eq_true, if_false, hslot, addU32_of_lt hsum]
        exact hscan'
      · rw [length_cons, Nat.add_comm]
        exact hone.trans hcount

lemma createOutputs_total (outputs : List (TxOut × ℕ))
    (hroom : scan.stats.createdOutputs.toNat + outputs.length < 2 ^ 32) :
    ∃ scan', createOutputs P cfg pos outputs scan = .ok scan' ∧
      Counted scan scan' 0 0 0 outputs.length := by
  induction outputs generalizing scan with
  | nil => exact ⟨scan, rfl, .refl scan⟩
  | cons o _ ih =>
    obtain ⟨output, i⟩ := o
    rw [length_cons] at hroom
    have hsum : scan.stats.createdOutputs.toNat + (1 : UInt32).toNat < 2 ^ 32 := by
      rw [UInt32.toNat_one]
      omega
    let next := scan.createOutput (utxoRecord cfg pos output i) (scan.stats.createdOutputs + 1)
    have hone : Counted scan next 0 0 0 1 :=
      ⟨le_rfl, le_rfl, le_rfl, (toNat_add_of_lt hsum).le⟩
    have hgrow := hone.created_le
    obtain ⟨scan', hscan', hcount⟩ := ih (show next.stats.createdOutputs.toNat + _ < _ by omega)
    refine ⟨scan', ?_, ?_⟩
    · simp only [createOutputs, addU32_of_lt hsum]
      exact hscan'
    · rw [length_cons, Nat.add_comm]
      exact hone.trans hcount

lemma recordTransaction_total (hroom : scan.stats.transactions.toNat + 1 < 2 ^ 32) :
    ∃ scan', recordTransaction P cfg pos scan = .ok scan' ∧ Counted scan scan' 0 0 1 0 := by
  have hsum : scan.stats.transactions.toNat + (1 : UInt32).toNat < 2 ^ 32 := hroom
  refine ⟨scan.addTransaction (transactionRecord cfg pos) (scan.stats.transactions + 1), ?_, ?_⟩
  · rw [recordTransaction, addU32_of_lt hsum]
    rfl
  · exact ⟨le_rfl, le_rfl, (toNat_add_of_lt hsum).le, le_rfl⟩

end Total

variable {tx : Transaction} {records : List (Option UtxoRecord)} {pos : TxPosition}

lemma not_panics_checkInputs (seen : List OutPoint) (inputs : List TxIn) :
    ¬Panics (checkInputs seen inputs) := by
  induction inputs generalizing seen with
  | nil => simp [checkInputs]
  | cons _ _ ih =>
    rw [checkInputs]
    split_ifs
    · exact ih seen
    · simp
    · exact ih _

lemma not_panics_resolveInputs (overlay : Table OutPoint (Option UtxoRecord))
    (inputs : List TxIn) : ¬Panics (resolveInputs db overlay inputs) := by
  have hone : ∀ o, ¬Panics (resolveOverlayUtxo db overlay o) := by
    intro o
    unfold resolveOverlayUtxo
    split <;> simp
  induction inputs with
  | nil => simp [resolveInputs]
  | cons _ _ ih =>
    rw [resolveInputs]
    split_ifs
    · simp only [panics_bind, ih, not_panics_pure, and_false, exists_false, or_self,
        not_false_eq_true]
    · simp only [panics_bind, ih, hone, not_panics_pure, and_false, exists_false, or_self,
        not_false_eq_true]

variable (hinv : ScanInv db txids scan)
include hinv

lemma resolveInputs_isOk (inputs : List TxIn) :
    (∃ records, resolveInputs db scan.overlay inputs = .ok records) ↔
      ∀ o ∈ spentOutpoints inputs, ((current db scan).get o).isSome := by
  induction inputs with
  | nil => simp [resolveInputs]
  | cons input _ ih =>
    rw [resolveInputs]
    cases hnull : input.previousOutput.isNull with
    | true =>
      rw [spentOutpoints_cons_of_null hnull, ← ih]
      simp only [if_true, ok_iff]
      constructor
      · rintro ⟨_, records, hrecs, -⟩
        exact ⟨records, hrecs⟩
      · rintro ⟨records, hrecs⟩
        exact ⟨_, records, hrecs, rfl⟩
    | false =>
      rw [spentOutpoints_cons_of_not_null hnull, forall_mem_cons, ← ih, Option.isSome_iff_exists]
      simp only [Bool.false_eq_true, if_false, ok_iff, hinv.resolve_eq_ok]
      constructor
      · rintro ⟨_, r, hr, records, hrecs, -⟩
        exact ⟨⟨r, hr⟩, records, hrecs⟩
      · rintro ⟨⟨r, hr⟩, records, hrecs⟩
        exact ⟨_, r, hr, records, hrecs, rfl⟩

lemma resolveInputs_join {inputs : List TxIn}
    (h : resolveInputs db scan.overlay inputs = .ok records) {i : ℕ} {input : TxIn}
    (hi : inputs[i]? = some input) (previous : UtxoRecord) :
    records[i]?.join = some previous ↔ input.previousOutput.isNull = false ∧
      (current db scan).get input.previousOutput = some previous := by
  cases hnull : input.previousOutput.isNull with
  | true => simp [(resolveInputs_spec h hi).1 hnull]
  | false =>
    obtain ⟨_, hr, hres⟩ := (resolveInputs_spec h hi).2 hnull
    simp [hr, hinv.resolve_eq_ok.mp hres]

lemma exists_mintPanics_iff (hrecs : resolveInputs db scan.overlay tx.input = .ok records)
    {ds : List DiscoveredIssuerSpend} (hds : discoverInputs tx.input.zipIdx = .ok ds) :
    (∃ d ∈ ds, MintPanics P cfg tx records d) ↔
      ∃ input ∈ tx.input, OverflowingSpend P cfg (current db scan) tx input := by
  have hcalm : ∀ o, ¬HostileIssuerSpend tx o := by
    intro o ho
    have hpanic := (discover_panics_iff P tx).mpr ho.hostileInput
    simp [discover, hds, bind, Except.bind, pure, Except.pure] at hpanic
  have hmem := (discoverInputs_eq_ok hds).2
  constructor
  · rintro ⟨d, hd, terms, previous, hterms, hprev, hpanic⟩
    obtain ⟨⟨input, i⟩, hq, script, state, hscr, hparse, rfl⟩ := (hmem d).mp hd
    have hi := mem_zipIdx_iff_getElem?.mp hq
    obtain ⟨hnull, hget⟩ := (resolveInputs_join hinv hrecs hi previous).mp hprev
    have hover := ((verifyMint_panics_iff P tx _ _ terms).mp hpanic).resolve_left (hcalm _)
    exact ⟨input, mem_of_getElem? hi, hnull, script, state, terms, previous, hscr,
      hparse, hterms, hget, hover⟩
  · rintro ⟨input, hinput, hnull, script, state, terms, previous, hscr, hparse, hterms, hget,
      hover⟩
    obtain ⟨i, hi⟩ := getElem?_of_mem hinput
    have hd := (hmem ⟨input.previousOutput, i, state⟩).mpr
      ⟨(input, i), mem_zipIdx_iff_getElem?.mpr hi, script, state, hscr, hparse, rfl⟩
    have hprev := (resolveInputs_join hinv hrecs hi previous).mpr ⟨hnull, hget⟩
    exact ⟨_, hd, terms, previous, hterms, hprev,
      (verifyMint_panics_iff P tx _ _ terms).mpr (.inr hover)⟩

lemma admissible_iff :
    (txTransfer cfg pos tx).Admissible (current db scan) ↔
      checkInputs [] tx.input = .ok () ∧
        ∃ records, resolveInputs db scan.overlay tx.input = .ok records := by
  rw [resolveInputs_isOk hinv, checkInputs_eq_ok]
  constructor
  · intro h
    exact ⟨⟨h.nodup, by simp⟩, h.present⟩
  · intro h
    exact ⟨h.1.1, h.2⟩

/-- On an admissible transaction the loop body panics if it is hostile and else succeeds. -/
lemma scanTx_total (hroom : Room scan tx.footprint)
    (hadm : (txTransfer cfg pos tx).Admissible (current db scan)) :
    (HostileTx P cfg (current db scan) tx → Panics (scanTx P cfg db pos tx scan)) ∧
      (¬HostileTx P cfg (current db scan) tx →
        ∃ scan', scanTx P cfg db pos tx scan = .ok scan' ∧
          Counted scan scan' tx.input.length tx.input.length 1 tx.output.length) := by
  obtain ⟨hcheck, records, hrecs⟩ := (admissible_iff hinv).mp hadm
  have hfoot : tx.footprint = 1 + tx.input.length + tx.output.length := rfl
  obtain ⟨_, _, _, _⟩ := hroom
  have hrun : scanTx P cfg db pos tx scan = (do
      let discovered ← ofPanic (discover P tx)
      let scan ← discovered.consumedIssuers.foldlM (indexIssuerSpend P cfg pos tx records) scan
      let scan ← spendInputs P records tx.input.zipIdx scan
      let scan ← recordTransaction P cfg pos scan
      createOutputs P cfg pos tx.output.zipIdx scan) := by
    rw [scanTx, hcheck, hrecs]
    rfl
  rw [hrun]
  cases hds : discoverInputs tx.input.zipIdx with
  | error p =>
    -- Discovery itself panics, so some input is hostile.
    have hdiscover : discover P tx = .error p := by rw [discover, hds]; rfl
    obtain ⟨input, hinput, hhost⟩ := (discover_panics_iff P tx).mp ⟨p, hdiscover⟩
    refine ⟨fun _ => ?_, fun hcalm => absurd ⟨input, hinput, .inl hhost⟩ hcalm⟩
    rw [hdiscover]
    exact ⟨p, rfl⟩
  | ok ds =>
    have hdiscover : ∃ candidates, discover P tx = .ok ⟨P.computeTxid tx, ds, candidates⟩ :=
      ⟨_, by rw [discover, hds]; rfl⟩
    obtain ⟨_, hdiscover⟩ := hdiscover
    have hcalm : ¬∃ input ∈ tx.input, HostileInput input := by
      rw [← discover_panics_iff P tx, hdiscover]
      simp
    have hhost : HostileTx P cfg (current db scan) tx ↔
        ∃ d ∈ ds, MintPanics P cfg tx records d := by
      rw [exists_mintPanics_iff hinv hrecs hds, HostileTx]
      constructor
      · rintro ⟨input, hinput, h | h⟩
        · exact absurd ⟨input, hinput, h⟩ hcalm
        · exact ⟨input, hinput, h⟩
      · rintro ⟨input, hinput, h⟩
        exact ⟨input, hinput, .inr h⟩
    have hlen : ds.length ≤ tx.input.length := by
      simpa using (discoverInputs_eq_ok hds).1
    obtain ⟨hpanic, hok⟩ := indexIssuerSpends_total P cfg pos tx records ds
      (show scan.stats.issuanceTransitions.toNat + _ < _ by omega)
    rw [hdiscover, hhost]
    refine ⟨fun h => panics_bind.mpr (.inr ⟨_, rfl, panics_bind.mpr (.inl (hpanic h))⟩),
      fun h => ?_⟩
    obtain ⟨scan₁, hscan₁, hc₁⟩ := hok fun d hd hp => h ⟨d, hd, hp⟩
    have hres : ∀ p ∈ tx.input.zipIdx, p.1.previousOutput.isNull = false →
        ∃ r, records[p.2]? = some (some r) := by
      intro p hp hnull
      obtain ⟨r, hr, -⟩ := (resolveInputs_spec hrecs (mem_zipIdx_iff_getElem?.mp hp)).2 hnull
      exact ⟨r, hr⟩
    have hspent := hc₁.spent_le
    obtain ⟨scan₂, hscan₂, hc₂⟩ := spendInputs_total P tx.input.zipIdx
      (show scan₁.stats.spentOutputs.toNat + _ < _ by rw [length_zipIdx]; omega) hres
    have hcount := (hc₁.trans hc₂).transactions_le
    obtain ⟨scan₃, hscan₃, hc₃⟩ := recordTransaction_total P cfg pos
      (show scan₂.stats.transactions.toNat + _ < _ by omega)
    have hcrtd := ((hc₁.trans hc₂).trans hc₃).created_le
    obtain ⟨scan₄, hscan₄, hc₄⟩ := createOutputs_total P cfg pos tx.output.zipIdx
      (show scan₃.stats.createdOutputs.toNat + _ < _ by rw [length_zipIdx]; omega)
    refine ⟨scan₄, ?_, ?_⟩
    · change (ds.foldlM (indexIssuerSpend P cfg pos tx records) scan >>= _) = _
      rw [hscan₁]
      change (spendInputs P records tx.input.zipIdx scan₁ >>= _) = _
      rw [hscan₂]
      change (recordTransaction P cfg pos scan₂ >>= _) = _
      rw [hscan₃]
      exact hscan₄
    · have hall := ((hc₁.trans hc₂).trans hc₃).trans hc₄
      rw [length_zipIdx, length_zipIdx] at hall
      exact hall.mono (by omega) (by omega) (by omega) (by omega)

lemma not_panics_scanTx (hadm : ¬(txTransfer cfg pos tx).Admissible (current db scan)) :
    ¬Panics (scanTx P cfg db pos tx scan) := by
  rw [admissible_iff hinv] at hadm
  simp only [scanTx, panics_bind, not_panics_checkInputs, not_panics_resolveInputs, false_or,
    exists_unit]
  rintro ⟨hcheck, records, hrecs, -⟩
  exact hadm ⟨hcheck, records, hrecs⟩

end Steps

section Pass

variable {blockHash : BlockHash} {height : UInt32}

lemma hostileTxs_nil (n : ℕ) : ¬HostileTxs P cfg utxos blockHash height n [] := by
  rintro ⟨_, _, _, hsplit, -⟩
  simp at hsplit

lemma hostileTxs_cons (n : ℕ) (tx : Transaction) (rest : List Transaction) :
    HostileTxs P cfg utxos blockHash height n (tx :: rest) ↔
      (txTransfer cfg ⟨blockHash, height, P.computeTxid tx, n⟩ tx).Admissible utxos ∧
        (HostileTx P cfg utxos tx ∨ HostileTxs P cfg (utxos.applyAll
          (txTransfer cfg ⟨blockHash, height, P.computeTxid tx, n⟩ tx).edits) blockHash height
          (n + 1) rest) := by
  constructor
  · rintro ⟨pre, tx', post, hsplit, hadm, hhost⟩
    cases pre with
    | nil =>
      obtain ⟨rfl, rfl⟩ : tx = tx' ∧ rest = post := by simpa using hsplit
      exact ⟨hadm.1, .inl hhost⟩
    | cons first pre =>
      obtain ⟨rfl, rfl⟩ : tx = first ∧ rest = pre ++ tx' :: post := by simpa using hsplit
      refine ⟨hadm.1, .inr ⟨pre, tx', post, rfl, hadm.2, ?_⟩⟩
      simpa [txTransfers, Table.applyAll_append] using hhost
  · rintro ⟨hadm, hhost | ⟨pre, tx', post, rfl, hadms, hhost⟩⟩
    · exact ⟨[], tx, rest, rfl, ⟨hadm, trivial⟩, hhost⟩
    · refine ⟨tx :: pre, tx', post, rfl, ⟨hadm, hadms⟩, ?_⟩
      simpa [txTransfers, Table.applyAll_append] using hhost

theorem scanTxs_panics_iff {n : ℕ} {txs : List Transaction} {txids : List Txid}
    (hinv : ScanInv db txids scan) (hroom : Room scan (txs.map footprint).sum) :
    Panics (scanTxs P cfg db blockHash height n txs scan) ↔
      HostileTxs P cfg (current db scan) blockHash height n txs := by
  induction txs generalizing n txids scan with
  | nil => simp [scanTxs, hostileTxs_nil]
  | cons tx rest ih =>
    rw [map_cons, sum_cons] at hroom
    have hwide : ScanInv db (txids ++ [P.computeTxid tx]) scan :=
      hinv.mono fun t ht => mem_append_left _ ht
    have hfirst : Room scan tx.footprint :=
      hroom.of_counted (.refl scan) (by omega) (by omega) (by omega) (by omega)
    rw [scanTxs, panics_bind, hostileTxs_cons]
    by_cases hadm : (txTransfer cfg ⟨blockHash, height, P.computeTxid tx, n⟩ tx).Admissible
        (current db scan)
    · obtain ⟨hpanic, hok⟩ := scanTx_total (P := P) hwide hfirst hadm
      by_cases hhost : HostileTx P cfg (current db scan) tx
      · exact iff_of_true (.inl (hpanic hhost)) ⟨hadm, .inl hhost⟩
      · obtain ⟨mid, hmid, hcount⟩ := hok hhost
        obtain ⟨hinv', hext, -⟩ := scanTx_spec hwide (by simp) hmid
        have hfoot : tx.footprint = 1 + tx.input.length + tx.output.length := rfl
        have hroom' : Room mid (rest.map footprint).sum :=
          hroom.of_counted hcount (by omega) (by omega) (by omega) (by omega)
        have hrest := ih (n := n + 1) hinv' hroom'
        rw [hext.current_eq db] at hrest
        rw [← hrest, hmid]
        simp [hadm, hhost]
    · have hcalm := not_panics_scanTx (P := P) hwide hadm
      refine iff_of_false ?_ fun h => hadm h.1
      rintro (hp | ⟨_, hmid, -⟩)
      · exact hcalm hp
      · exact hadm (scanTx_spec hwide (by simp) hmid).2.2

lemma not_panics_checkUniqueTxids (seen txids : List Txid) :
    ¬Panics (checkUniqueTxids seen txids) := by
  induction txids generalizing seen with
  | nil => simp [checkUniqueTxids]
  | cons _ _ ih =>
    rw [checkUniqueTxids]
    split_ifs
    · simp
    · exact ih _

lemma not_panics_checkNewTxids (txids : List Txid) : ¬Panics (checkNewTxids db txids) := by
  induction txids with
  | nil => simp [checkNewTxids]
  | cons _ _ ih => simp [checkNewTxids, panics_bind, ih]

theorem applyBlockLocked_panics_iff (hdb : Coherent db) (io : Bool) (height : UInt32)
    (block : Block) :
    Panics (applyBlockLocked P cfg io db height block) ↔
      io = true ∧ BlockAccepted P db height block ∧ HostileBlock P cfg db height block := by
  have hroom : Room {} (block.txdata.map footprint).sum := by
    have hfits := block.fits
    constructor <;> simpa using hfits
  have hpass : Panics (scanTxs P cfg db (P.blockHash block.header) height 0 block.txdata {}) ↔
      HostileBlock P cfg db height block := scanTxs_panics_iff (ScanInv.init hdb) hroom
  have hcheck : ¬Panics (checkBlock P db height block) := by
    simp [checkBlock, panics_bind, not_panics_checkUniqueTxids, not_panics_checkNewTxids]
  have hplan : Panics (planBlock P cfg db height block) ↔
      BlockAccepted P db height block ∧ HostileBlock P cfg db height block := by
    simp only [planBlock, panics_bind, hcheck, false_or, exists_unit, checkBlock_eq_ok, hpass,
      not_panics_pure, and_false, exists_false, or_false]
  simp only [applyBlockLocked, panics_bind, not_panics_ensure, false_or, ok_iff, hplan,
    not_panics_pure, and_false, exists_false, or_false]

lemma coherent_core : Coherent db.core ↔ Coherent db :=
  ⟨fun h => ⟨h.1, h.2, h.3, h.4⟩, fun h => ⟨h.1, h.2, h.3, h.4⟩⟩

lemma Tracks.coherent {chain : List Block} (h : Tracks P cfg db chain) : Coherent db := by
  obtain ⟨_, hbuilt, hcore⟩ := h
  rw [← coherent_core, hcore, coherent_core]
  exact hbuilt.coherent

end Pass

/-- Exactly which inputs make the parser, discovery, verification and the application of a block
panic. -/
theorem processing_panics_iff (P : Platform) (cfg : IndexerConfig) :
    (∀ script, (∃ p, parseIssuerScript script = .error p) ↔ TruncatedConstants script) ∧
      (∀ tx, (∃ p, discover P tx = .error p) ↔ ∃ input ∈ tx.input, HostileInput input) ∧
      (∀ tx issuerOutpoint issuerUtxo terms,
        Panics (verifyMint P tx issuerOutpoint issuerUtxo terms) ↔
          HostileIssuerSpend tx issuerOutpoint ∨
            OverflowingMint P tx issuerOutpoint issuerUtxo terms) ∧
      ∀ calls io height block,
        let ix := runCalls P cfg .empty calls
        Panics (call P cfg ix (.applyBlock io height block)).2 ↔
          ix.poisoned = false ∧ io = true ∧ BlockAccepted P ix.db height block ∧
            HostileBlock P cfg ix.db height block := by
  refine ⟨parseIssuerScript_panics_iff, discover_panics_iff P, verifyMint_panics_iff P, ?_⟩
  intro calls io height block ix
  have hmoves : Relation.ReflTransGen (BlockStep P cfg fun _ => True) Db.empty ix.db :=
    runCalls_moves Indexer.empty calls fun _ _ _ _ => trivial
  have hdb : Coherent ix.db := (tracks_of_moves hmoves).coherent
  rw [← applyBlockLocked_panics_iff hdb, call]
  cases hpoison : ix.poisoned with
  | true => simp
  | false =>
    simp only [Bool.false_eq_true, if_false, lockedCall, true_and]
    cases applyBlockLocked P cfg io ix.db height block with
    | ok => simp
    | error => simp [Panics]

def hostileScript : Bytes := 75 :: replicate 75 0

/-- A coinbase whose witness reveals the hostile script in the place of an issuer script. -/
def hostileTx : Transaction :=
  ⟨2, 1, [⟨OutPoint.null, [], 0, [[], [], [], [], [], hostileScript, []]⟩], [⟨1000, []⟩]⟩

def hostileGenesis : Block where
  header := ⟨1, Bytes32.zeros, Bytes32.zeros, 0, 0, 1⟩
  txdata := [hostileTx]
  fits := by simp [hostileTx, footprint]

theorem processing_panics_hostileGenesis :
    parseIssuerScript hostileScript = .error .indexOutOfBounds ∧
      discover samplePlatform hostileTx = .error .indexOutOfBounds ∧
      (∀ issuerUtxo terms, verifyMint samplePlatform hostileTx OutPoint.null issuerUtxo terms =
        .error (.panic .indexOutOfBounds)) ∧
      (call samplePlatform sampleConfig .empty (.applyBlock true 0 hostileGenesis)).2 =
        .error (.panic .indexOutOfBounds) :=
  ⟨by decide, by decide, fun _ _ => rfl, by decide⟩

end Catomicals.Index
