import Catomicals.Indexer.Calls
import Catomicals.Indexer.Undo
import Mathlib.Logic.Relation

/-!
# The canonical chain behind a store

`canonicalChain` follows the undo records from the tip. Every call is a sequence of attached and
detached blocks (`BlockStep`), which keeps the store, up to the heights family, the one built from
its canonical chain (`Tracks`).
-/
namespace Catomicals.Index

open Base Base.Outcome Issuance List

variable {P : Platform} {cfg : IndexerConfig} {stats : ApplyStats} {height : UInt32}

/-- The blocks behind a tip, oldest first, found through at most `n` undo records. -/
def ancestry (db : Db) : ℕ → Option Tip → List Block
  | 0, _ => []
  | _ + 1, none => []
  | n + 1, some tip =>
    match db.undo.get tip.hash, db.blocks.get tip.hash with
    | some undo, some record => ancestry db n undo.previousTip ++ [record.rawBlock]
    | _, _ => []

/-- The current canonical chain, oldest block first. -/
def canonicalChain (db : Db) : List Block := ancestry db db.undo.card db.tip

/-- The height of the block at position `n` of a chain; heights saturate. -/
def heightOf (n : ℕ) : UInt32 := UInt32.ofNat (min n (2 ^ 32 - 1))

lemma toNat_heightOf (n : ℕ) : (heightOf n).toNat = min n (2 ^ 32 - 1) := by
  have h : min n (2 ^ 32 - 1) < UInt32.size := by
    rw [UInt32.size]
    omega
  exact UInt32.toNat_ofNat_of_lt' h

lemma saturatingSucc_heightOf (n : ℕ) : saturatingSucc (heightOf n) = heightOf (n + 1) := by
  apply UInt32.toNat_inj.mp
  rw [toNat_saturatingSucc, toNat_heightOf, toNat_heightOf]
  omega

/-- A block attached to or detached from the tip, attached ones at an allowed height. -/
inductive BlockStep (P : Platform) (cfg : IndexerConfig) (allowed : UInt32 → Prop) :
    Db → Db → Prop where
  | attach {db height block batch stats}
      (plan : planBlock P cfg db height block = .ok (batch, stats)) (ok : allowed height) :
      BlockStep P cfg allowed db (db.write batch)
  | detach {db batch tip} (plan : planRollback db = .ok (batch, tip)) :
      BlockStep P cfg allowed db (db.write batch)

def Call.heights : Call → List UInt32
  | .applyBlock _ height _ => [height]
  | .reorganize _ _ _ _ replacement => replacement.map Prod.fst
  | _ => []

variable {allowed : UInt32 → Prop} {block : Block} {db db' : Db}

section Moves

open Relation

lemma applyBlockLocked_step {io : Bool} (hok : allowed height)
    (h : applyBlockLocked P cfg io db height block = .ok (db', stats)) :
    BlockStep P cfg allowed db db' := by
  simp only [applyBlockLocked, ok_iff, Prod.exists, Prod.mk.injEq] at h
  obtain ⟨-, batch, _, hplan, rfl, rfl⟩ := h
  exact .attach hplan hok

lemma rollbackTipLocked_step {io : Bool} {tip : Tip}
    (h : rollbackTipLocked io db = .ok (db', tip)) : BlockStep P cfg allowed db db' := by
  simp only [rollbackTipLocked, ok_iff, Prod.exists, Prod.mk.injEq] at h
  obtain ⟨-, batch, _, hplan, rfl, rfl⟩ := h
  exact .detach hplan

lemma rollbackLoop_moves (ancestor : BlockHash) (height : UInt32) (fuel : ℕ) (io : ℕ → Bool)
    (db : Db) :
    ReflTransGen (BlockStep P cfg allowed) db (rollbackLoop ancestor height fuel io db).1 := by
  induction fuel generalizing io db with
  | zero => exact .refl
  | succ _ ih =>
    rw [rollbackLoop]
    split_ifs
    · exact .refl
    · split
      · exact .refl
      · split_ifs
        · exact .refl
        · exact .refl
        · split
          · exact .refl
          · exact .head (rollbackTipLocked_step (by assumption)) (ih _ _)

lemma rollbackToLocked_moves (io : ℕ → Bool) (db : Db) (ancestor : BlockHash) :
    ReflTransGen (BlockStep P cfg allowed) db (rollbackToLocked io db ancestor).1 := by
  unfold rollbackToLocked
  split
  · exact .refl
  · exact rollbackLoop_moves _ _ _ _ _

lemma attachBlocks_moves (io : ℕ → Bool) (replacement : List (UInt32 × Block)) (db : Db)
    (hok : ∀ p ∈ replacement, allowed p.1) :
    ReflTransGen (BlockStep P cfg allowed) db (attachBlocks P cfg io replacement db).1 := by
  induction replacement generalizing io db with
  | nil => exact .refl
  | cons _ _ ih =>
    rw [attachBlocks]
    split
    · exact .refl
    · refine .head (applyBlockLocked_step (hok _ mem_cons_self) (by assumption)) (ih _ _ ?_)
      exact fun q hq => hok q (mem_cons_of_mem _ hq)

/-- A locked call only attaches and detaches blocks, whatever it returns. -/
theorem lockedCall_moves (db : Db) (c : Call) (hok : ∀ h ∈ c.heights, allowed h) :
    ReflTransGen (BlockStep P cfg allowed) db (lockedCall P cfg db c).1 := by
  cases c with
  | applyBlock _ height =>
    rw [lockedCall]
    split
    · exact .single (applyBlockLocked_step (hok height (by simp [Call.heights])) (by assumption))
    · exact .refl
  | rollbackTip =>
    rw [lockedCall]
    split
    · exact .single (rollbackTipLocked_step (by assumption))
    · exact .refl
  | rollbackTo io ancestor => exact rollbackToLocked_moves io db ancestor
  | reorganize _ detach _ ancestor =>
    simp only [lockedCall, reorganizeLocked]
    split
    · exact .refl
    · have hback : ReflTransGen (BlockStep P cfg allowed) db
          (rollbackToLocked detach db ancestor).1 := rollbackToLocked_moves detach db ancestor
      split
      · rename_i heq
        rw [heq] at hback
        exact hback
      · rename_i heq
        rw [heq] at hback
        refine hback.trans (attachBlocks_moves _ _ _ fun p hp => hok p.1 ?_)
        exact mem_map_of_mem hp

theorem runCalls_moves (ix : Indexer) (calls : List Call)
    (hok : ∀ c ∈ calls, ∀ h ∈ c.heights, allowed h) :
    ReflTransGen (BlockStep P cfg allowed) ix.db (runCalls P cfg ix calls).db := by
  induction calls generalizing ix with
  | nil => exact .refl
  | cons c _ ih =>
    have hrest := ih (call P cfg ix c).1 fun c' hc' => hok c' (mem_cons_of_mem _ hc')
    refine ReflTransGen.trans ?_ hrest
    unfold call
    split_ifs
    · exact .refl
    · exact lockedCall_moves ix.db c (hok c mem_cons_self)

end Moves

/-- The stores obtained by applying a chain of blocks to an empty store. -/
inductive Built (P : Platform) (cfg : IndexerConfig) : Db → List Block → Prop where
  | nil : Built P cfg .empty []
  | snoc {db chain height block scan}
      (prev : Built P cfg db chain) (accepted : BlockAccepted P db height block)
      (pass : scanTxs P cfg db (P.blockHash block.header) height 0 block.txdata {} = .ok scan) :
      Built P cfg (applied P db height block scan) (chain ++ [block])

/-- The chain behind a tip, as the undo records link it. -/
inductive Lineage (db : Db) : Option Tip → List Block → Prop where
  | root : Lineage db none []
  | link {tip undo record chain} (undo_eq : db.undo.get tip.hash = some undo)
      (record_eq : db.blocks.get tip.hash = some record)
      (prev : Lineage db undo.previousTip chain) :
      Lineage db (some tip) (chain ++ [record.rawBlock])

variable {chain : List Block}

lemma Lineage.ancestry_eq {tip : Option Tip} (h : Lineage db tip chain) {n : ℕ}
    (hn : chain.length ≤ n) : ancestry db n tip = chain := by
  induction h generalizing n with
  | root => cases n <;> rfl
  | @link _ _ _ _ hundo hrec _ ih =>
    rw [length_append, length_singleton] at hn
    cases n with
    | zero => omega
    | succ =>
      rw [ancestry, hundo, hrec]
      simp only
      rw [ih (by omega)]

lemma Lineage.mono {tip : Option Tip} (h : Lineage db tip chain)
    (hundo : ∀ k u, db.undo.get k = some u → db'.undo.get k = some u)
    (hblocks : ∀ k r, db.blocks.get k = some r → db'.blocks.get k = some r) :
    Lineage db' tip chain := by
  induction h with
  | root => exact .root
  | link hu hr _ ih => exact .link (hundo _ _ hu) (hblocks _ _ hr) ih

section Facts

variable {db : Db} {scan : BlockScan}

lemma pass_spec (hdb : Coherent db)
    (pass : scanTxs P cfg db (P.blockHash block.header) height 0 block.txdata {} = .ok scan) :
    ScanInv db (block.txdata.map P.computeTxid) scan ∧
      scan.createdTxids = block.txdata.map P.computeTxid := by
  obtain ⟨hinv, hext⟩ := scanTxs_spec (ScanInv.init hdb) pass
  exact ⟨by simpa using hinv, by simpa using hext.createdTxids_eq⟩

lemma coherent_empty : Coherent Db.empty := by
  constructor <;> simp [Db.empty]

namespace Built

variable (h : Built P cfg db chain)
include h

lemma coherent : Coherent db := by
  induction h with
  | nil => exact coherent_empty
  | snoc _ _ pass ih =>
    obtain ⟨hinv, hcrtd⟩ := pass_spec ih pass
    exact coherent_applied ih (by rw [hcrtd]; exact hinv)

lemma undo_fresh (hacc : BlockAccepted P db height block) :
    db.undo.get (P.blockHash block.header) = none := by
  by_contra hne
  have hsome := h.coherent.undo_block _ (Option.isSome_iff_ne_none.mpr hne)
  rw [hacc.new_block] at hsome
  simp at hsome

lemma card_undo : db.undo.card = chain.length := by
  induction h with
  | nil => rfl
  | snoc prev acc _ ih =>
    rw [applied, Table.card_put_of_get_eq_none _ (prev.undo_fresh acc), ih]
    simp

lemma expectedNext_fst : (expectedNext db).1 = heightOf chain.length := by
  induction h with
  | nil => rfl
  | @snoc _ _ _ _ _ _ acc _ ih =>
    rw [expectedNext, tip_applied, length_append, length_singleton, acc.height_eq, ih]
    exact saturatingSucc_heightOf _

lemma height_eq (hacc : BlockAccepted P db height block) :
    height = heightOf chain.length := hacc.height_eq.trans h.expectedNext_fst

lemma lineage : Lineage db db.tip chain := by
  induction h with
  | nil => exact .root
  | @snoc db chain height block scan prev acc _ ih =>
    let tip : Tip := ⟨P.blockHash block.header, height⟩
    have hundo : (applied P db height block scan).undo.get tip.hash =
        some (undoRecord P db height block scan) := by simp [applied, tip]
    have hblock : (applied P db height block scan).blocks.get tip.hash =
        some (blockRecord P height block) := by simp [applied, tip]
    have hprev : Lineage (applied P db height block scan)
        (undoRecord P db height block scan).previousTip chain := by
      refine ih.mono (fun k u hk => ?_) (fun k r hk => ?_)
      · have hne : k ≠ P.blockHash block.header := by
          rintro rfl
          simp [prev.undo_fresh acc] at hk
        simpa [applied, hne] using hk
      · have hne : k ≠ P.blockHash block.header := by
          rintro rfl
          simp [acc.new_block] at hk
        simpa [applied, hne] using hk
    rw [tip_applied]
    exact .link hundo hblock hprev

/-- The chain read from the store is the chain it was built from. -/
theorem canonicalChain_eq : canonicalChain db = chain := by
  rw [canonicalChain, h.card_undo]
  exact h.lineage.ancestry_eq le_rfl

end Built

end Facts

/-- The store without its heights family. -/
def Db.core (db : Db) : Db := { db with heights := .empty }

section Core

lemma resolveInputs_core (overlay : Table OutPoint (Option UtxoRecord)) (inputs : List TxIn) :
    resolveInputs db.core overlay inputs = resolveInputs db overlay inputs := by
  induction inputs with
  | nil => rfl
  | cons _ _ ih => rw [resolveInputs, resolveInputs, ih]; rfl

lemma scanTxs_core (blockHash : BlockHash) (height : UInt32) (n : ℕ) (txs : List Transaction)
    (scan : BlockScan) :
    scanTxs P cfg db.core blockHash height n txs scan =
      scanTxs P cfg db blockHash height n txs scan := by
  induction txs generalizing n scan with
  | nil => rfl
  | cons _ _ ih => simp only [scanTxs, scanTx, resolveInputs_core, ih]

lemma checkNewTxids_core (txids : List Txid) :
    checkNewTxids db.core txids = checkNewTxids db txids := by
  induction txids with
  | nil => rfl
  | cons _ _ ih => rw [checkNewTxids, checkNewTxids, ih]; rfl

lemma planBlock_core (height : UInt32) (block : Block) :
    planBlock P cfg db.core height block = planBlock P cfg db height block := by
  simp only [planBlock, checkBlock, checkNewTxids_core, scanTxs_core]
  rfl

lemma ancestry_core (n : ℕ) (tip : Option Tip) : ancestry db.core n tip = ancestry db n tip := by
  induction n generalizing tip with
  | zero => rfl
  | succ n ih =>
    cases tip with
    | none => rfl
    | some => simp only [ancestry, ih]; rfl

lemma canonicalChain_core : canonicalChain db.core = canonicalChain db := ancestry_core _ _

lemma core_write_congr (h : db.core = db'.core) (batch : WriteBatch) :
    (db.write batch).core = (db'.write batch).core := by
  change (db.core.write batch).core = (db'.core.write batch).core
  rw [h]

/-- The store agrees with the one built from the chain, up to the heights. -/
def Tracks (P : Platform) (cfg : IndexerConfig) (db : Db) (chain : List Block) : Prop :=
  ∃ db', Built P cfg db' chain ∧ db.core = db'.core

lemma Built.tracks (h : Built P cfg db chain) : Tracks P cfg db chain := ⟨db, h, rfl⟩

variable {batch : WriteBatch}

lemma Built.attach (h : Built P cfg db chain)
    (plan : planBlock P cfg db height block = .ok (batch, stats)) :
    Built P cfg (db.write batch) (chain ++ [block]) := by
  obtain ⟨hacc, scan, pass, rfl, -⟩ := planBlock_eq_ok.mp plan
  rw [write_eq_applied (pass_spec h.coherent pass).1]
  exact .snoc h hacc pass

lemma Built.detach (h : Built P cfg db chain) {tip : Tip}
    (plan : planRollback db = .ok (batch, tip)) :
    ∃ prev block rest, Built P cfg prev rest ∧ chain = rest ++ [block] ∧
      tip.height = heightOf rest.length ∧
        db.write batch = { prev with heights := prev.heights.delete tip.height } := by
  simp only [planRollback, ok_iff, Prod.mk.injEq] at plan
  obtain ⟨_, htip, undo, hundo, rfl, rfl⟩ := plan
  cases h with
  | nil => simp [Db.tip, Db.empty] at htip
  | @snoc prev rest height block scan hprev hacc pass =>
    rw [tip_applied, Option.some.injEq] at htip
    subst htip
    obtain rfl : undoRecord P prev height block scan = undo := by simpa [applied] using hundo
    obtain ⟨hinv, hcrtd⟩ := pass_spec hprev.coherent pass
    exact ⟨prev, block, rest, hprev, rfl, hprev.height_eq hacc,
      write_rollback_applied hprev.coherent hacc hinv hcrtd⟩

section

variable (h : Tracks P cfg db chain)
include h

lemma Tracks.attach (plan : planBlock P cfg db height block = .ok (batch, stats)) :
    Tracks P cfg (db.write batch) (chain ++ [block]) := by
  obtain ⟨db', hbuilt, hcore⟩ := h
  rw [← planBlock_core, hcore, planBlock_core] at plan
  exact ⟨db'.write batch, hbuilt.attach plan, core_write_congr hcore batch⟩

lemma Tracks.detach {tip : Tip} (plan : planRollback db = .ok (batch, tip)) :
    ∃ block rest, chain = rest ++ [block] ∧ tip.height = heightOf rest.length ∧
      Tracks P cfg (db.write batch) rest := by
  obtain ⟨db', hbuilt, hcore⟩ := h
  have plan' : planRollback db' = .ok (batch, tip) := by
    change planRollback db'.core = _
    rw [← hcore]
    exact plan
  obtain ⟨prev, block, rest, hprev, hchain, hhgt, hwrite⟩ := hbuilt.detach plan'
  refine ⟨block, rest, hchain, hhgt, prev, hprev, ?_⟩
  rw [core_write_congr hcore, hwrite]
  rfl

lemma Tracks.step (step : BlockStep P cfg allowed db db') : ∃ chain', Tracks P cfg db' chain' := by
  cases step with
  | attach plan => exact ⟨_, h.attach plan⟩
  | detach plan =>
    obtain ⟨_, rest, -, -, hrest⟩ := h.detach plan
    exact ⟨rest, hrest⟩

lemma Tracks.canonicalChain_eq : canonicalChain db = chain := by
  obtain ⟨db', hbuilt, hcore⟩ := h
  rw [← canonicalChain_core, hcore, canonicalChain_core, hbuilt.canonicalChain_eq]

end

/-- A store reached from the empty one agrees with its canonical chain. -/
theorem tracks_of_moves (h : Relation.ReflTransGen (BlockStep P cfg allowed) Db.empty db) :
    Tracks P cfg db (canonicalChain db) := by
  have hchain : ∃ chain, Tracks P cfg db chain := by
    induction h with
    | refl => exact ⟨[], Built.nil.tracks⟩
    | tail _ step ih =>
      obtain ⟨chain, hchain⟩ := ih
      exact hchain.step step
  obtain ⟨chain, htracks⟩ := hchain
  rwa [htracks.canonicalChain_eq]

end Core

end Catomicals.Index
