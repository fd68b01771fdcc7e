import Catomicals.Indexer.Chain

/-!
# Path independence of the index

The heights family follows the chain as long as heights stay below the largest `u32`. Then the store
is the one that replaying its canonical chain gives, whatever calls led to it.
-/
namespace Catomicals.Index

open Base Base.Outcome Issuance Relation Bytes32 List

/-- Apply the blocks of a chain to an empty store, at heights 0, 1, 2, … -/
def replay (P : Platform) (cfg : IndexerConfig) (chain : List Block) : Outcome IndexError Db :=
  chain.zipIdx.foldlM (fun db p => do
    let (db', _) ← applyBlockLocked P cfg true db (UInt32.ofNat p.2) p.1
    return db') Db.empty

def HeightBelowMax (h : UInt32) : Prop := h.toNat < 2 ^ 32 - 1

instance : DecidablePred HeightBelowMax := fun h => inferInstanceAs (Decidable (h.toNat < _))

def HeightsFollow (P : Platform) (db : Db) (chain : List Block) : Prop :=
  ∀ h : UInt32, db.heights.get h = chain[h.toNat]?.map fun b => P.blockHash b.header

variable {P : Platform} {cfg : IndexerConfig} {db db' : Db} {chain : List Block} {n : ℕ}
  {block : Block} {ancestor : BlockHash} {f : Fault IndexError}

lemma heightOf_of_lt (h : n < 2 ^ 32 - 1) : heightOf n = UInt32.ofNat n := by
  rw [heightOf, min_eq_left (by omega)]

lemma toNat_heightOf_of_le (h : n ≤ 2 ^ 32 - 1) : (heightOf n).toNat = n := by
  rw [toNat_heightOf, min_eq_left h]

lemma eq_heightOf_iff {h : UInt32} (hn : n ≤ 2 ^ 32 - 1) : h = heightOf n ↔ h.toNat = n := by
  rw [← UInt32.toNat_inj, toNat_heightOf_of_le hn]

lemma HeightsFollow.put (h : HeightsFollow P db chain) (hlen : chain.length ≤ 2 ^ 32 - 1)
    (block : Block) (k : UInt32) :
    (db.heights.put (heightOf chain.length) (P.blockHash block.header)).get k =
      (chain ++ [block])[k.toNat]?.map fun b => P.blockHash b.header := by
  rw [Table.get_put, h k]
  by_cases hk : k = heightOf chain.length
  · rw [if_pos hk, (eq_heightOf_iff hlen).mp hk]
    simp
  · rw [if_neg hk]
    have hne : k.toNat ≠ chain.length := fun heq => hk ((eq_heightOf_iff hlen).mpr heq)
    rcases Nat.lt_or_gt_of_ne hne with hlt | hgt
    · rw [getElem?_append_left hlt]
    · rw [getElem?_eq_none (by omega), getElem?_eq_none (by simp; omega)]

lemma Built.heightsFollow (h : Built P cfg db chain) (hlen : chain.length ≤ 2 ^ 32 - 1) :
    HeightsFollow P db chain := by
  induction h with
  | nil => intro k; simp [Db.empty]
  | @snoc _ _ _ block _ prev acc _ ih =>
    rw [length_append, length_singleton] at hlen
    intro k
    rw [applied, prev.height_eq acc]
    exact (ih (by omega)).put (by omega) block k

/-- The store is the one built from the chain, and its heights are below the bound. -/
structure Exact (P : Platform) (cfg : IndexerConfig) (db : Db) (chain : List Block) : Prop where
  built : Built P cfg db chain
  short : chain.length ≤ 2 ^ 32 - 1

lemma Exact.attach (h : Exact P cfg db chain) {height : UInt32} {batch : WriteBatch}
    {stats : ApplyStats} (plan : planBlock P cfg db height block = .ok (batch, stats))
    (hh : HeightBelowMax height) :
    Exact P cfg (db.write batch) (chain ++ [block]) := by
  refine ⟨h.built.attach plan, ?_⟩
  have hhgt := h.built.height_eq (planBlock_eq_ok.mp plan).1
  rw [HeightBelowMax, hhgt, toNat_heightOf_of_le h.short] at hh
  simp only [length_append, length_singleton]
  omega

lemma Exact.detach (h : Exact P cfg db chain) {batch : WriteBatch} {tip : Tip}
    (plan : planRollback db = .ok (batch, tip)) :
    ∃ block rest, chain = rest ++ [block] ∧ Exact P cfg (db.write batch) rest := by
  obtain ⟨prev, block, rest, hprev, rfl, hhgt, hwrite⟩ := h.built.detach plan
  have hshort := h.short
  rw [length_append, length_singleton] at hshort
  refine ⟨block, rest, rfl, ?_, by omega⟩
  -- The height of the detached block was free before it was attached.
  have hfree : prev.heights.get tip.height = none := by
    rw [hprev.heightsFollow (by omega) tip.height, hhgt, toNat_heightOf_of_le (by omega)]
    simp
  rw [hwrite, Table.delete_of_get_eq_none hfree]
  exact hprev

/-- Every store reached within the height bound is the one built from its chain. -/
theorem exact_of_moves (h : ReflTransGen (BlockStep P cfg HeightBelowMax) Db.empty db) :
    Exact P cfg db (canonicalChain db) := by
  have hchain : ∃ chain, Exact P cfg db chain := by
    induction h with
    | refl => exact ⟨[], .nil, by simp⟩
    | tail _ step ih =>
      obtain ⟨chain, hchain⟩ := ih
      cases step with
      | attach plan hh => exact ⟨_, hchain.attach plan hh⟩
      | detach plan =>
        obtain ⟨_, rest, -, hrest⟩ := hchain.detach plan
        exact ⟨rest, hrest⟩
  obtain ⟨_, hexact⟩ := hchain
  rwa [hexact.built.canonicalChain_eq]

lemma Built.replay_eq (h : Built P cfg db chain) (hlen : chain.length ≤ 2 ^ 32 - 1) :
    replay P cfg chain = .ok db := by
  induction h with
  | nil => rfl
  | @snoc db chain height block scan prev acc pass ih =>
    rw [length_append, length_singleton] at hlen
    have hhgt : height = UInt32.ofNat chain.length := by
      rw [prev.height_eq acc, heightOf_of_lt (by omega)]
    have hstep : applyBlockLocked P cfg true db (UInt32.ofNat chain.length) block =
        .ok (applied P db height block scan, scan.stats) := by
      have hplan := planBlock_eq_ok.mpr ⟨acc, scan, pass, rfl, rfl⟩
      rw [applyBlockLocked, ← hhgt, hplan, ← write_eq_applied (pass_spec prev.coherent pass).1]
      rfl
    have hprev := ih (by omega)
    unfold replay at hprev ⊢
    rw [zipIdx_append, foldlM_append, hprev]
    simp [bind, Except.bind, pure, Except.pure, hstep]

lemma Built.record_of_mem (h : Built P cfg db chain) (hb : block ∈ chain) :
    ∃ r, db.blocks.get (P.blockHash block.header) = some r ∧ r.rawBlock = block ∧
      r.hash = P.blockHash block.header := by
  induction h with
  | nil => simp at hb
  | @snoc _ _ height newBlock _ _ acc _ ih =>
    rcases mem_append.mp hb with hmem | hmem
    · obtain ⟨r, hr, hraw, hhash⟩ := ih hmem
      have hne : P.blockHash block.header ≠ P.blockHash newBlock.header := by
        intro heq
        rw [heq, acc.new_block] at hr
        simp at hr
      exact ⟨r, by simp [applied, hne, hr], hraw, hhash⟩
    · obtain rfl : block = newBlock := by simpa using hmem
      exact ⟨blockRecord P height block, by simp [applied], rfl, rfl⟩

lemma Exact.blockByHeight_eq (h : Exact P cfg db chain) (k : UInt32) :
    (db.blockByHeight k).map BlockRecord.rawBlock = chain[k.toNat]? := by
  rw [Db.blockByHeight, h.built.heightsFollow h.short k]
  cases hk : chain[k.toNat]? with
  | none => rfl
  | some =>
    obtain ⟨_, hr, hraw, -⟩ := h.built.record_of_mem (mem_of_getElem? hk)
    simp [hr, hraw]

lemma Exact.ancestor_pos (h : Exact P cfg db chain) {io : Bool} {record : BlockRecord}
    (hrec : canonicalAncestor io db ancestor = .ok record) :
    ∃ block, chain[record.height.toNat]? = some block ∧ P.blockHash block.header = ancestor := by
  simp only [canonicalAncestor, ok_iff] at hrec
  obtain ⟨-, record', -, hhgt, heq⟩ := hrec
  subst heq
  rw [Db.blockByHeight, h.built.heightsFollow h.short] at hhgt
  cases hk : chain[record'.height.toNat]? with
  | none => simp [hk] at hhgt
  | some block =>
    obtain ⟨_, hr, -, hhash⟩ := h.built.record_of_mem (mem_of_getElem? hk)
    refine ⟨block, rfl, ?_⟩
    simpa [hk, hr, hhash] using hhgt

lemma Exact.detachable {rest : List Block} (h : Exact P cfg db (rest ++ [block])) :
    db.tip = some ⟨P.blockHash block.header, heightOf rest.length⟩ ∧
      ∃ db' tip, rollbackTipLocked true db = .ok (db', tip) ∧ Exact P cfg db' rest := by
  have htip : db.tip = some ⟨P.blockHash block.header, heightOf rest.length⟩ ∧
      (db.undo.get (P.blockHash block.header)).isSome := by
    generalize hchain : rest ++ [block] = chain at h
    cases h.built with
    | nil => simp at hchain
    | snoc prev acc =>
      obtain ⟨rfl, hb⟩ := append_inj' hchain rfl
      obtain rfl := singleton_injective hb
      simp [applied, prev.height_eq acc, Db.tip]
  refine ⟨htip.1, ?_⟩
  obtain ⟨undo, hundo⟩ := Option.isSome_iff_exists.mp htip.2
  have hplan : ∃ plan, planRollback db = .ok plan := by
    simp only [planRollback, ok_iff]
    exact ⟨_, _, htip.1, undo, hundo, rfl⟩
  obtain ⟨⟨batch, tip⟩, hplan⟩ := hplan
  obtain ⟨_, _, hsplit, hexact⟩ := h.detach hplan
  obtain ⟨rfl, -⟩ := append_inj' hsplit rfl
  refine ⟨db.write batch, tip, ?_, hexact⟩
  rw [rollbackTipLocked, hplan]
  rfl

lemma rollbackLoop_error {height : UInt32} {fuel : ℕ} {io : ℕ → Bool} {target : Block}
    (h : Exact P cfg db chain) (hpos : chain[height.toNat]? = some target)
    (htgt : P.blockHash target.header = ancestor) (hfuel : chain.length ≤ fuel)
    (hf : (rollbackLoop ancestor height fuel io db).2 = .error f) :
    f = .error .rocks := by
  induction fuel generalizing io db chain with
  | zero =>
    have hnil : chain = [] := length_eq_zero_iff.mp (by omega)
    simp [hnil] at hpos
  | succ _ ih =>
    have hlt : height.toNat < chain.length := (List.getElem?_eq_some_iff.mp hpos).1
    rcases eq_nil_or_concat chain with rfl | ⟨rest, _, rfl⟩
    · simp at hlt
    rw [concat_eq_append] at h hpos hlt hfuel
    rw [length_append, length_singleton] at hlt hfuel
    obtain ⟨htip, _, tip, hback, hexact⟩ := h.detachable
    have hshort := h.short
    rw [length_append, length_singleton] at hshort
    rw [rollbackLoop] at hf
    split_ifs at hf
    · simpa using hf.symm
    · rw [htip] at hf
      simp only at hf
      split_ifs at hf with hhash hhgt
      · -- The tip is not the ancestor, so the ancestor stands strictly below it.
        have hbelow : height.toNat < rest.length := by
          by_contra hge
          have hlast : height.toNat = rest.length := by omega
          rw [hlast] at hpos
          simp only [getElem?_concat_length, Option.some.injEq] at hpos
          exact hhash (hpos ▸ htgt)
        rw [UInt32.le_iff_toNat_le, toNat_heightOf_of_le (by omega)] at hhgt
        omega
      · rw [hback] at hf
        have hbelow : height.toNat < rest.length := by
          rw [UInt32.le_iff_toNat_le, toNat_heightOf_of_le (by omega)] at hhgt
          omega
        rw [getElem?_append_left hbelow] at hpos
        exact ih hexact hpos (by omega) hf

/-- The failures that must not change the store: all but those of a `rollback_to` that RocksDB stops
between two of its batches. -/
def FailsCleanly (f : Fault IndexError) : Call → Prop
  | .applyBlock .. => True
  | .rollbackTip _ => True
  | .rollbackTo .. => f ≠ .error .rocks
  | .reorganize .. => False

lemma call_failed {ix : Indexer} (h : Exact P cfg ix.db chain) {c : Call}
    (hf : (call P cfg ix c).2 = .error f) (hc : FailsCleanly f c) :
    (call P cfg ix c).1.db = ix.db := by
  unfold call at hf ⊢
  split_ifs at hf ⊢
  · rfl
  · cases c with
    | applyBlock | rollbackTip =>
      simp only [lockedCall] at hf ⊢
      split at hf <;> simp_all
    | rollbackTo io ancestor =>
      simp only [lockedCall] at hf ⊢
      have hf' : (rollbackToLocked io ix.db ancestor).2 = .error f := by
        cases hr : (rollbackToLocked io ix.db ancestor).2 with
        | ok => simp [hr, Except.map] at hf
        | error => simpa [hr, Except.map] using hf
      unfold rollbackToLocked at hf' ⊢
      cases hrec : canonicalAncestor (io 0) ix.db ancestor with
      | error => rfl
      | ok =>
        rw [hrec] at hf'
        obtain ⟨_, hpos, htgt⟩ := h.ancestor_pos hrec
        have hfuel : chain.length ≤ ix.db.undo.card + 1 := by
          rw [h.built.card_undo]
          omega
        exact absurd (rollbackLoop_error h hpos htgt hfuel hf') hc
    | reorganize => exact absurd hc id

/-- After every run the store is the replay of its canonical chain, which its heights list, and a
call that fails cleanly leaves it as it was. -/
theorem runCalls_path_independent (P : Platform) (cfg : IndexerConfig) (calls : List Call)
    (hheights : ∀ c ∈ calls, ∀ h ∈ c.heights, HeightBelowMax h) :
    let ix := runCalls P cfg .empty calls
    replay P cfg (canonicalChain ix.db) = .ok ix.db ∧
      (∀ h : UInt32,
        (ix.db.blockByHeight h).map BlockRecord.rawBlock = (canonicalChain ix.db)[h.toNat]?) ∧
      ∀ c f, (call P cfg ix c).2 = .error f → FailsCleanly f c →
        (call P cfg ix c).1.db = ix.db := by
  intro ix
  have hexact : Exact P cfg ix.db (canonicalChain ix.db) :=
    exact_of_moves (runCalls_moves Indexer.empty calls hheights)
  exact ⟨hexact.built.replay_eq hexact.short, hexact.blockByHeight_eq,
    fun c f hf hc => call_failed hexact hf hc⟩

def samplePlatform : Platform where
  sha256 _ := zeros
  computeTxid tx := replicate tx.lockTime.toUInt8
  blockHash header := replicate header.nonce.toUInt8
  isXOnly _ := true
  taprootOutputKey _ := ⟨zeros⟩
  decodeControlBlock _ := none
  overflowChecks := true

def sampleConfig : IndexerConfig := ⟨"verifier-v1", .empty⟩

/-- A block with one transaction that spends `input` and pays one output. -/
def sampleBlock (nonce : UInt32) (parent : BlockHash) (input : OutPoint) : Block where
  header := ⟨1, parent, zeros, 0, 0, nonce⟩
  txdata := [⟨2, nonce, [⟨input, [], 0, []⟩], [⟨1000, []⟩]⟩]
  fits := by simp [Transaction.footprint]

def sampleGenesis : Block := sampleBlock 1 zeros OutPoint.null

/-- A block that spends the output of the genesis block. -/
def sampleSpend : Block := sampleBlock 2 (replicate 1) ⟨replicate 1, 0⟩

def sampleCalls : List Call :=
  [.applyBlock true 0 sampleGenesis, .applyBlock true 1 sampleSpend, .rollbackTip true]

theorem runCalls_path_independent_sample :
    (∀ c ∈ sampleCalls, ∀ h ∈ c.heights, HeightBelowMax h) ∧
      canonicalChain (runCalls samplePlatform sampleConfig .empty sampleCalls).db =
        [sampleGenesis] ∧
      replay samplePlatform sampleConfig
          (canonicalChain (runCalls samplePlatform sampleConfig .empty sampleCalls).db) =
        .ok (runCalls samplePlatform sampleConfig .empty sampleCalls).db :=
  ⟨by decide, by decide,
    (runCalls_path_independent samplePlatform sampleConfig sampleCalls (by decide)).1⟩

def EndsAt (P : Platform) (ancestor : BlockHash) (chain : List Block) : Prop :=
  chain.getLast?.map (fun b => P.blockHash b.header) = some ancestor

section

lemma rollbackLoop_tip {height : UInt32} {fuel : ℕ} {io : ℕ → Bool}
    (h : rollbackLoop ancestor height fuel io db = (db', .ok ())) :
    db'.tip.map Tip.hash = some ancestor := by
  induction fuel generalizing io db with
  | zero => cases h
  | succ _ ih =>
    rw [rollbackLoop] at h
    split_ifs at h
    · cases h
    · split at h
      · cases h
      next htip =>
        split_ifs at h with hhash
        · cases h
          simp [htip, hhash]
        · cases h
        · split at h
          · cases h
          · exact ih h

variable (h : Tracks P cfg db chain)
include h

lemma Tracks.endsAt (htip : db.tip.map Tip.hash = some ancestor) : EndsAt P ancestor chain := by
  obtain ⟨_, hbuilt, hcore⟩ := h
  change db.core.tip.map Tip.hash = _ at htip
  rw [hcore] at htip
  cases hbuilt with
  | nil => cases htip
  | snoc => simpa [EndsAt, applied, Db.core, Db.tip] using htip

lemma Tracks.detached (hmoves : ReflTransGen (BlockStep P cfg fun _ => False) db db') :
    ∃ kept, kept <+: chain ∧ Tracks P cfg db' kept := by
  induction hmoves with
  | refl => exact ⟨chain, prefix_rfl, h⟩
  | tail _ step ih =>
    obtain ⟨kept, hkept, htracks⟩ := ih
    cases step with
    | attach _ ok => exact ok.elim
    | detach plan =>
      obtain ⟨_, rest, rfl, -, hrest⟩ := htracks.detach plan
      exact ⟨rest, (prefix_append _ _).trans hkept, hrest⟩

lemma Tracks.added (io : ℕ → Bool) (blocks : List (UInt32 × Block)) :
    let r := attachBlocks P cfg io blocks db
    ∃ added, added <+: blocks.map Prod.snd ∧ Tracks P cfg r.1 (chain ++ added) ∧
      ((∃ f, r.2 = .error f) ∨ added = blocks.map Prod.snd) := by
  induction blocks generalizing io db chain with
  | nil => exact ⟨[], prefix_rfl, by rwa [append_nil], .inr rfl⟩
  | cons p _ ih =>
    dsimp only [attachBlocks]
    split
    · exact ⟨[], nil_prefix, by rwa [append_nil], .inl ⟨_, rfl⟩⟩
    next happly =>
      simp only [applyBlockLocked, ok_iff, Prod.exists, Prod.mk.injEq] at happly
      obtain ⟨-, _, _, hplan, rfl, -⟩ := happly
      obtain ⟨added, hpre, htracks, hall⟩ := ih (h.attach hplan) _
      exact ⟨p.2 :: added, by simpa using hpre, by simpa using htracks, by simpa using hall⟩

end

/-- A reorganization leaves a prefix of the chain and the first new blocks; it fails, or these are
all of them, behind the ancestor. -/
theorem reorganize_chain (P : Platform) (cfg : IndexerConfig) (calls : List Call) (io : Bool)
    (detach attach : ℕ → Bool) (ancestor : BlockHash) (replacement : List (UInt32 × Block)) :
    let ix := runCalls P cfg .empty calls
    let r := call P cfg ix (.reorganize io detach attach ancestor replacement)
    ∃ kept added, kept <+: canonicalChain ix.db ∧ added <+: replacement.map Prod.snd ∧
      canonicalChain r.1.db = kept ++ added ∧ ((∃ f, r.2 = .error f) ∨
        EndsAt P ancestor kept ∧ added = replacement.map Prod.snd) := by
  intro ix
  have hmoves : ReflTransGen (BlockStep P cfg fun _ => True) Db.empty ix.db :=
    runCalls_moves Indexer.empty calls (by simp)
  have htracks := tracks_of_moves hmoves
  dsimp only [call, lockedCall, reorganizeLocked]
  split_ifs
  · exact ⟨_, [], prefix_rfl, nil_prefix, by simp, .inl ⟨_, rfl⟩⟩
  split
  · exact ⟨_, [], prefix_rfl, nil_prefix, by simp, .inl ⟨_, rfl⟩⟩
  obtain ⟨kept, hkept, hback⟩ := htracks.detached (rollbackToLocked_moves detach ix.db ancestor)
  split
  next heq =>
    rw [heq] at hback
    exact ⟨kept, [], hkept, nil_prefix, by simp [hback.canonicalChain_eq], .inl ⟨_, rfl⟩⟩
  next db' heq =>
    have htip : db'.tip.map Tip.hash = some ancestor := by
      rw [rollbackToLocked] at heq
      split at heq
      · cases heq
      · exact rollbackLoop_tip heq
    rw [heq] at hback
    obtain ⟨added, hpre, hatt, hall⟩ := hback.added attach replacement
    refine ⟨kept, added, hkept, hpre, hatt.canonicalChain_eq, ?_⟩
    rcases hall with ⟨f, hf⟩ | hall
    · exact .inl ⟨f, by simp only [hf]; rfl⟩
    · exact .inr ⟨hback.endsAt htip, hall⟩

end Catomicals.Index
