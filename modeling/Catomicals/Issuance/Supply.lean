import Catomicals.Issuance.Gate
import Mathlib.Algebra.BigOperators.Ring.Finset
import Mathlib.Algebra.Group.Action.Defs

/-!
# Supply over lanes and slots

The lanes of an issuance share its supply without loss, and the states of a lane count its share
down. A state lies on this chain exactly when its sequence number and its remaining supply add up to
the share, which the verifier does not check.
-/
namespace Catomicals.Issuance

open Base Base.Outcome IssuerState List

variable {lane : UInt8}

namespace IssuanceTerms

variable (t : IssuanceTerms)

lemma materializedLanes_pos : 0 < t.materializedLanes.toNat := by
  unfold materializedLanes
  cases t.successorRule with
  | recursiveIssuer => exact Nat.one_pos
  | shardedLanes =>
    change 0 < (if t.laneCount ≤ 1 then 1 else t.laneCount).toNat
    split_ifs with hle
    · exact Nat.one_pos
    · rw [UInt8.not_le, UInt8.lt_iff_toNat_lt] at hle
      exact Nat.zero_lt_of_lt hle

lemma base_add_one_lt (h : lane.toUInt32 < t.totalSupply % t.materializedLanes.toUInt32) :
    (t.totalSupply / t.materializedLanes.toUInt32).toNat + 1 < 2 ^ 32 := by
  have htotal := t.totalSupply.toNat_lt
  have hlanes := t.materializedLanes_pos
  rw [UInt32.lt_iff_toNat_lt, UInt32.toNat_mod] at h
  rw [UInt32.toNat_div]
  simp only [UInt8.toNat_toUInt32] at h ⊢
  have hmod := Nat.mod_lt t.totalSupply.toNat hlanes
  have htwo : 2 ≤ t.materializedLanes.toNat := by omega
  have hdiv : t.totalSupply.toNat / t.materializedLanes.toNat ≤ t.totalSupply.toNat / 2 :=
    Nat.div_le_div_left htwo (by decide)
  omega

lemma toNat_laneSupply (lane : UInt8) :
    (t.laneSupply lane).toNat = t.totalSupply.toNat / t.materializedLanes.toNat +
      if lane.toNat < t.totalSupply.toNat % t.materializedLanes.toNat then 1 else 0 := by
  have hlt : lane.toUInt32 < t.totalSupply % t.materializedLanes.toUInt32 ↔
      lane.toNat < t.totalSupply.toNat % t.materializedLanes.toNat := by
    rw [UInt32.lt_iff_toNat_lt, UInt32.toNat_mod]
    simp only [UInt8.toNat_toUInt32]
  simp only [laneSupply]
  by_cases h : lane.toUInt32 < t.totalSupply % t.materializedLanes.toUInt32
  · have hbase := t.base_add_one_lt h
    rw [if_pos h, if_pos (hlt.mp h), toNat_add_of_lt (by simpa using hbase), UInt32.toNat_div,
      UInt8.toNat_toUInt32, UInt32.toNat_one]
  · rw [if_neg h, if_neg (fun hn => h (hlt.mpr hn)), UInt32.toNat_div, UInt8.toNat_toUInt32,
      Nat.add_zero]

lemma sum_laneSupply :
    ∑ lane ∈ Finset.range t.materializedLanes.toNat, (t.laneSupply (UInt8.ofNat lane)).toNat =
      t.totalSupply.toNat := by
  have hlanes := t.materializedLanes_pos
  have hbound := t.materializedLanes.toNat_lt
  have hmod := Nat.mod_lt t.totalSupply.toNat hlanes
  have hshare : ∀ lane ∈ Finset.range t.materializedLanes.toNat,
      (t.laneSupply (UInt8.ofNat lane)).toNat =
        t.totalSupply.toNat / t.materializedLanes.toNat +
          if lane < t.totalSupply.toNat % t.materializedLanes.toNat then 1 else 0 := by
    intro lane hlane
    rw [Finset.mem_range] at hlane
    have hnat : (UInt8.ofNat lane).toNat = lane := by
      rw [UInt8.toNat_ofNat']
      omega
    rw [toNat_laneSupply, hnat]
  -- The lanes below the remainder are the ones with an increment.
  have hextra : (Finset.range t.materializedLanes.toNat).filter
      (· < t.totalSupply.toNat % t.materializedLanes.toNat) =
        Finset.range (t.totalSupply.toNat % t.materializedLanes.toNat) := by
    ext lane
    simp only [Finset.mem_filter, Finset.mem_range]
    omega
  rw [Finset.sum_congr rfl hshare, Finset.sum_add_distrib, Finset.sum_const, Finset.card_range,
    ← Finset.card_filter, hextra, Finset.card_range, smul_eq_mul, Nat.div_add_mod]

end IssuanceTerms

variable {terms : IssuanceTerms}

namespace IssuerState

/-- The state after `n` mints, or nothing when the lane ends before. -/
def successors : ℕ → IssuerState → Except StateError (Option IssuerState)
  | 0, s => .ok (some s)
  | n + 1, s => do
    match ← s.successor with
    | none => return none
    | some next => next.successors n

/-- The states of one lane: `s` is `i` slots behind `s₀`. -/
structure Behind (s₀ s : IssuerState) (i : ℕ) : Prop where
  termsHash : s.termsHash = s₀.termsHash
  lane : s.lane = s₀.lane
  targetPrefix : s.targetPrefix = s₀.targetPrefix
  seq : s.seq.toNat = s₀.seq.toNat + i
  remaining : s.remaining.toNat + i = s₀.remaining.toNat

variable {s : IssuerState}

/-- A step of a lane whose sequence numbers fit: it ends at the last slot and else moves on. -/
lemma successor_cases (hpos : s.remaining ≠ 0) (hfits : s.seq.toNat + s.remaining.toNat < 2 ^ 32) :
    (s.remaining.toNat = 1 ∧ s.successor = .ok none) ∨
      ∃ next, s.successor = .ok (some next) ∧ Behind s next 1 ∧ next.remaining ≠ 0 := by
  have hnat : 1 ≤ s.remaining.toNat := by
    have hne : s.remaining.toNat ≠ 0 := fun h => hpos (UInt32.toNat_inj.mp h)
    omega
  have hseq : (s.seq + 1).toNat = s.seq.toNat + 1 := by
    rw [toNat_add_of_lt] <;> rw [UInt32.toNat_one]
    omega
  have hsub : (s.remaining - 1).toNat = s.remaining.toNat - 1 := by
    have hle : 1 ≤ s.remaining := UInt32.le_iff_toNat_le.mpr (by rw [UInt32.toNat_one]; exact hnat)
    rw [UInt32.toNat_sub_of_le _ _ hle, UInt32.toNat_one]
  have hzero : s.remaining - 1 = 0 ↔ s.remaining.toNat = 1 := by
    rw [← UInt32.toNat_inj, hsub, UInt32.toNat_zero]
    omega
  simp only [successor, if_neg hpos, if_pos (show s.seq.toNat + 1 < 2 ^ 32 by omega)]
  by_cases hone : s.remaining.toNat = 1
  · exact .inl ⟨hone, if_pos (hzero.mpr hone)⟩
  · have hnext : s.remaining - 1 ≠ 0 := fun h => hone (hzero.mp h)
    refine .inr ⟨_, if_neg hnext, ⟨rfl, rfl, rfl, hseq, ?_⟩, hnext⟩
    change (s.remaining - 1).toNat + 1 = s.remaining.toNat
    omega

lemma Behind.trans {s₀ s₁ s₂ : IssuerState} {i j : ℕ} (h₁ : Behind s₀ s₁ i)
    (h₂ : Behind s₁ s₂ j) : Behind s₀ s₂ (i + j) where
  termsHash := h₂.termsHash.trans h₁.termsHash
  lane := h₂.lane.trans h₁.lane
  targetPrefix := h₂.targetPrefix.trans h₁.targetPrefix
  seq := by rw [h₂.seq, h₁.seq]; omega
  remaining := by have hr₁ := h₁.remaining; have hr₂ := h₂.remaining; omega

lemma Behind.unique {s₀ t : IssuerState} {i : ℕ} (hs : Behind s₀ s i) (ht : Behind s₀ t i) :
    s = t := by
  have hseq : s.seq = t.seq := UInt32.toNat_inj.mp (hs.seq.trans ht.seq.symm)
  have hrem : s.remaining = t.remaining := by
    have hsr := hs.remaining
    have htr := ht.remaining
    exact UInt32.toNat_inj.mp (by omega)
  have hhash := hs.termsHash.trans ht.termsHash.symm
  have hlane := hs.lane.trans ht.lane.symm
  have htgt := hs.targetPrefix.trans ht.targetPrefix.symm
  cases s
  cases t
  simp_all only

lemma successors_exhausted (h : s.remaining = 0) (n : ℕ) : s.successors (n + 1) = .ok none := by
  rw [successors, successor, if_pos h]
  rfl

lemma successors_cases (s : IssuerState) (hpos : s.remaining ≠ 0)
    (hfits : s.seq.toNat + s.remaining.toNat < 2 ^ 32) (i : ℕ) :
    (i < s.remaining.toNat ∧ ∃ si, s.successors i = .ok (some si) ∧ Behind s si i) ∨
      (s.remaining.toNat ≤ i ∧ s.successors i = .ok none) := by
  -- By induction on the number of mints; the state one slot on has the same sum.
  induction i generalizing s with
  | zero =>
    have hne : s.remaining.toNat ≠ 0 := fun h => hpos (UInt32.toNat_inj.mp h)
    exact .inl ⟨by omega, s, rfl, rfl, rfl, rfl, rfl, rfl⟩
  | succ i ih =>
    rcases successor_cases hpos hfits with ⟨_, hnone⟩ | ⟨next, hsome, hnext, hnextpos⟩
    · exact .inr ⟨by omega, by rw [successors, hnone]; rfl⟩
    · have hseq := hnext.seq
      have hrem := hnext.remaining
      have hstep : s.successors (i + 1) = next.successors i := by
        rw [successors, hsome]
        rfl
      rw [hstep]
      rcases ih next hnextpos (by omega) with ⟨_, si, hsi, hbehind⟩ | ⟨_, hnone⟩
      · refine .inl ⟨by omega, si, hsi, ?_⟩
        have hsum := hnext.trans hbehind
        rwa [Nat.add_comm] at hsum
      · exact .inr ⟨by omega, hnone⟩

lemma initial_eq_ok_iff {P : Platform} :
    initial P terms lane = .ok s ↔
      terms.targetPrefix ≤ 32 ∧ lane < terms.materializedLanes ∧
        s = ⟨terms.termsHash P, lane, 0, terms.laneSupply lane, terms.targetPrefix⟩ := by
  unfold initial
  split_ifs with hrange hlane
  · simp [UInt8.not_le.mpr hrange]
  · simp [UInt8.not_lt.mpr hlane]
  · simp [UInt8.not_lt.mp hrange, UInt8.not_le.mp hlane, eq_comm]

lemma successors_initial {P : Platform} (h : initial P terms lane = .ok s)
    (hsupply : terms.laneSupply lane ≠ 0) (i : ℕ) :
    (i < (terms.laneSupply lane).toNat ∧ ∃ si, s.successors i = .ok (some si) ∧ Behind s si i) ∨
      ((terms.laneSupply lane).toNat ≤ i ∧ s.successors i = .ok none) := by
  obtain ⟨-, -, hs⟩ := initial_eq_ok_iff.mp h
  have hrem : s.remaining = terms.laneSupply lane := by rw [hs]
  have hseq : s.seq.toNat = 0 := by rw [hs, UInt32.toNat_zero]
  rw [← hrem] at hsupply ⊢
  apply successors_cases s hsupply
  rw [hseq, Nat.zero_add]
  exact s.remaining.toNat_lt

end IssuerState

/-- The lanes share the total supply exactly, and every lane counts its share down to its end. -/
theorem laneSupply_conserved (P : Platform) (terms : IssuanceTerms)
    (hrange : terms.targetPrefix ≤ 32) :
    (∑ lane ∈ Finset.range terms.materializedLanes.toNat,
        (terms.laneSupply (UInt8.ofNat lane)).toNat = terms.totalSupply.toNat) ∧
      (∀ lane : UInt8, lane.toUInt32 < terms.totalSupply % terms.materializedLanes.toUInt32 →
        (terms.totalSupply / terms.materializedLanes.toUInt32).toNat + 1 < 2 ^ 32) ∧
      ∀ lane < terms.materializedLanes, terms.laneSupply lane ≠ 0 →
        ∃ s, initial P terms lane = .ok s ∧
          (∀ i < (terms.laneSupply lane).toNat, ∃ si, s.successors i = .ok (some si) ∧
            si.seq.toNat = i ∧
            si.seq.toNat + si.remaining.toNat = (terms.laneSupply lane).toNat) ∧
          ∀ i, (terms.laneSupply lane).toNat ≤ i → s.successors i = .ok none := by
  refine ⟨terms.sum_laneSupply, fun lane => terms.base_add_one_lt, ?_⟩
  intro lane hlane hsupply
  have hinit := (initial_eq_ok_iff (P := P)).mpr ⟨hrange, hlane, rfl⟩
  refine ⟨_, hinit, ?_, ?_⟩
  · intro i hi
    rcases successors_initial hinit hsupply i with ⟨-, si, hsi, hbehind⟩ | ⟨_, -⟩
    · have hseq : si.seq.toNat = i := by
        rw [hbehind.seq, UInt32.toNat_zero, Nat.zero_add]
      have hrem : si.remaining.toNat + i = (terms.laneSupply lane).toNat := hbehind.remaining
      exact ⟨si, hsi, hseq, by omega⟩
    · omega
  · intro i _
    rcases successors_initial hinit hsupply i with ⟨_, -⟩ | ⟨-, hnone⟩
    · omega
    · exact hnone

def threeLanes : IssuanceTerms where
  itemId := .zeros
  targetPrefix := 1
  totalSupply := 10
  successorRule := .shardedLanes
  laneCount := 3
  salt := .zeros
  metadata := []

theorem laneSupply_conserved_threeLanes :
    (threeLanes.laneSupply 0, threeLanes.laneSupply 1, threeLanes.laneSupply 2) = (4, 3, 3) ∧
      ∃ s, initial onesPlatform threeLanes 0 = .ok s ∧
        ∀ i, (threeLanes.laneSupply 0).toNat ≤ i → s.successors i = .ok none := by
  obtain ⟨s, hinit, -, hend⟩ :=
    (laneSupply_conserved onesPlatform threeLanes (by decide)).2.2 0 (by decide) (by decide)
  exact ⟨by decide, s, hinit, hend⟩

/-- The state is the first one of its lane or comes after it. -/
def IssuerState.Reachable (P : Platform) (terms : IssuanceTerms) (s : IssuerState) : Prop :=
  ∃ first n, initial P terms s.lane = .ok first ∧ first.successors n = .ok (some s)

/-- The sequence number and the remaining supply add up to the share of the lane. -/
def IssuerState.Balanced (terms : IssuanceTerms) (s : IssuerState) : Prop :=
  s.seq.toNat + s.remaining.toNat = (terms.laneSupply s.lane).toNat

def Minted (P : Platform) (terms : IssuanceTerms) (v : VerifiedMint) : Prop :=
  ∃ tx outpoint utxo, verifyMint P tx outpoint utxo terms = .ok v

variable {P : Platform}

lemma Minted.state {v : VerifiedMint} (h : Minted P terms v) :
    v.issuerState.termsHash = terms.termsHash P ∧ v.issuerState.targetPrefix = terms.targetPrefix ∧
      v.issuerState.lane < terms.materializedLanes ∧ v.issuerState.remaining ≠ 0 ∧
      terms.targetPrefix ≤ 32 := by
  obtain ⟨_, _, _, hverify⟩ := h
  obtain ⟨hterms, hmeets⟩ := verifyMint_work hverify
  simp only [checkTerms, ok_iff] at hterms
  obtain ⟨hhash, htgt, hlane, hpos⟩ := hterms
  have hle := targetPrefix_le_of_meetsTarget hmeets
  rw [htgt] at hle
  exact ⟨hhash, htgt, hlane, hpos, UInt8.le_iff_toNat_le.mpr hle⟩

namespace IssuerState

variable {s : IssuerState}

lemma Reachable.behind (h : s.Reachable P terms) :
    terms.targetPrefix ≤ 32 ∧ s.lane < terms.materializedLanes ∧
      ∃ n, Behind ⟨terms.termsHash P, s.lane, 0, terms.laneSupply s.lane, terms.targetPrefix⟩ s
        n := by
  obtain ⟨_, n, hinit, hn⟩ := h
  obtain ⟨hrange, hlane, rfl⟩ := initial_eq_ok_iff.mp hinit
  refine ⟨hrange, hlane, n, ?_⟩
  by_cases hsupply : terms.laneSupply s.lane = 0
  -- a lane without supply has its first state only
  · cases n with
    | zero =>
      rw [successors, Except.ok.injEq, Option.some.injEq] at hn
      exact hn ▸ ⟨rfl, rfl, rfl, rfl, rfl⟩
    | succ =>
      rw [successors_exhausted hsupply] at hn
      simp at hn
  rcases successors_initial hinit hsupply n with ⟨-, _, hsi, hbehind⟩ | ⟨-, hnone⟩
  · rw [hsi, Except.ok.injEq, Option.some.injEq] at hn
    rwa [hn] at hbehind
  · rw [hnone] at hn
    simp at hn

lemma Reachable.balanced (h : s.Reachable P terms) : s.Balanced terms := by
  obtain ⟨-, -, n, hbehind⟩ := h.behind
  have hseq : s.seq.toNat = 0 + n := hbehind.seq
  have hrem : s.remaining.toNat + n = (terms.laneSupply s.lane).toNat := hbehind.remaining
  unfold Balanced
  omega

/-- A state that agrees with the terms lies on its lane's chain exactly when its sum is the lane's
share. -/
lemma reachable_iff_balanced (hhash : s.termsHash = terms.termsHash P)
    (htgt : s.targetPrefix = terms.targetPrefix) (hlane : s.lane < terms.materializedLanes)
    (hpos : s.remaining ≠ 0) (hrange : terms.targetPrefix ≤ 32) :
    s.Reachable P terms ↔ s.Balanced terms := by
  have hposnat : s.remaining.toNat ≠ 0 := fun h => hpos (UInt32.toNat_inj.mp h)
  constructor
  · exact Reachable.balanced
  · intro hsum
    unfold Balanced at hsum
    have hsupply : terms.laneSupply s.lane ≠ 0 := by
      intro hzero
      rw [hzero, UInt32.toNat_zero] at hsum
      omega
    have hinit := (initial_eq_ok_iff (P := P)).mpr ⟨hrange, hlane, rfl⟩
    refine ⟨_, s.seq.toNat, hinit, ?_⟩
    rcases successors_initial hinit hsupply s.seq.toNat with ⟨-, _, hsi, hbehind⟩ | ⟨_, -⟩
    · rw [hsi]
      have hs : Behind ⟨terms.termsHash P, s.lane, 0, terms.laneSupply s.lane,
          terms.targetPrefix⟩ s s.seq.toNat := by
        refine ⟨hhash, rfl, htgt, ?_, ?_⟩
        · rw [UInt32.toNat_zero, Nat.zero_add]
        · rw [← hsum, Nat.add_comm]
      rw [hbehind.unique hs]
    · omega

end IssuerState

/-- Balanced mints of one lane in different slots are at most the share of the lane. -/
lemma length_le_laneSupply {mints : List VerifiedMint} (hminted : ∀ v ∈ mints, Minted P terms v)
    (hbal : ∀ v ∈ mints, v.issuerState.Balanced terms)
    (hlane : ∀ v ∈ mints, v.issuerState.lane = lane)
    (hslots : (mints.map (·.issuerState.seq)).Nodup) :
    mints.length ≤ (terms.laneSupply lane).toNat := by
  have hseq : ∀ v ∈ mints, v.issuerState.seq.toNat < (terms.laneSupply lane).toNat := by
    intro v hv
    have hpos : v.issuerState.remaining.toNat ≠ 0 :=
      fun h => (hminted v hv).state.2.2.2.1 (UInt32.toNat_inj.mp h)
    have hsum := hbal v hv
    rw [IssuerState.Balanced, hlane v hv] at hsum
    omega
  have hnodup : (mints.map (·.issuerState.seq.toNat)).Nodup := by
    have hmap := hslots.map (fun a b h => UInt32.toNat_inj.mp h)
    rwa [map_map] at hmap
  have hsub : mints.map (·.issuerState.seq.toNat) ⊆ range (terms.laneSupply lane).toNat := by
    intro i hi
    obtain ⟨v, hv, rfl⟩ := mem_map.mp hi
    exact mem_range.mpr (hseq v hv)
  have hlen := (hnodup.subperm hsub).length_le
  rwa [length_map, length_range] at hlen

/-- The state of an accepted mint lies on the chain of its lane exactly when it is balanced, and
balanced mints in different slots never exceed the supply of a lane. -/
theorem verifyMint_reachable_iff (P : Platform) (terms : IssuanceTerms) :
    (∀ tx outpoint utxo v, verifyMint P tx outpoint utxo terms = .ok v →
      (v.issuerState.Reachable P terms ↔ v.issuerState.Balanced terms)) ∧
    ∀ mints : List VerifiedMint, (∀ v ∈ mints, Minted P terms v ∧ v.issuerState.Balanced terms) →
      (mints.map fun v => (v.issuerState.lane, v.issuerState.seq)).Nodup →
      ∀ lane, (mints.filter (·.issuerState.lane = lane)).length ≤
        (terms.laneSupply lane).toNat := by
  constructor
  · intro tx outpoint utxo v h
    obtain ⟨hhash, htgt, hlane, hpos, hrange⟩ := Minted.state ⟨tx, outpoint, utxo, h⟩
    exact reachable_iff_balanced hhash htgt hlane hpos hrange
  · intro mints hmints hslots lane
    have hmem : ∀ v ∈ mints.filter (·.issuerState.lane = lane),
        v ∈ mints ∧ v.issuerState.lane = lane := by
      intro v hv
      simpa using hv
    refine length_le_laneSupply (fun v hv => (hmints v (hmem v hv).1).1)
      (fun v hv => (hmints v (hmem v hv).1).2) (fun v hv => (hmem v hv).2) ?_
    -- Within one lane the slots differ in their sequence numbers.
    have hsub : (mints.filter (·.issuerState.lane = lane)).Sublist mints := filter_sublist
    have hpairs := hslots.sublist (hsub.map fun v => (v.issuerState.lane, v.issuerState.seq))
    refine List.Nodup.of_map (fun seq => (lane, seq)) ?_
    rw [map_map]
    convert hpairs using 1
    apply map_congr_left
    intro v hv
    simp [(hmem v hv).2]

def singleItem : IssuanceTerms where
  itemId := .zeros
  targetPrefix := 1
  totalSupply := 1
  successorRule := .recursiveIssuer
  laneCount := 1
  salt := .zeros
  metadata := []

def laneState (seq remaining : UInt32) : IssuerState := ⟨.replicate 1, 0, seq, remaining, 1⟩

def issuerUtxo (s : IssuerState) : TxOut := ⟨10, canonicalIssuerSpk onesPlatform s⟩

def mintFrom (s : IssuerState) (outpoint : OutPoint) (successors : List TxOut) : Transaction where
  version := 2
  lockTime := 0
  input := [{ previousOutput := outpoint, scriptSig := [], sequence := 0,
              witness := [replicate 8 0, replicate 32 1, replicate 31 1,
                replicate 32 3, [], issuerScript s, []] }]
  output := ⟨1, itemOwnerScript ⟨.replicate 3⟩⟩ :: successors

lemma not_reachable_laneState {seq remaining : UInt32} (hpos : remaining ≠ 0)
    (hsum : seq.toNat + remaining.toNat ≠ 1) :
    ¬(laneState seq remaining).Reachable onesPlatform singleItem := by
  have hbal : ¬(laneState seq remaining).Balanced singleItem := hsum
  have hlane : (0 : UInt8) < singleItem.materializedLanes := by decide
  rwa [← reachable_iff_balanced (P := onesPlatform) rfl rfl hlane hpos
    (by decide)] at hbal

/-- An output that claims two items left is minted twice, although the lane has one. -/
theorem verifyMint_overmints :
    singleItem.laneSupply 0 = 1 ∧
      ∃ v w, verifyMint onesPlatform
          (mintFrom (laneState 0 2) ⟨.zeros, 0⟩
            [⟨5, canonicalIssuerSpk onesPlatform (laneState 1 1)⟩])
          ⟨.zeros, 0⟩ (issuerUtxo (laneState 0 2)) singleItem = .ok v ∧
        verifyMint onesPlatform (mintFrom (laneState 1 1) ⟨.zeros, 1⟩ []) ⟨.zeros, 1⟩
          (issuerUtxo (laneState 1 1)) singleItem = .ok w ∧
        v.issuerState.seq ≠ w.issuerState.seq ∧
        ¬v.issuerState.Reachable onesPlatform singleItem ∧
        ¬w.issuerState.Reachable onesPlatform singleItem := by
  have hfirst : (verifyMint onesPlatform
      (mintFrom (laneState 0 2) ⟨.zeros, 0⟩ [⟨5, canonicalIssuerSpk onesPlatform (laneState 1 1)⟩])
      ⟨.zeros, 0⟩ (issuerUtxo (laneState 0 2)) singleItem).toOption.map (·.issuerState) =
        some (laneState 0 2) := by decide +kernel
  have hsnd : (verifyMint onesPlatform (mintFrom (laneState 1 1) ⟨.zeros, 1⟩ []) ⟨.zeros, 1⟩
      (issuerUtxo (laneState 1 1)) singleItem).toOption.map (·.issuerState) =
        some (laneState 1 1) := by decide +kernel
  obtain ⟨v, hv, hvstate⟩ := exists_ok_of_toOption hfirst
  obtain ⟨w, hw, hwstate⟩ := exists_ok_of_toOption hsnd
  refine ⟨by decide, v, w, hv, hw, ?_⟩
  rw [hvstate, hwstate]
  exact ⟨by decide, not_reachable_laneState (by decide) (by decide),
    not_reachable_laneState (by decide) (by decide)⟩

/-- The one mint from the balanced state of the lane is on its chain. -/
theorem verifyMint_reachable_iff_sole :
    ∃ v, verifyMint onesPlatform (mintFrom (laneState 0 1) ⟨.zeros, 0⟩ []) ⟨.zeros, 0⟩
        (issuerUtxo (laneState 0 1)) singleItem = .ok v ∧
      v.issuerState.Reachable onesPlatform singleItem := by
  have hmint : (verifyMint onesPlatform (mintFrom (laneState 0 1) ⟨.zeros, 0⟩ []) ⟨.zeros, 0⟩
      (issuerUtxo (laneState 0 1)) singleItem).toOption.map (·.issuerState) =
        some (laneState 0 1) := by decide +kernel
  obtain ⟨v, hv, hstate⟩ := exists_ok_of_toOption hmint
  refine ⟨v, hv, ((verifyMint_reachable_iff onesPlatform singleItem).1 _ _ _ v hv).mpr ?_⟩
  rw [hstate]
  exact (by decide : (0 : UInt32).toNat + (1 : UInt32).toNat = (singleItem.laneSupply 0).toNat)

end Catomicals.Issuance
