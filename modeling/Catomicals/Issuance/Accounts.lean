import Catomicals.Issuance.Panics
import Catomicals.Issuance.Supply

/-!
# The outputs and the amounts of an accepted mint

A miner who names the output key of the next issuer state as the owner makes one output pass for the
item and the successor. The amounts are added in 64 bits, so a sum may panic or wrap around.
-/
namespace Catomicals.Issuance

open Base Base.Outcome List

variable {P : Platform} {tx : Transaction} {outpoint : OutPoint} {utxo : TxOut}
  {terms : IssuanceTerms} {v : VerifiedMint}

section Outputs

/-- The item and the successor are two outputs of the transaction, and there is no other. -/
structure FullyClassified (tx : Transaction) (v : VerifiedMint) : Prop where
  successor : v.successorOutputIndex.isSome = v.successorState.isSome
  distinct : v.successorOutputIndex ≠ some v.itemOutputIndex
  all : ∀ i, i < tx.output.length ↔ i = v.itemOutputIndex ∨ v.successorOutputIndex = some i

/-- The outputs of an accepted mint are classified in full, unless the owner's key is the output
key of the successor. -/
theorem fullyClassified_iff (h : verifyMint P tx outpoint utxo terms = .ok v) :
    FullyClassified tx v ↔ ∀ next, v.successorState = some next →
      v.witness.ownerKey ≠ P.taprootOutputKey (issuerScript next) := by
  obtain ⟨_, -, houts, rfl, -⟩ := verifyMint_settles h
  obtain ⟨hitem, hout⟩ := classifyOutputs_eq_ok houts
  obtain ⟨_, ho, hscr⟩ := mem_outputIndices.mp (hitem ▸ mem_singleton_self _)
  have hlt := (List.getElem?_eq_some_iff.mp ho).1
  rcases hout with ⟨hnone, hindex, _⟩ | ⟨next, j, hnext, hindex, hj, _⟩
  · simp only at hnone hindex hlt
    refine iff_of_true ⟨by rw [hnone, hindex]; rfl, by simp [hindex], fun i => ?_⟩ (by simp [hnone])
    simp only [hindex, reduceCtorEq, or_false]
    omega
  · simp only at hnext hindex hlt hitem
    obtain ⟨_, ho', hscr'⟩ := mem_outputIndices.mp (hj ▸ mem_singleton_self j)
    have hjlt := (List.getElem?_eq_some_iff.mp ho').1
    constructor
    · intro hfull _ hnext' hkey
      -- the two scripts are the same, so the same output is found for both
      cases hnext.symm.trans hnext'
      rw [itemOwnerScript, hkey] at hitem
      obtain rfl : j = v.itemOutputIndex := singleton_inj.mp (hj.symm.trans hitem)
      exact hfull.distinct hindex
    · intro hkeys
      have hne : j ≠ v.itemOutputIndex := by
        rintro rfl
        cases ho.symm.trans ho'
        exact hkeys next hnext (p2trOutputScript_inj (hscr.symm.trans hscr'))
      refine ⟨by rw [hnext, hindex]; rfl, by simpa [hindex] using hne, fun i => ?_⟩
      rw [hindex, Option.some.injEq]
      omega

end Outputs

/-- A mint whose owner is the output key of the next state. Nothing is said of its second output. -/
def selfOwnedMint : Transaction where
  version := 2
  lockTime := 0
  input := [⟨⟨.zeros, 0⟩, [], 0, [replicate 8 0, replicate 32 1, replicate 31 1,
    (onesPlatform.taprootOutputKey (issuerScript (laneState 1 1))).serialize.bytes, [],
    issuerScript (laneState 0 2), []]⟩]
  output := [⟨1, canonicalIssuerSpk onesPlatform (laneState 1 1)⟩, ⟨5, []⟩]

/-- One output is taken for the item and the successor, and the other for neither. -/
theorem selfOwnedMint_unclassified :
    ∃ v, verifyMint onesPlatform selfOwnedMint ⟨.zeros, 0⟩ (issuerUtxo (laneState 0 2))
        singleItem = .ok v ∧ v.successorOutputIndex = some v.itemOutputIndex ∧
      ¬FullyClassified selfOwnedMint v := by
  have hmint : (verifyMint onesPlatform selfOwnedMint ⟨.zeros, 0⟩ (issuerUtxo (laneState 0 2))
      singleItem).toOption.map (fun v => (v.itemOutputIndex, v.successorOutputIndex)) =
        some (0, some 0) := by decide +kernel
  obtain ⟨v, hv, hindices⟩ := exists_ok_of_toOption hmint
  obtain ⟨hitem, hsucc⟩ := Prod.mk.inj hindices
  have hsame : v.successorOutputIndex = some v.itemOutputIndex := by rw [hitem, hsucc]
  exact ⟨v, hv, hsame, fun hfull => hfull.distinct hsame⟩

/-- An ordinary mint with a successor. -/
theorem fullyClassified_iff_ordinary :
    ∃ v, verifyMint onesPlatform (mintFrom (laneState 0 2) ⟨.zeros, 0⟩
        [⟨5, canonicalIssuerSpk onesPlatform (laneState 1 1)⟩]) ⟨.zeros, 0⟩
        (issuerUtxo (laneState 0 2)) singleItem = .ok v ∧
      FullyClassified (mintFrom (laneState 0 2) ⟨.zeros, 0⟩
        [⟨5, canonicalIssuerSpk onesPlatform (laneState 1 1)⟩]) v := by
  have hmint : (verifyMint onesPlatform (mintFrom (laneState 0 2) ⟨.zeros, 0⟩
      [⟨5, canonicalIssuerSpk onesPlatform (laneState 1 1)⟩]) ⟨.zeros, 0⟩
      (issuerUtxo (laneState 0 2)) singleItem).toOption.map
        (fun v => (v.successorState, v.witness.ownerKey)) =
          some (some (laneState 1 1), ⟨.replicate 3⟩) := by decide +kernel
  obtain ⟨v, hv, hread⟩ := exists_ok_of_toOption hmint
  obtain ⟨hnext, howner⟩ := Prod.mk.inj hread
  refine ⟨v, hv, (fullyClassified_iff hv).mpr fun next hstate => ?_⟩
  cases hnext.symm.trans hstate
  rw [howner]
  decide +kernel

section Amounts

/-- A sum of `u64` values without a panic is exact up to the word size. -/
lemma toNat_sumU64 {checks : Bool} {values : List UInt64} {sum : UInt64}
    (h : sumU64 checks values = .ok sum) :
    sum.toNat = (values.map UInt64.toNat).sum % 2 ^ 64 := by
  have hloop : ∀ acc : UInt64, values.foldlM (addU64 checks) acc = .ok sum →
      sum.toNat = (acc.toNat + (values.map UInt64.toNat).sum) % 2 ^ 64 := by
    clear h
    induction values with
    | nil =>
      intro acc hacc
      obtain rfl : acc = sum := by simpa using hacc
      simp [Nat.mod_eq_of_lt acc.toNat_lt]
    | cons value _ ih =>
      intro acc hacc
      rw [foldlM_cons, addU64] at hacc
      split_ifs at hacc
      · simp [bind, Except.bind] at hacc
      · rw [ih (acc + value) hacc, UInt64.toNat_add, Nat.mod_add_mod, map_cons, sum_cons,
          Nat.add_assoc]
  simpa using hloop 0 h

lemma sumU64_of_lt (checks : Bool) (values : List UInt64)
    (h : (values.map UInt64.toNat).sum < 2 ^ 64) :
    ∃ sum, sumU64 checks values = .ok sum ∧ sum.toNat = (values.map UInt64.toNat).sum := by
  cases hsum : sumU64 checks values with
  | error p =>
    have hover := ((sumU64_panics_iff checks values).mp ⟨p, hsum⟩).2
    omega
  | ok sum => exact ⟨sum, rfl, by rw [toNat_sumU64 hsum, Nat.mod_eq_of_lt h]⟩

/-- Verification does not panic, and an accepted mint is balanced over the natural numbers. -/
def Conserves (P : Platform) (tx : Transaction) (outpoint : OutPoint) (utxo : TxOut)
    (terms : IssuanceTerms) : Prop :=
  ¬Panics (verifyMint P tx outpoint utxo terms) ∧
    ∀ v, verifyMint P tx outpoint utxo terms = .ok v →
      (tx.output.map fun o => o.value.toNat).sum + v.fee.toNat = utxo.value.toNat ∧ 0 < v.fee.toNat

/-- It passes every step before the value balance, with outputs that do not fit into a `u64`: the
build checks overflow, or the wrapped sum leaves a fee. -/
def MisaddedMint (P : Platform) (tx : Transaction) (outpoint : OutPoint) (utxo : TxOut)
    (terms : IssuanceTerms) : Prop :=
  let total := (tx.output.map fun o => o.value.toNat).sum
  2 ^ 64 ≤ total ∧ (P.overflowChecks = true ∨ total % 2 ^ 64 < utxo.value.toNat) ∧
    ∃ spend mw outs, checkIssuerSpend P tx outpoint utxo = .ok spend ∧
      checkMintWork P terms spend = .ok mw ∧ classifyOutputs P tx spend.state mw = .ok outs

lemma exists_verifyMint {P : Platform} {tx : Transaction} {outpoint : OutPoint} {utxo : TxOut}
    {terms : IssuanceTerms} {spend : IssuerSpend} {mw : MintWitness} {outs : MintOutputs}
    {sum : UInt64} (hspend : checkIssuerSpend P tx outpoint utxo = .ok spend)
    (hmw : checkMintWork P terms spend = .ok mw)
    (houts : classifyOutputs P tx spend.state mw = .ok outs)
    (hsum : sumU64 P.overflowChecks (tx.output.map TxOut.value) = .ok sum)
    (hlt : sum.toNat < utxo.value.toNat) : ∃ v, verifyMint P tx outpoint utxo terms = .ok v := by
  have hle : sum ≤ utxo.value := UInt64.le_iff_toNat_le.mpr hlt.le
  have hfee : utxo.value - sum ≠ 0 := by
    intro hzero
    have hsub := UInt64.toNat_sub_of_le _ _ hle
    rw [hzero, UInt64.toNat_zero] at hsub
    omega
  simp only [verifyMint, settleMint, ok_iff]
  exact ⟨_, spend, hspend, mw, hmw, outs, houts, sum, hsum, hle, hfee, _,
    List.getElem?_eq_getElem (classifyOutputs_itemIndex_lt houts), rfl⟩

/-- The amounts of a mint are conserved, unless its issuer script is hostile or its outputs do not
fit into 64 bits. -/
theorem conserves_iff (P : Platform) (tx : Transaction) (outpoint : OutPoint) (utxo : TxOut)
    (terms : IssuanceTerms) :
    Conserves P tx outpoint utxo terms ↔
      ¬HostileIssuerSpend tx outpoint ∧ ¬MisaddedMint P tx outpoint utxo terms := by
  rw [Conserves, verifyMint_panics_iff, not_or, and_assoc]
  refine and_congr_right fun _ => ?_
  constructor
  · rintro ⟨hover, hbalanced⟩ ⟨hbig, hwrap, spend, mw, outs, hspend, hmw, houts⟩
    cases hsum : sumU64 P.overflowChecks (tx.output.map TxOut.value) with
    | error p =>
      have hchecks := ((sumU64_panics_iff _ _).mp ⟨p, hsum⟩).1
      exact hover ⟨hchecks, hbig, spend, mw, outs, hspend, hmw, houts⟩
    | ok sum =>
      have hnat := toNat_sumU64 hsum
      rw [map_map, Function.comp_def] at hnat
      have hlt : sum.toNat < utxo.value.toNat := by
        rcases hwrap with hchecks | hlt
        · exact absurd ⟨hchecks, hbig, spend, mw, outs, hspend, hmw, houts⟩ hover
        · rwa [hnat]
      obtain ⟨v, hv⟩ := exists_verifyMint hspend hmw houts hsum hlt
      have hvalue := utxo.value.toNat_lt
      have hsame := (hbalanced v hv).1
      omega
  · intro hadded
    refine ⟨fun ⟨hchecks, hbig, hreached⟩ => hadded ⟨hbig, .inl hchecks, hreached⟩, fun v hv => ?_⟩
    obtain ⟨spend, outs, hspend, hmw, houts, -⟩ := verifyMint_eq_ok hv
    obtain ⟨-, sum, -, -, hsum, hle, hfee, hpos⟩ := verifyMint_settles hv
    have hnat := toNat_sumU64 hsum
    rw [map_map, Function.comp_def] at hnat
    have hsub : v.fee.toNat = utxo.value.toNat - sum.toNat := by
      rw [hfee, UInt64.toNat_sub_of_le _ _ hle]
    have hfeepos : 0 < v.fee.toNat := Nat.pos_of_ne_zero fun h => hpos (UInt64.toNat_inj.mp h)
    have hfits : (tx.output.map fun o => o.value.toNat).sum < 2 ^ 64 := by
      by_contra hbig
      exact hadded ⟨not_lt.mp hbig, .inr (by omega), spend, v.witness, outs, hspend, hmw, houts⟩
    omega

end Amounts

/-- A mint with outputs of `2 ^ 64` in all. -/
def wrappedMint : Transaction :=
  mintFrom (laneState 0 2) ⟨.zeros, 0⟩
    [⟨0xffffffffffffffff, canonicalIssuerSpk onesPlatform (laneState 1 1)⟩]

/-- From an output of ten it is accepted with a fee of ten if sums wrap, and panics if they are
checked. -/
theorem wrappedMint_creates_value :
    (∃ v, verifyMint { onesPlatform with overflowChecks := false } wrappedMint ⟨.zeros, 0⟩
        (issuerUtxo (laneState 0 2)) singleItem = .ok v ∧ v.fee = 10 ∧
      (wrappedMint.output.map fun o => o.value.toNat).sum = 2 ^ 64) ∧
    verifyMint onesPlatform wrappedMint ⟨.zeros, 0⟩ (issuerUtxo (laneState 0 2)) singleItem =
      .error (.panic .arithmeticOverflow) := by
  have hmint : (verifyMint { onesPlatform with overflowChecks := false } wrappedMint ⟨.zeros, 0⟩
      (issuerUtxo (laneState 0 2)) singleItem).toOption.map (·.fee) = some 10 := by decide +kernel
  obtain ⟨v, hv, hfee⟩ := exists_ok_of_toOption hmint
  exact ⟨⟨v, hv, hfee, by decide +kernel⟩, by decide +kernel⟩

end Catomicals.Issuance
