import Catomicals.Issuance.Verify

/-!
# Which transactions make discovery and verification panic

Discovery panics exactly on a script with truncated constants. Verification panics on such a script
and, in a build that checks overflow, on a mint whose outputs sum to `2 ^ 64` or more.
-/
namespace Catomicals.Issuance

open Base Base.Outcome List

/-- The script an input reveals: the second-to-last element of its witness. -/
def revealedScript (input : TxIn) : Option Bytes :=
  if input.witness.length < 2 then none else input.witness[input.witness.length - 2]?

def HostileInput (input : TxIn) : Prop :=
  ∃ script, revealedScript input = some script ∧ TruncatedConstants script

lemma discoverInputs_panics_iff (inputs : List (TxIn × ℕ)) :
    (∃ p, discoverInputs inputs = .error p) ↔ ∃ q ∈ inputs, HostileInput q.1 := by
  induction inputs with
  | nil => simp [discoverInputs]
  | cons q rest ih =>
    obtain ⟨input, i⟩ := q
    have hcons : (∃ q ∈ (input, i) :: rest, HostileInput q.1) ↔
        HostileInput input ∨ ∃ q ∈ rest, HostileInput q.1 := by simp
    rw [discoverInputs, hcons, ← ih]
    by_cases hshort : input.witness.length < 2
    · have hno : ¬HostileInput input := by simp [HostileInput, revealedScript, hshort]
      simp [hshort, hno]
    · have hlt : input.witness.length - 2 < input.witness.length := by omega
      have hhost : HostileInput input ↔
          TruncatedConstants input.witness[input.witness.length - 2] := by
        simp [HostileInput, revealedScript, hshort, hlt]
      rw [if_neg hshort, index_of_lt hlt, hhost, ← parseIssuerScript_panics_iff]
      simp only [bind, Except.bind]
      cases parseIssuerScript input.witness[input.witness.length - 2] with
      | error => simp
      | ok =>
        cases discoverInputs rest with
        | error => simp
        | ok => simp [pure, Except.pure]

lemma discoverInputs_eq_ok {inputs : List (TxIn × ℕ)} {ds : List DiscoveredIssuerSpend}
    (h : discoverInputs inputs = .ok ds) :
    ds.length ≤ inputs.length ∧ ∀ d, d ∈ ds ↔ ∃ q ∈ inputs, ∃ script state,
      revealedScript q.1 = some script ∧ parseIssuerScript script = .ok (some state) ∧
        d = ⟨q.1.previousOutput, q.2, state⟩ := by
  induction inputs generalizing ds with
  | nil =>
    obtain rfl : [] = ds := by simpa [discoverInputs] using h
    simp
  | cons q _ ih =>
    obtain ⟨input, _⟩ := q
    rw [discoverInputs] at h
    split_ifs at h with hshort
    · obtain ⟨hlen, hmem⟩ := ih h
      refine ⟨by simp only [length_cons]; omega, fun d => ?_⟩
      have hnone : revealedScript input = none := if_pos hshort
      simp [hmem d, hnone]
    · simp only [ok_iff] at h
      obtain ⟨script, hscr, parsed, hparsed, _, hlater, rfl⟩ := h
      have hrevealed : revealedScript input = some script := by
        rw [revealedScript, if_neg hshort, hscr]
      obtain ⟨_, hmem⟩ := ih hlater
      cases parsed with
      | none | some =>
        refine ⟨by simp only [length_cons]; omega, fun d => ?_⟩
        simp [hmem d, hrevealed, hparsed]

variable (P : Platform) (tx : Transaction)

theorem discover_panics_iff :
    (∃ p, discover P tx = .error p) ↔ ∃ input ∈ tx.input, HostileInput input := by
  have hinputs : (∃ q ∈ tx.input.zipIdx, HostileInput q.1) ↔
      ∃ input ∈ tx.input, HostileInput input := by
    constructor
    · rintro ⟨q, hq, hh⟩
      exact ⟨q.1, fst_mem_of_mem_zipIdx hq, hh⟩
    · rintro ⟨input, hmem, hh⟩
      obtain ⟨i, hi⟩ := getElem?_of_mem hmem
      exact ⟨(input, i), mem_zipIdx_iff_getElem?.mpr hi, hh⟩
  rw [← hinputs, ← discoverInputs_panics_iff, discover]
  cases discoverInputs tx.input.zipIdx <;> simp [bind, Except.bind, pure, Except.pure]

variable (issuerOutpoint : OutPoint)

/-- The first input that spends the issuer output has the seven elements of a mint spend, and a
script with truncated constants. -/
def HostileIssuerSpend : Prop :=
  ∃ input script, tx.input.find? (·.previousOutput = issuerOutpoint) = some input ∧
    input.witness.length = 7 ∧ input.witness[5]? = some script ∧ TruncatedConstants script

lemma HostileIssuerSpend.hostileInput {tx : Transaction} {o : OutPoint}
    (h : HostileIssuerSpend tx o) : ∃ input ∈ tx.input, HostileInput input := by
  obtain ⟨input, script, hfind, hlen, hscr, htrunc⟩ := h
  refine ⟨input, mem_of_find?_eq_some hfind, script, ?_, htrunc⟩
  rw [revealedScript, if_neg (by omega), hlen]
  exact hscr

lemma findIdx?_find? {α : Type} {xs : List α} {p : α → Bool} {i : ℕ} (h : xs.findIdx? p = some i) :
    ∃ a, xs[i]? = some a ∧ xs.find? p = some a := by
  induction xs generalizing i with
  | nil => simp at h
  | cons x xs ih =>
    rw [findIdx?_cons] at h
    cases hx : p x with
    | true =>
      obtain rfl : 0 = i := by simpa [hx] using h
      exact ⟨x, by simp, by simp [hx]⟩
    | false =>
      obtain ⟨j, hj, rfl⟩ : ∃ j, xs.findIdx? p = some j ∧ j + 1 = i := by simpa [hx] using h
      simpa [hx] using ih hj

lemma checkIssuerSpend_panics_iff (o : OutPoint) (utxo : TxOut) :
    Panics (checkIssuerSpend P tx o utxo) ↔ HostileIssuerSpend tx o := by
  unfold checkIssuerSpend HostileIssuerSpend
  cases hidx : tx.input.findIdx? (·.previousOutput = o) with
  | none =>
    have hnone : tx.input.find? (·.previousOutput = o) = none := by
      simpa using findIdx?_eq_none_iff.mp hidx
    simp [okOr, bind, Except.bind, hnone]
  | some i =>
    obtain ⟨input, hi, hfind⟩ := findIdx?_find? hidx
    have hinput : index tx.input i = .ok input := by simpa using hi
    rw [hfind]
    by_cases hlen : input.witness.length = 7
    · have h5 : index input.witness (7 - 2) = .ok input.witness[5] := by simp [hlen]
      have h6 : index input.witness (7 - 1) = .ok input.witness[6] := by simp [hlen]
      have hrest : (∃ input' script, some input = some input' ∧ input'.witness.length = 7 ∧
          input'.witness[5]? = some script ∧ TruncatedConstants script) ↔
          TruncatedConstants input.witness[5] := by
        constructor
        · rintro ⟨_, _, heq, -, hscr, htrunc⟩
          cases heq
          rw [getElem?_eq_getElem (by omega), Option.some.injEq] at hscr
          rwa [hscr]
        · exact fun htrunc => ⟨input, _, rfl, hlen, by simp [hlen], htrunc⟩
      rw [hrest, ← parseIssuerScript_panics_iff]
      simp only [panics_bind, okOr_eq_ok, ofPanic_eq_ok, ensure_eq_ok, exists_unit,
        panics_ofPanic, not_panics_ensure, not_panics_okOr, not_panics_pure, false_or, hinput, h5,
        h6, hlen, Option.some.injEq, Except.ok.injEq, exists_eq_left', reduceCtorEq, exists_false,
        and_false, or_false, true_and]
    · simp only [panics_bind, okOr_eq_ok, ofPanic_eq_ok, ensure_eq_ok, exists_unit,
        panics_ofPanic, not_panics_ensure, not_panics_okOr, false_or, hinput, hlen,
        Option.some.injEq, Except.ok.injEq, exists_eq_left', reduceCtorEq, exists_false, false_and,
        exists_and_left]

lemma not_panics_parseMintWitness (stack : List Bytes) : ¬Panics (parseMintWitness P stack) := by
  unfold parseMintWitness
  by_cases hlen : stack.length = 5
  · have hidx : ∀ i < 5, ¬∃ p, index stack i = .error p := fun i hi => by
      rw [exists_index_eq_error]
      omega
    simp only [panics_bind, panics_ofPanic, not_panics_ensure, not_panics_okOr, not_panics_pure,
      hidx 0 (by omega), hidx 1 (by omega), hidx 2 (by omega), hidx 3 (by omega),
      hidx 4 (by omega), false_or, and_false, exists_false, not_false_eq_true]
  · simp only [panics_bind, not_panics_ensure, ensure_eq_ok, hlen, false_and, exists_false,
      or_self, not_false_eq_true]

lemma not_panics_checkMintWork (terms : IssuanceTerms) (spend : IssuerSpend) :
    ¬Panics (checkMintWork P terms spend) := by
  have hterms : ¬Panics (checkTerms P spend.state terms) := by
    simp [checkTerms, panics_bind]
  have hslice : ¬∃ p, sliceTo spend.witness (spend.witness.length - 2) = .error p := by
    rw [sliceTo_of_le (by omega)]
    simp
  unfold checkMintWork
  simp only [panics_bind, panics_ofPanic, hterms, not_panics_parseMintWitness,
    not_panics_ensure, not_panics_pure, hslice, false_or, ok_iff, and_false, exists_false, or_false]
  rintro ⟨-, _, -, _, -, ⟨p, hp⟩ | ⟨_, hmeets, rfl, p, hp⟩⟩
  · unfold meetsTarget at hp
    split_ifs at hp
    rw [sliceTo_of_le (by rw [Bytes32.length_bytes]; omega)] at hp
    simp at hp
  · have hle := targetPrefix_le_of_meetsTarget hmeets
    rw [hashTail, sliceFrom_of_le (by rwa [Bytes32.length_bytes])] at hp
    simp at hp

lemma not_panics_classifyOutputs (state : IssuerState)
    (mw : MintWitness) : ¬Panics (classifyOutputs P tx state mw) := by
  have hfirst : ∀ l : List ℕ, l.length = 1 → ¬∃ p, index l 0 = .error p := fun l hl => by
    rw [exists_index_eq_error]
    omega
  have hsucc : ∀ next, ¬Panics (successorOutput P tx next) := by
    intro next
    cases next with
    | none => simp [successorOutput]
    | some =>
      simp only [successorOutput, panics_bind, panics_ofPanic, not_panics_ensure, not_panics_pure,
        false_or, ok_iff, and_false, exists_false, or_false]
      rintro ⟨hlen, hp⟩
      exact hfirst _ hlen hp
  have hstate : ¬Panics (successorState state) := by
    unfold successorState
    cases state.successor <;> simp
  unfold classifyOutputs
  simp only [panics_bind, panics_ofPanic, not_panics_ensure, not_panics_pure, hsucc, hstate,
    false_or, ok_iff, and_false, exists_false, or_false]
  rintro ⟨hlen, hp⟩
  exact hfirst _ hlen hp

lemma classifyOutputs_itemIndex_lt {P : Platform} {tx : Transaction} {state : IssuerState}
    {mw : MintWitness} {outs : MintOutputs} (h : classifyOutputs P tx state mw = .ok outs) :
    outs.itemIndex < tx.output.length := by
  obtain ⟨hitem, -⟩ := classifyOutputs_eq_ok h
  obtain ⟨_, ho, -⟩ := mem_outputIndices.mp (hitem ▸ mem_singleton_self outs.itemIndex)
  exact (List.getElem?_eq_some_iff.mp ho).1

lemma sumU64_panics_iff (checks : Bool) (values : List UInt64) :
    (∃ p, sumU64 checks values = .error p) ↔
      checks = true ∧ 2 ^ 64 ≤ (values.map UInt64.toNat).sum := by
  have hloop : ∀ acc : UInt64, (∃ p, values.foldlM (addU64 checks) acc = .error p) ↔
      checks = true ∧ 2 ^ 64 ≤ acc.toNat + (values.map UInt64.toNat).sum := by
    induction values with
    | nil =>
      intro acc
      have hacc := acc.toNat_lt
      simp [hacc]
    | cons v rest ih =>
      intro acc
      rw [foldlM_cons, addU64, map_cons, sum_cons]
      split_ifs with hover
      · simp only [bind, Except.bind, Except.error.injEq, exists_eq', true_iff]
        exact ⟨hover.1, by omega⟩
      · change (∃ p, rest.foldlM (addU64 checks) (acc + v) = .error p) ↔ _
        rw [ih (acc + v)]
        cases checks with
        | false => simp
        | true =>
          have hsum : acc.toNat + v.toNat < 2 ^ 64 := by simpa using hover
          rw [UInt64.toNat_add, Nat.mod_eq_of_lt hsum, Nat.add_assoc]
  simpa [sumU64] using hloop 0

/-- It passes every step before the value balance, with outputs that overflow a `u64` in a build
that checks. -/
def OverflowingMint (issuerUtxo : TxOut) (terms : IssuanceTerms) : Prop :=
  P.overflowChecks = true ∧ 2 ^ 64 ≤ (tx.output.map fun o => o.value.toNat).sum ∧
    ∃ spend mw outs, checkIssuerSpend P tx issuerOutpoint issuerUtxo = .ok spend ∧
      checkMintWork P terms spend = .ok mw ∧ classifyOutputs P tx spend.state mw = .ok outs

theorem verifyMint_panics_iff (issuerUtxo : TxOut) (terms : IssuanceTerms) :
    Panics (verifyMint P tx issuerOutpoint issuerUtxo terms) ↔
      HostileIssuerSpend tx issuerOutpoint ∨
        OverflowingMint P tx issuerOutpoint issuerUtxo terms := by
  have hsettle : ∀ spend mw outs, outs.itemIndex < tx.output.length →
      (Panics (settleMint P tx issuerUtxo spend mw outs) ↔
        P.overflowChecks = true ∧ 2 ^ 64 ≤ (tx.output.map fun o => o.value.toNat).sum) := by
    intro spend mw outs _
    have hindex : ¬∃ p, index tx.output outs.itemIndex = .error p := by
      rw [exists_index_eq_error]
      omega
    simp only [settleMint, panics_bind, panics_ofPanic, sumU64_panics_iff, not_panics_ensure,
      not_panics_pure, hindex, or_false, and_false, exists_false, map_map,
      Function.comp_def]
  rw [verifyMint, panics_bind, checkIssuerSpend_panics_iff, OverflowingMint]
  refine or_congr_right ?_
  simp only [panics_bind, not_panics_checkMintWork, not_panics_classifyOutputs, false_or]
  constructor
  · rintro ⟨spend, hspend, mw, hmw, outs, houts, hp⟩
    obtain ⟨hchecks, hsum⟩ := (hsettle _ _ _ (classifyOutputs_itemIndex_lt houts)).mp hp
    exact ⟨hchecks, hsum, spend, mw, outs, hspend, hmw, houts⟩
  · rintro ⟨hchecks, hsum, spend, mw, outs, hspend, hmw, houts⟩
    exact ⟨spend, hspend, mw, hmw, outs, houts,
      (hsettle _ _ _ (classifyOutputs_itemIndex_lt houts)).mpr ⟨hchecks, hsum⟩⟩

end Catomicals.Issuance
