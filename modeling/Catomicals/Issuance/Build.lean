import Catomicals.Issuance.Accounts

/-!
# Building a mint

What a builder writes into the witness is what the verifier reads. The mint that is built for a
state of a lane is accepted, as long as the lane has supply.
-/
namespace Catomicals.Issuance

open Base Base.Outcome IssuerState List

lemma readPushes_directPushes (chunks : List Bytes)
    (h : ∀ c ∈ chunks, 1 ≤ c.length ∧ c.length ≤ 75) (front rest : Bytes) (consts : List Bytes) :
    readPushes (front ++ chunks.flatMap directPush ++ rest) chunks.length front.length consts =
      .ok (some (consts ++ chunks)) := by
  induction chunks generalizing front consts with
  | nil => simp [readPushes]
  | cons chunk chunks ih =>
    obtain ⟨hpos, hle⟩ := h chunk mem_cons_self
    have hnat : (UInt8.ofNat chunk.length).toNat = chunk.length :=
      UInt8.toNat_ofNat_of_lt (by simp only [UInt8.size]; omega)
    have hscr : front ++ (chunk :: chunks).flatMap directPush ++ rest =
        front ++ [UInt8.ofNat chunk.length] ++ chunk ++ (chunks.flatMap directPush ++ rest) := by
      simp [directPush]
    have hrest := ih (fun c hc => h c (mem_cons_of_mem _ hc))
      (front ++ [UInt8.ofNat chunk.length] ++ chunk) (consts ++ [chunk])
    have hchunk := slice_append (front ++ [UInt8.ofNat chunk.length]) chunk
      (chunks.flatMap directPush ++ rest)
    have hindex : index (front ++ [UInt8.ofNat chunk.length] ++ chunk ++
        (chunks.flatMap directPush ++ rest)) front.length = .ok (UInt8.ofNat chunk.length) := by
      simp
    rw [append_assoc _ _ rest, append_assoc consts, length_append] at hrest
    rw [length_append, length_singleton] at hchunk hrest
    rw [hscr, length_cons, readPushes, hindex, ok_bind, hnat, if_neg ?_, hchunk, ok_bind]
    · exact hrest
    · simp only [length_append, length_singleton]
      omega

lemma decode_encodeU32 (v : UInt32) : UInt32.ofNat (ofLeBytes ((encodeU32 v).drop 1)) = v := by
  have hlt := v.toNat_lt
  rw [encodeU32, drop_one, tail_cons, ofLeBytes_leBytes,
    Nat.mod_eq_of_lt (by simpa using hlt), UInt32.ofNat_toNat]

lemma fromScriptConstants_toScriptConstants (s : IssuerState) :
    fromScriptConstants s.termsHash.bytes (encodeU32 s.seq) (encodeU32 s.remaining)
      (encodeU8 s.targetPrefix) (encodeU8 s.lane) = some s := by
  rw [fromScriptConstants, decode_encodeU32, decode_encodeU32, if_pos ?_]
  · simp [Bytes32.ofBytes, encodeU8]
  · simp [encodeU32, encodeU8, stateIntLen, stateByteLen]

lemma issuerScript_eq_pushes (s : IssuerState) :
    ∃ gate, issuerScript s = s.toScriptConstants.flatMap directPush ++ gate := by
  have hlen : ∀ c ∈ s.toScriptConstants, 2 ≤ c.length ∧ c.length ≤ 75 := by
    simp [toScriptConstants, encodeU8, stateIntLen]
  have hpush : s.toScriptConstants.flatMap pushData = s.toScriptConstants.flatMap directPush := by
    refine flatMap_congr fun c hc => ?_
    rw [pushData_of_two_le (hlen c hc).1, if_pos (hlen c hc).2, directPush]
  rw [issuerScript, hpush]
  simp only [append_assoc]
  exact ⟨_, rfl⟩

theorem parseIssuerScript_issuerScript (s : IssuerState) :
    parseIssuerScript (issuerScript s) = .ok (some s) := by
  obtain ⟨gate, hgate⟩ := issuerScript_eq_pushes s
  have hread : readPushes (issuerScript s) 5 0 [] = .ok (some s.toScriptConstants) := by
    rw [hgate]
    exact readPushes_directPushes s.toScriptConstants
      (by simp [toScriptConstants, encodeU8, stateIntLen]) [] gate []
  have hlen : ¬(issuerScript s).length < expectedConstLen := by
    rw [hgate]
    simp [toScriptConstants, directPush, encodeU8, stateIntLen, expectedConstLen]
    omega
  rw [parseIssuerScript, if_neg hlen, hread, ok_bind]
  simp [toScriptConstants, index, ok_bind, fromScriptConstants_toScriptConstants]

/-- The parser returns a state for its own script and for no other. -/
theorem parseIssuerScript_iff :
    (∀ b s, parseIssuerScript b = .ok (some s) ↔ b = issuerScript s) ∧
      Function.Injective issuerScript := by
  constructor
  · intro b s
    constructor
    · intro h
      rw [parseIssuerScript] at h
      split_ifs at h
      · simp at h
      simp only [bind_eq_ok] at h
      obtain ⟨pushes, -, h⟩ := h
      cases pushes with
      | none => simp at h
      | some =>
        simp only [bind_eq_ok] at h
        obtain ⟨_, -, _, -, _, -, _, -, _, -, h⟩ := h
        split at h
        · simp at h
        next state _ =>
          simp only [Except.ok.injEq] at h
          split_ifs at h with hsame
          rw [hsame, Option.some.inj h]
    · intro hb
      rw [hb]
      exact parseIssuerScript_issuerScript s
  · intro s _ h
    have hread := parseIssuerScript_issuerScript s
    rw [h, parseIssuerScript_issuerScript] at hread
    simpa using hread.symm

/-- The issuer input of a built mint, with its witness. -/
def issuerInput (outpoint : OutPoint) (s : IssuerState) (mw : MintWitness) (controlBlock : Bytes) :
    TxIn where
  previousOutput := outpoint
  scriptSig := []
  sequence := 0xffffffff
  witness := [leBytes 8 mw.nonce.toNat, mw.itemCommitment.bytes, mw.hashTail,
    mw.ownerKey.serialize.bytes, mw.payload, issuerScript s, controlBlock]

def buildMintTx (P : Platform) (issuerOutpoint : OutPoint) (issuerUtxo : TxOut)
    (state : IssuerState) (witness : MintWitness) (itemValue : UInt64)
    (successorUtxo : Option TxOut) (controlBlock : Bytes) :
    Outcome MintVerifyError Transaction := do
  let outputs := ⟨itemValue, itemOwnerScript witness.ownerKey⟩ :: successorUtxo.toList
  let totalOut ← ofPanic (sumU64 P.overflowChecks (outputs.map TxOut.value))
  ensure (totalOut ≤ issuerUtxo.value) (.valueNotConserved issuerUtxo.value totalOut)
  return { version := 2, lockTime := 0, output := outputs,
           input := [issuerInput issuerOutpoint state witness controlBlock] }

/-- What the builder is given: a state of the chain, and outputs that leave a fee. -/
structure MintPlan (P : Platform) (terms : IssuanceTerms) (utxo : TxOut) (s : IssuerState)
    (mw : MintWitness) (itemValue : UInt64) (successorUtxo : Option TxOut) (controlBlock : Bytes) :
    Prop where
  reachable : s.Reachable P terms
  issuer : utxo.scriptPubkey = canonicalIssuerSpk P s
  /-- The keys are keys: the linked crates give and keep no others. -/
  keys : P.isXOnly mw.ownerKey.serialize = true ∧
    P.isXOnly (P.taprootOutputKey (issuerScript s)).serialize = true
  control : ∃ verifies, P.decodeControlBlock controlBlock = some verifies ∧
    verifies (P.taprootOutputKey (issuerScript s)) (issuerScript s) = true
  work : meetsTarget (powHash P s.termsHash s.lane s.seq mw.itemCommitment mw.nonce)
    s.targetPrefix = .ok true
  tail : hashTail (powHash P s.termsHash s.lane s.seq mw.itemCommitment mw.nonce) s.targetPrefix =
    .ok mw.hashTail
  item : itemCommitment P s.termsHash s.lane s.seq mw.ownerKey.serialize mw.payload =
    mw.itemCommitment
  successor : ∀ next, s.successor = .ok next →
    successorUtxo.map TxOut.scriptPubkey = next.map (canonicalIssuerSpk P) ∧
      ∀ n ∈ next, itemOwnerScript mw.ownerKey ≠ canonicalIssuerSpk P n
  values : itemValue.toNat + (successorUtxo.toList.map fun o => o.value.toNat).sum <
    utxo.value.toNat

section Accepted

variable {P : Platform} {terms : IssuanceTerms} {outpoint : OutPoint} {utxo : TxOut}
  {s : IssuerState} {mw : MintWitness} {itemValue : UInt64} {successorUtxo : Option TxOut}
  {controlBlock : Bytes} {tx : Transaction}

lemma xonlyFromSlice_serialize {key : XOnlyPublicKey} (h : P.isXOnly key.serialize = true) :
    P.xonlyFromSlice key.serialize.bytes = some key := by
  simp [Platform.xonlyFromSlice, h]

/-- The committed state of a lane matches the terms; only its supply is left to check. -/
lemma checkTerms_of_reachable (h : s.Reachable P terms) :
    checkTerms P s terms = ensure (s.remaining ≠ 0) .supplyExhausted := by
  obtain ⟨-, hlane, n, hbehind⟩ := h.behind
  simp [checkTerms, ensure, hbehind.termsHash, hbehind.targetPrefix, hlane, ok_bind]

lemma successor_of_reachable (h : s.Reachable P terms) (hpos : s.remaining ≠ 0) :
    ∃ next, s.successor = .ok next := by
  have hsum := h.balanced
  have hlt := (terms.laneSupply s.lane).toNat_lt
  rw [IssuerState.Balanced] at hsum
  rcases successor_cases hpos (by omega) with ⟨-, hnone⟩ | ⟨next, hsome, -⟩
  · exact ⟨none, hnone⟩
  · exact ⟨some next, hsome⟩

section Plan

variable (h : MintPlan P terms utxo s mw itemValue successorUtxo controlBlock)
include h

lemma MintPlan.checkIssuerSpend_eq (hinput : tx.input = [issuerInput outpoint s mw controlBlock]) :
    checkIssuerSpend P tx outpoint utxo =
      .ok ⟨0, (issuerInput outpoint s mw controlBlock).witness, s⟩ := by
  obtain ⟨verifies, hdecode, hvers⟩ := h.control
  have hlen : (canonicalIssuerSpk P s).length = 34 := by
    simp [canonicalIssuerSpk, p2trOutputScript]
  have hkey : taprootOutputKey P utxo.scriptPubkey =
      some (P.taprootOutputKey (issuerScript s)) := by
    rw [h.issuer, taprootOutputKey, p2trKeyBytes, if_pos ⟨hlen, rfl, rfl⟩]
    exact xonlyFromSlice_serialize h.keys.2
  simp only [checkIssuerSpend, ok_iff]
  refine ⟨0, by simp [hinput, issuerInput], _, by rw [hinput]; rfl, rfl, _, rfl, _,
    parseIssuerScript_issuerScript s, s, rfl, rfl, h.issuer, _, hkey, controlBlock, rfl, verifies,
    hdecode, hvers, rfl⟩

lemma MintPlan.checkMintWork_eq (hpos : s.remaining ≠ 0) (outpoint : OutPoint) :
    checkMintWork P terms ⟨0, (issuerInput outpoint s mw controlBlock).witness, s⟩ = .ok mw := by
  have hnonce : UInt64.ofNat (ofLeBytes (leBytes 8 mw.nonce.toNat)) = mw.nonce := by
    rw [ofLeBytes_leBytes, Nat.mod_eq_of_lt (by simpa using mw.nonce.toNat_lt), UInt64.ofNat_toNat]
  simp only [checkMintWork, parseMintWitness, ok_iff]
  refine ⟨by rw [checkTerms_of_reachable h.reachable, ensure_eq_ok]; exact hpos, _,
    sliceTo_of_le (by simp [issuerInput]), mw,
    ⟨rfl, _, rfl, by simp, _, rfl, _, Bytes32.ofBytes_bytes _, _, rfl, _, rfl, _,
      xonlyFromSlice_serialize h.keys.1, _, rfl, ?_⟩, _, h.work, rfl, _, h.tail, rfl, h.item, rfl⟩
  rw [hnonce]

/-- The outputs of a built mint: the item, and the successor behind it. -/
lemma MintPlan.classifyOutputs_eq {next : Option IssuerState} (hnext : s.successor = .ok next)
    (houtput : tx.output = ⟨itemValue, itemOwnerScript mw.ownerKey⟩ :: successorUtxo.toList) :
    classifyOutputs P tx s mw = .ok ⟨0, next.map fun _ => 1, next⟩ := by
  obtain ⟨hscr, howner⟩ := h.successor next hnext
  have hstate : successorState s = .ok next := by
    rw [successorState, hnext]
  simp only [classifyOutputs, ok_iff]
  cases next with
  | none =>
    obtain rfl : successorUtxo = none := by simpa using hscr
    have hitem : outputIndices tx (itemOwnerScript mw.ownerKey) = [0] := by
      simp [outputIndices, houtput]
    exact ⟨by rw [hitem]; rfl, 0, by rw [hitem]; rfl, none, hstate, none, rfl, .inr rfl,
      by rw [houtput]; rfl, rfl⟩
  | some next =>
    obtain ⟨o, rfl, ho⟩ := Option.map_eq_some_iff.mp hscr
    have hne : itemOwnerScript mw.ownerKey ≠ canonicalIssuerSpk P next := howner next rfl
    have hitem : outputIndices tx (itemOwnerScript mw.ownerKey) = [0] := by
      simp [outputIndices, houtput, ho, hne.symm]
    have hsucc : outputIndices tx (canonicalIssuerSpk P next) = [1] := by
      simp [outputIndices, houtput, ho, hne]
    have hindex : successorOutput P tx (some next) = .ok (some 1) := by
      simp only [successorOutput, hsucc, ok_iff]
      exact ⟨rfl, 1, rfl, rfl⟩
    exact ⟨by rw [hitem]; rfl, 0, by rw [hitem]; rfl, some next, hstate, some 1, hindex, .inl rfl,
      by rw [houtput]; rfl, rfl⟩

end Plan

/-- The transaction built for a state of the chain is accepted, with the next state and with what is
left of the amount as the fee, as long as the lane has supply; without supply it is refused for that
reason. -/
theorem buildMintTx_accepted
    (h : MintPlan P terms utxo s mw itemValue successorUtxo controlBlock) (outpoint : OutPoint) :
    ∃ tx, buildMintTx P outpoint utxo s mw itemValue successorUtxo controlBlock = .ok tx ∧
      (s.remaining ≠ 0 → ∃ v, verifyMint P tx outpoint utxo terms = .ok v ∧ v.issuerState = s ∧
        s.successor = .ok v.successorState ∧
        v.fee.toNat = utxo.value.toNat -
          (itemValue.toNat + (successorUtxo.toList.map fun o => o.value.toNat).sum)) ∧
      (s.remaining = 0 →
        verifyMint P tx outpoint utxo terms = .error (.error .supplyExhausted)) := by
  have hvalue := utxo.value.toNat_lt
  have hvalues := h.values
  obtain ⟨sum, hsum, hnat⟩ := sumU64_of_lt P.overflowChecks
    (itemValue :: successorUtxo.toList.map TxOut.value)
    (by rw [map_cons, sum_cons, map_map]; exact hvalues.trans hvalue)
  rw [map_cons, sum_cons, map_map] at hnat
  change sum.toNat = itemValue.toNat + (successorUtxo.toList.map fun o => o.value.toNat).sum at hnat
  have hle : sum ≤ utxo.value := UInt64.le_iff_toNat_le.mpr (by omega)
  have hbuild : ∃ tx, buildMintTx P outpoint utxo s mw itemValue successorUtxo controlBlock =
        .ok tx ∧ tx.input = [issuerInput outpoint s mw controlBlock] ∧
      tx.output = ⟨itemValue, itemOwnerScript mw.ownerKey⟩ :: successorUtxo.toList := by
    simp only [buildMintTx, ok_iff]
    exact ⟨_, ⟨sum, hsum, hle, rfl⟩, rfl, rfl⟩
  obtain ⟨tx, htx, hinput, houtput⟩ := hbuild
  refine ⟨tx, htx, fun hpos => ?_, fun hzero => ?_⟩
  · obtain ⟨next, hnext⟩ := successor_of_reachable h.reachable hpos
    have hsub := UInt64.toNat_sub_of_le _ _ hle
    have hfee : utxo.value - sum ≠ 0 := by
      intro hzero
      rw [hzero, UInt64.toNat_zero] at hsub
      omega
    refine ⟨⟨0, s, mw, 0, ⟨itemValue, itemOwnerScript mw.ownerKey⟩, next.map fun _ => 1, next,
      utxo.value - sum⟩, ?_, rfl, hnext, by rw [hsub, hnat]⟩
    simp only [verifyMint, settleMint, ok_iff]
    refine ⟨_, h.checkIssuerSpend_eq hinput, _, h.checkMintWork_eq hpos outpoint, _,
      h.classifyOutputs_eq hnext houtput, sum, ?_, hle, hfee, _, by rw [houtput]; rfl, rfl⟩
    rw [houtput]
    exact hsum
  · rw [verifyMint, h.checkIssuerSpend_eq hinput, ok_bind, checkMintWork,
      checkTerms_of_reachable h.reachable, ensure, if_neg (not_not.mpr hzero)]
    rfl

end Accepted

def soloTerms (supply : UInt32) : IssuanceTerms := { singleItem with totalSupply := supply }

def soloWitness : MintWitness := ⟨0, .replicate 1, replicate 31 1, ⟨.replicate 3⟩, []⟩

lemma soloPlan (supply : UInt32) (next : Option IssuerState)
    (hinit : initial onesPlatform (soloTerms supply) 0 = .ok (laneState 0 supply))
    (hnext : (laneState 0 supply).successor = .ok next)
    (howner : ∀ n ∈ next,
      itemOwnerScript soloWitness.ownerKey ≠ canonicalIssuerSpk onesPlatform n) :
    MintPlan onesPlatform (soloTerms supply) (issuerUtxo (laneState 0 supply)) (laneState 0 supply)
      soloWitness 1 (next.map fun n => ⟨5, canonicalIssuerSpk onesPlatform n⟩) [] where
  reachable := ⟨laneState 0 supply, 0, hinit, rfl⟩
  issuer := rfl
  keys := ⟨rfl, rfl⟩
  control := ⟨_, rfl, rfl⟩
  work := rfl
  tail := rfl
  item := rfl
  successor := by
    intro _ hn
    rw [hnext, Except.ok.injEq] at hn
    subst hn
    exact ⟨by rw [Option.map_map]; rfl, howner⟩
  values := by
    cases next with
    | none => exact (by decide : 1 + 0 < 10)
    | some => exact (by decide : 1 + (5 + 0) < 10)

/-- The first state of a lane without supply is reachable, and its mint is refused. -/
theorem buildMintTx_refused :
    MintPlan onesPlatform (soloTerms 0) (issuerUtxo (laneState 0 0)) (laneState 0 0) soloWitness 1
        none [] ∧
      ∃ tx, buildMintTx onesPlatform OutPoint.null (issuerUtxo (laneState 0 0)) (laneState 0 0)
          soloWitness 1 none [] = .ok tx ∧
        verifyMint onesPlatform tx OutPoint.null (issuerUtxo (laneState 0 0)) (soloTerms 0) =
          .error (.error .supplyExhausted) :=
  ⟨soloPlan 0 none (by decide +kernel) rfl (by simp), _, rfl, by decide +kernel⟩

/-- The first of two items of a lane is minted, with an output for the second. -/
theorem buildMintTx_accepted_first :
    ∃ tx v, buildMintTx onesPlatform OutPoint.null (issuerUtxo (laneState 0 2)) (laneState 0 2)
          soloWitness 1 (some ⟨5, canonicalIssuerSpk onesPlatform (laneState 1 1)⟩) [] = .ok tx ∧
        verifyMint onesPlatform tx OutPoint.null (issuerUtxo (laneState 0 2)) (soloTerms 2) =
          .ok v ∧ v.successorState = some (laneState 1 1) ∧ v.fee.toNat = 4 := by
  have hnext : (laneState 0 2).successor = .ok (some (laneState 1 1)) := by decide +kernel
  obtain ⟨tx, htx, haccepted, -⟩ := buildMintTx_accepted
    (soloPlan 2 _ (by decide +kernel) hnext (by rintro _ ⟨⟩; decide +kernel)) OutPoint.null
  obtain ⟨v, hv, -, hsucc, hfee⟩ := haccepted (by decide)
  rw [hnext, Except.ok.injEq] at hsucc
  exact ⟨tx, v, htx, hv, hsucc.symm, hfee⟩

end Catomicals.Issuance
