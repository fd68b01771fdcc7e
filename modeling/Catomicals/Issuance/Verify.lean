import Catomicals.Issuance.Script

/-!
# Mint verification and discovery

`verifyMint` applies the wallet policy to a mint, split where the source numbers its steps, and
`discover` reports the issuer leaves that a transaction reveals.
-/
namespace Catomicals.Issuance

open Base Base.Outcome List

structure MintWitness where
  nonce : UInt64
  itemCommitment : Bytes32
  hashTail : Bytes
  ownerKey : XOnlyPublicKey
  payload : Bytes
  deriving DecidableEq

/-- What an accepted mint establishes. -/
structure VerifiedMint where
  issuerInputIndex : ℕ
  issuerState : IssuerState
  witness : MintWitness
  itemOutputIndex : ℕ
  itemOutput : TxOut
  successorOutputIndex : Option ℕ
  successorState : Option IssuerState
  fee : UInt64
  deriving DecidableEq

inductive MintVerifyError where
  | noIssuerInput (outpoint : OutPoint)
  | invalidIssuerSpend (input : ℕ)
  | malformedIssuerScript (input : ℕ)
  | termsMismatch (field : String)
  | supplyExhausted
  | malformedWitness
  | invalidOwnerKey
  | powNotSatisfied
  | hashTailMismatch
  | itemCommitmentMismatch
  | itemOutputCount (count : ℕ)
  | itemOutputCommitment (output : ℕ)
  | successorOutputCount (count : ℕ)
  | successorOutputMismatch (output : ℕ)
  | unexpectedSuccessor
  | valueNotConserved (inputs outputs : UInt64)
  | nonPositiveFee (fee : UInt64)
  | state (e : StateError)
  | outputCount (count : ℕ)
  deriving DecidableEq

def p2trOutputScript (key : XOnlyPublicKey) : Bytes := 0x51 :: 0x20 :: key.serialize.bytes

def itemOwnerScript (ownerKey : XOnlyPublicKey) : Bytes := p2trOutputScript ownerKey

variable (P : Platform)

/-- The output script of an issuer state, with its taproot output key. -/
def canonicalIssuerSpk (s : IssuerState) : Bytes :=
  p2trOutputScript (P.taprootOutputKey (issuerScript s))

def p2trKeyBytes (spk : Bytes) : Option Bytes :=
  if spk.length = 34 ∧ spk[0]? = some 0x51 ∧ spk[1]? = some 0x20 then some (spk.drop 2) else none

def taprootOutputKey (spk : Bytes) : Option XOnlyPublicKey :=
  (p2trKeyBytes spk).bind P.xonlyFromSlice

/-- The five arguments of a mint spend. -/
def parseMintWitness (stack : List Bytes) : Outcome MintVerifyError MintWitness := do
  ensure (stack.length = 5) .malformedWitness
  let nonce ← ofPanic (index stack 0)
  ensure (nonce.length = 8) .malformedWitness
  let commitmentBytes ← ofPanic (index stack 1)
  let commitment ← okOr (Bytes32.ofBytes commitmentBytes) .malformedWitness
  let hashTail ← ofPanic (index stack 2)
  let ownerBytes ← ofPanic (index stack 3)
  let ownerKey ← okOr (P.xonlyFromSlice ownerBytes) .invalidOwnerKey
  let payload ← ofPanic (index stack 4)
  return { nonce := UInt64.ofNat (ofLeBytes nonce), itemCommitment := commitment,
           hashTail := hashTail, ownerKey := ownerKey, payload := payload }

/-- Every field of the committed state must match the committed terms. -/
def checkTerms (state : IssuerState) (terms : IssuanceTerms) : Outcome MintVerifyError Unit := do
  ensure (state.termsHash = terms.termsHash P) (.termsMismatch "terms_hash")
  ensure (state.targetPrefix = terms.targetPrefix) (.termsMismatch "target_prefix")
  ensure (state.lane < terms.materializedLanes) (.termsMismatch "lane")
  ensure (state.remaining ≠ 0) .supplyExhausted

/-- What the first two steps establish: the input, its witness and the revealed state. -/
structure IssuerSpend where
  inputIndex : ℕ
  witness : List Bytes
  state : IssuerState

variable (tx : Transaction)

/-- Steps 1 and 2: the issuer input, the state it reveals, and its binding to the spent output. -/
def checkIssuerSpend (issuerOutpoint : OutPoint)
    (issuerUtxo : TxOut) : Outcome MintVerifyError IssuerSpend := do
  let issuerInputIndex ←
    okOr (tx.input.findIdx? (·.previousOutput = issuerOutpoint)) (.noIssuerInput issuerOutpoint)
  let input ← ofPanic (index tx.input issuerInputIndex)
  ensure (input.witness.length = 7) .malformedWitness
  let script ← ofPanic (index input.witness (input.witness.length - 2))
  let parsed ← ofPanic (parseIssuerScript script)
  let state ← okOr parsed (.malformedIssuerScript issuerInputIndex)
  ensure (script = issuerScript state) (.invalidIssuerSpend issuerInputIndex)
  ensure (issuerUtxo.scriptPubkey = canonicalIssuerSpk P state)
    (.malformedIssuerScript issuerInputIndex)
  let outputKey ←
    okOr (taprootOutputKey P issuerUtxo.scriptPubkey) (.invalidIssuerSpend issuerInputIndex)
  let controlBytes ← ofPanic (index input.witness (input.witness.length - 1))
  let control ← okOr (P.decodeControlBlock controlBytes) (.invalidIssuerSpend issuerInputIndex)
  ensure (control outputKey script) (.invalidIssuerSpend issuerInputIndex)
  return { inputIndex := issuerInputIndex, witness := input.witness, state := state }

/-- Steps 3 to 6: the terms, the arguments, the proof of work and the item commitment. -/
def checkMintWork (terms : IssuanceTerms) (spend : IssuerSpend) :
    Outcome MintVerifyError MintWitness := do
  let state := spend.state
  checkTerms P state terms
  let arguments ← ofPanic (sliceTo spend.witness (spend.witness.length - 2))
  let mw ← parseMintWitness P arguments
  let digest := powHash P state.termsHash state.lane state.seq mw.itemCommitment mw.nonce
  let meets ← ofPanic (meetsTarget digest state.targetPrefix)
  ensure (meets = true) .powNotSatisfied
  let tail ← ofPanic (hashTail digest state.targetPrefix)
  ensure (mw.hashTail = tail) .hashTailMismatch
  ensure (itemCommitment P state.termsHash state.lane state.seq mw.ownerKey.serialize mw.payload =
    mw.itemCommitment) .itemCommitmentMismatch
  return mw

def outputIndices (script : Bytes) : List ℕ :=
  (tx.output.zipIdx.filter (·.1.scriptPubkey = script)).map (·.2)

structure MintOutputs where
  itemIndex : ℕ
  successorIndex : Option ℕ
  successorState : Option IssuerState

/-- The position of the successor output, which is there exactly when a successor is. -/
def successorOutput : Option IssuerState → Outcome MintVerifyError (Option ℕ)
  | none => .ok none
  | some next => do
    let indices := outputIndices tx (canonicalIssuerSpk P next)
    ensure (indices.length = 1) (.successorOutputCount indices.length)
    let first ← ofPanic (index indices 0)
    return some first

/-- `state.successor()?`. -/
def successorState (state : IssuerState) : Outcome MintVerifyError (Option IssuerState) :=
  match state.successor with
  | .ok next => .ok next
  | .error e => .error (.error (.state e))

/-- Steps 7 to 9: one owner output, a successor output unless the lane is exhausted, and no
other. -/
def classifyOutputs (state : IssuerState) (mw : MintWitness) :
    Outcome MintVerifyError MintOutputs := do
  let itemIndices := outputIndices tx (itemOwnerScript mw.ownerKey)
  ensure (itemIndices.length = 1) (.itemOutputCount itemIndices.length)
  let itemIndex ← ofPanic (index itemIndices 0)
  let next ← successorState state
  let successorIndex ← successorOutput P tx next
  ensure (next.isSome ∨ successorIndex = none) .unexpectedSuccessor
  ensure (tx.output.length = if next.isSome then 2 else 1) (.outputCount tx.output.length)
  return { itemIndex := itemIndex, successorIndex := successorIndex, successorState := next }

def sumU64 (overflowChecks : Bool) (values : List UInt64) : Except Panic UInt64 :=
  values.foldlM (addU64 overflowChecks) 0

/-- Step 10: inputs cover the outputs with a positive fee. -/
def settleMint (issuerUtxo : TxOut) (spend : IssuerSpend)
    (mw : MintWitness) (outs : MintOutputs) : Outcome MintVerifyError VerifiedMint := do
  let inputs := issuerUtxo.value
  let outputs ← ofPanic (sumU64 P.overflowChecks (tx.output.map TxOut.value))
  ensure (outputs ≤ inputs) (.valueNotConserved inputs outputs)
  let fee := inputs - outputs
  ensure (fee ≠ 0) (.nonPositiveFee fee)
  let itemOutput ← ofPanic (index tx.output outs.itemIndex)
  return { issuerInputIndex := spend.inputIndex, issuerState := spend.state, witness := mw,
           itemOutputIndex := outs.itemIndex, itemOutput := itemOutput,
           successorOutputIndex := outs.successorIndex, successorState := outs.successorState,
           fee := fee }

/-- Verify a mint against the issuer output it spends and the committed terms. -/
def verifyMint (issuerOutpoint : OutPoint)
    (issuerUtxo : TxOut) (terms : IssuanceTerms) : Outcome MintVerifyError VerifiedMint := do
  let spend ← checkIssuerSpend P tx issuerOutpoint issuerUtxo
  let mw ← checkMintWork P terms spend
  let outs ← classifyOutputs P tx spend.state mw
  settleMint P tx issuerUtxo spend mw outs

section Outputs

variable {P : Platform} {tx : Transaction} {script : Bytes} {i : ℕ}

lemma p2trOutputScript_inj {key key' : XOnlyPublicKey}
    (h : p2trOutputScript key = p2trOutputScript key') : key = key' := by
  obtain ⟨⟨_, _⟩⟩ := key
  obtain ⟨⟨_, _⟩⟩ := key'
  simpa [p2trOutputScript] using h

lemma mem_outputIndices :
    i ∈ outputIndices tx script ↔ ∃ o, tx.output[i]? = some o ∧ o.scriptPubkey = script := by
  simp only [outputIndices, mem_map, mem_filter, Prod.exists,
    mem_zipIdx_iff_getElem?, decide_eq_true_eq]
  constructor
  · rintro ⟨o, _, ⟨hj, ho⟩, rfl⟩
    exact ⟨o, hj, ho⟩
  · rintro ⟨o, hi, ho⟩
    exact ⟨o, i, ⟨hi, ho⟩, rfl⟩

lemma eq_singleton_of_index {l : List ℕ} (hone : l.length = 1) (hfirst : l[0]? = some i) :
    l = [i] := by
  obtain ⟨_, rfl⟩ := length_eq_one_iff.mp hone
  exact congrArg (fun i => [i]) (Option.some.inj hfirst)

/-- An accepted mint has one output for the item, and one for a successor. -/
lemma classifyOutputs_eq_ok {state : IssuerState} {mw : MintWitness} {outs : MintOutputs}
    (h : classifyOutputs P tx state mw = .ok outs) :
    outputIndices tx (itemOwnerScript mw.ownerKey) = [outs.itemIndex] ∧
      ((outs.successorState = none ∧ outs.successorIndex = none ∧ tx.output.length = 1) ∨
        ∃ next j, outs.successorState = some next ∧ outs.successorIndex = some j ∧
          outputIndices tx (canonicalIssuerSpk P next) = [j] ∧ tx.output.length = 2) := by
  simp only [classifyOutputs, ok_iff] at h
  obtain ⟨hone, _, hindex, next, -, _, hsucc, -, hcount, rfl⟩ := h
  refine ⟨eq_singleton_of_index hone hindex, ?_⟩
  cases next with
  | none =>
    simp only [successorOutput, Except.ok.injEq] at hsucc
    exact .inl ⟨rfl, hsucc.symm, hcount⟩
  | some next =>
    simp only [successorOutput, ok_iff] at hsucc
    obtain ⟨hone', j, hj, rfl⟩ := hsucc
    exact .inr ⟨next, j, rfl, rfl, eq_singleton_of_index hone' hj, hcount⟩

end Outputs

section Accepted

variable {P : Platform} {tx : Transaction} {outpoint : OutPoint} {utxo : TxOut}
  {terms : IssuanceTerms} {v : VerifiedMint} (h : verifyMint P tx outpoint utxo terms = .ok v)
include h

lemma verifyMint_eq_ok :
    ∃ spend outs, checkIssuerSpend P tx outpoint utxo = .ok spend ∧
      checkMintWork P terms spend = .ok v.witness ∧
      classifyOutputs P tx spend.state v.witness = .ok outs ∧
      spend.inputIndex = v.issuerInputIndex ∧ spend.state = v.issuerState ∧
      outs.itemIndex = v.itemOutputIndex ∧ tx.output[v.itemOutputIndex]? = some v.itemOutput := by
  simp only [verifyMint, settleMint, ok_iff] at h
  obtain ⟨spend, hspend, _, hmw, outs, houts, _, -, -, -, _, hitem, rfl⟩ := h
  exact ⟨spend, outs, hspend, hmw, houts, rfl, rfl, rfl, hitem⟩

lemma verifyMint_settles :
    ∃ outs sum, classifyOutputs P tx v.issuerState v.witness = .ok outs ∧
      outs = ⟨v.itemOutputIndex, v.successorOutputIndex, v.successorState⟩ ∧
      sumU64 P.overflowChecks (tx.output.map TxOut.value) = .ok sum ∧ sum ≤ utxo.value ∧
      v.fee = utxo.value - sum ∧ v.fee ≠ 0 := by
  simp only [verifyMint, settleMint, ok_iff] at h
  obtain ⟨_, -, _, -, outs, houts, sum, hsum, hle, hfee, _, -, rfl⟩ := h
  exact ⟨outs, sum, houts, rfl, hsum, hle, rfl, hfee⟩

lemma verifyMint_work :
    checkTerms P v.issuerState terms = .ok () ∧
      meetsTarget (powHash P v.issuerState.termsHash v.issuerState.lane v.issuerState.seq
        v.witness.itemCommitment v.witness.nonce) v.issuerState.targetPrefix = .ok true := by
  obtain ⟨_, -, -, hwork, -, -, hstate, -, -⟩ := verifyMint_eq_ok h
  simp only [checkMintWork, ok_iff] at hwork
  obtain ⟨hterms, _, -, _, -, _, hmeets, rfl, _, -, -, -, rfl⟩ := hwork
  rw [hstate] at hterms hmeets
  exact ⟨hterms, hmeets⟩

lemma verifyMint_item :
    outputIndices tx (itemOwnerScript v.witness.ownerKey) = [v.itemOutputIndex] := by
  obtain ⟨_, _, -, -, houts, -, -, hitem, -⟩ := verifyMint_eq_ok h
  rw [← hitem]
  exact (classifyOutputs_eq_ok houts).1

lemma verifyMint_owner :
    ∃ input, tx.input[v.issuerInputIndex]? = some input ∧ input.witness.length = 7 ∧
      input.witness[3]? = some v.witness.ownerKey.serialize.bytes := by
  obtain ⟨_, -, hspend, hwork, -, hindex, -, -, -⟩ := verifyMint_eq_ok h
  simp only [checkIssuerSpend, ok_iff] at hspend
  obtain ⟨_, -, input, hinput, hseven, _, -, _, -, _, -, -, -, _, -, _, -, _, -, -, rfl⟩ := hspend
  simp only [checkMintWork, parseMintWitness, ok_iff] at hwork
  obtain ⟨-, _, hslice, _, hmw, -, -, -, -, -, -, -, hv⟩ := hwork
  obtain ⟨-, _, -, -, _, -, _, -, _, -, ownerBytes, howner, key, hkey, _, -, rfl⟩ := hmw
  rw [hseven, sliceTo_of_le (by omega), Except.ok.injEq] at hslice
  rw [← hslice, getElem?_take_of_lt (by omega)] at howner
  have hbytes : key.serialize.bytes = ownerBytes := by
    unfold Platform.xonlyFromSlice Bytes32.ofBytes at hkey
    split_ifs at hkey
    · simp only [Option.bind_some] at hkey
      split_ifs at hkey
      rw [← Option.some.inj hkey]
    · simp at hkey
  rw [← hindex, ← hv]
  exact ⟨input, hinput, hseven, by rw [howner, hbytes]⟩

end Accepted

structure DiscoveredIssuerSpend where
  outpoint : OutPoint
  inputIndex : ℕ
  state : IssuerState
  deriving DecidableEq

structure DiscoveredP2trCandidate where
  outputIndex : ℕ
  value : UInt64
  outputKey : Bytes
  deriving DecidableEq

structure TxDiscovery where
  txid : Txid
  consumedIssuers : List DiscoveredIssuerSpend
  p2trCandidates : List DiscoveredP2trCandidate
  deriving DecidableEq

/-- The input loop of `discover`. -/
def discoverInputs : List (TxIn × ℕ) → Except Panic (List DiscoveredIssuerSpend)
  | [] => .ok []
  | (input, inputIndex) :: rest =>
    if input.witness.length < 2 then discoverInputs rest
    else do
      let script ← index input.witness (input.witness.length - 2)
      let parsed ← parseIssuerScript script
      let later ← discoverInputs rest
      return match parsed with
        | none => later
        | some state =>
          { outpoint := input.previousOutput, inputIndex := inputIndex, state := state } :: later

def p2trCandidates : List DiscoveredP2trCandidate :=
  tx.output.zipIdx.filterMap fun o => (p2trKeyBytes o.1.scriptPubkey).map fun key =>
    { outputIndex := o.2, value := o.1.value, outputKey := key }

/-- The issuer states a transaction spends. -/
def discover : Except Panic TxDiscovery := do
  let consumed ← discoverInputs tx.input.zipIdx
  return { txid := P.computeTxid tx, consumedIssuers := consumed,
           p2trCandidates := if consumed.isEmpty then [] else p2trCandidates tx }

end Catomicals.Issuance
