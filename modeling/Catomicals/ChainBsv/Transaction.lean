import Catomicals.ChainBitcoinCash.Transaction

/-!
# Digests of the BSV adapter

The digest that a signature signs is computed apart from the Bitcoin Cash adapter, over types of its
own. Both compute the same digest, but this one also refuses long script codes.
-/
namespace Catomicals.ChainBsv

open Base List ChainBitcoinCash

inductive BsvError where
  | inputIndexOutOfBounds (index : ℕ)
  | missingSingleOutput (index : ℕ)
  | invalidSigningMaterial (reason : String)

structure TxInput where
  previousTxidLe : Bytes32
  previousOutputIndex : UInt32
  scriptSig : Bytes
  sequence : UInt32

structure TxOutput where
  valueSatoshis : UInt64
  scriptPubkey : Bytes

structure Transaction where
  version : Int32
  inputs : List TxInput
  outputs : List TxOutput
  lockTime : UInt32

/-- A type that `from_u8` accepts. -/
structure ForkIdSighashType where
  toU8 : UInt8
  accepted : toU8 ∈ [0x41, 0x42, 0x43, 0xc1, 0xc2, 0xc3]

variable (t : ForkIdSighashType)

def ForkIdSighashType.base : UInt8 := t.toU8 &&& 0x1f

def ForkIdSighashType.anyoneCanPay : Bool := t.toU8 &&& 0x80 ≠ 0

def maxTransactionInputs : ℕ := 100000

def maxTransactionOutputs : ℕ := 100000

def maxScriptBytes : ℕ := 10000000

def writeCompactSize (value : ℕ) : Bytes :=
  if value < 0xfd then leBytes 1 value
  else if value ≤ 0xffff then 0xfd :: leBytes 2 value
  else if value ≤ 0xffffffff then 0xfe :: leBytes 4 value
  else 0xff :: leBytes 8 value

def writeScript (script : Bytes) : Bytes := writeCompactSize script.length ++ script

def writeOutpoint (input : TxInput) : Bytes :=
  input.previousTxidLe.bytes ++ leBytes 4 input.previousOutputIndex.toNat

def writeOutput (output : TxOutput) : Bytes :=
  leBytes 8 output.valueSatoshis.toNat ++ writeScript output.scriptPubkey

variable (doubleSha256 : Bytes → Bytes32) (tx : Transaction) (inputIndex : ℕ) (scriptCode : Bytes)
  (inputValueSatoshis : UInt64) (sighashType : ForkIdSighashType)

def validateTransaction : Except BsvError Unit := do
  require (tx.inputs ≠ [] ∧ tx.inputs.length ≤ maxTransactionInputs)
    (.invalidSigningMaterial "transaction input count is outside the configured bounds")
  require (tx.outputs ≠ [] ∧ tx.outputs.length ≤ maxTransactionOutputs)
    (.invalidSigningMaterial "transaction output count is outside the configured bounds")
  require ((∀ i ∈ tx.inputs, i.scriptSig.length ≤ maxScriptBytes) ∧
      ∀ o ∈ tx.outputs, o.scriptPubkey.length ≤ maxScriptBytes)
    (.invalidSigningMaterial "transaction script exceeds the configured bound")

def hashOutputs : Bytes32 :=
  if sighashType.base = 1 then doubleSha256 (tx.outputs.flatMap writeOutput)
  else if sighashType.base = 3 then doubleSha256 (tx.outputs[inputIndex]?.elim [] writeOutput)
  else .zeros

def forkIdSighash : Except BsvError Bytes32 := do
  validateTransaction tx
  require (scriptCode.length ≤ maxScriptBytes)
    (.invalidSigningMaterial "scriptCode exceeds the configured bound")
  let input ← orError tx.inputs[inputIndex]? (.inputIndexOutOfBounds inputIndex)
  require (sighashType.base = 3 → inputIndex < tx.outputs.length) (.missingSingleOutput inputIndex)
  let hashPrevouts :=
    if sighashType.anyoneCanPay then .zeros else doubleSha256 (tx.inputs.flatMap writeOutpoint)
  let hashSequence :=
    if sighashType.anyoneCanPay ∨ sighashType.base = 2 ∨ sighashType.base = 3 then .zeros
    else doubleSha256 (tx.inputs.flatMap fun i => leBytes 4 i.sequence.toNat)
  let hashOutputs := hashOutputs doubleSha256 tx inputIndex sighashType
  return doubleSha256 (leBytes 4 tx.version.toUInt32.toNat ++ hashPrevouts.bytes
    ++ hashSequence.bytes ++ writeOutpoint input ++ writeScript scriptCode
    ++ leBytes 8 inputValueSatoshis.toNat ++ leBytes 4 input.sequence.toNat ++ hashOutputs.bytes
    ++ leBytes 4 tx.lockTime.toNat ++ leBytes 4 sighashType.toU8.toUInt32.toNat)

def ForkIdSighashType.toBch : ChainBitcoinCash.ForkIdSighashType :=
  ⟨t.toU8.toUInt32⟩

def TxInput.toBch (i : TxInput) : ChainBitcoinCash.TxIn :=
  ⟨⟨i.previousTxidLe, i.previousOutputIndex⟩, i.scriptSig, i.sequence⟩

def TxOutput.toBch (o : TxOutput) : ChainBitcoinCash.TxOut := ⟨o.valueSatoshis, o.scriptPubkey⟩

def Transaction.toBch : ChainBitcoinCash.Transaction :=
  ⟨tx.version, tx.inputs.map TxInput.toBch, tx.outputs.map TxOutput.toBch, tx.lockTime⟩

def spend : Spend := ⟨tx.toBch, inputIndex, scriptCode, inputValueSatoshis, sighashType.toBch⟩

lemma writeScript_eq : writeScript = writeVarBytes := by
  funext script
  simp only [writeScript, writeVarBytes, writeCompactSize, writeVarInt,
    show script.length < 0xfd ↔ script.length ≤ 0xfc by omega]

lemma writeOutput_eq : writeOutput = fun o => encodeOutput o.toBch := by
  funext o
  rw [writeOutput, writeScript_eq]
  rfl

lemma toBch_hashType : (t.toBch.base = 1 ↔ t.base = 1) ∧
    (t.toBch.base = 2 ↔ t.base = 2) ∧ (t.toBch.base = 3 ↔ t.base = 3) ∧
    t.toBch.anyoneCanPay = t.anyoneCanPay ∧ (t.base = 1 ∨ t.base = 2 ∨ t.base = 3) := by
  obtain ⟨v, hv⟩ := t
  simp only [mem_cons, not_mem_nil, or_false] at hv
  rcases hv with rfl | rfl | rfl | rfl | rfl | rfl <;> decide +revert

/-- A digest is returned exactly for what is accepted, and is Bitcoin Cash's. -/
theorem forkIdSighash_eq_ok (digest : Bytes32) :
    forkIdSighash doubleSha256 tx inputIndex scriptCode inputValueSatoshis sighashType =
        .ok digest ↔
      validateTransaction tx = .ok () ∧ scriptCode.length ≤ maxScriptBytes ∧
      (sighashType.base = 3 → inputIndex < tx.outputs.length) ∧
      ChainBitcoinCash.forkIdSighash doubleSha256
        (spend tx inputIndex scriptCode inputValueSatoshis sighashType) = .ok digest := by
  obtain ⟨hone, htwo, hthree, hpay, hbase⟩ := toBch_hashType sighashType
  have houts : (sighashType.base = 3 → inputIndex < tx.outputs.length) →
      ChainBitcoinCash.hashOutputs doubleSha256
        (spend tx inputIndex scriptCode inputValueSatoshis sighashType) =
        .ok (hashOutputs doubleSha256 tx inputIndex sighashType) := by
    intro hsingle
    simp only [ChainBitcoinCash.hashOutputs, hashOutputs, spend, hone, htwo, hthree, writeOutput_eq,
      Transaction.toBch, flatMap_map]
    rcases hbase with h | h | h
    · simp [h]
    · simp [h]
    · simp [h, hsingle h]
  simp only [forkIdSighash, ChainBitcoinCash.forkIdSighash, ok_iff]
  refine and_congr_right fun _ => and_congr_right fun _ => ?_
  rw [exists_congr fun _ => and_left_comm, exists_and_left]
  refine and_congr_right fun hsingle => ?_
  simp only [houts hsingle, Spend.preimage]
  simp only [spend, hpay, htwo, hthree, writeScript_eq, ChainBitcoinCash.Transaction.prevouts,
    ChainBitcoinCash.Transaction.sequences, Transaction.toBch, map_map, flatMap_map, getElem?_map,
    Option.map_eq_some_iff, exists_exists_and_eq_and, Except.ok.injEq, exists_eq_left']
  rfl

/-- A long script code is refused here and hashed by Bitcoin Cash. -/
theorem forkIdSighash_long_scriptCode :
    let tx : Transaction := ⟨1, [⟨.zeros, 0, [], 0⟩], [⟨0, []⟩], 0⟩
    let scriptCode := replicate (maxScriptBytes + 1) 0
    validateTransaction tx = .ok () ∧
      forkIdSighash (fun _ => .zeros) tx 0 scriptCode 0 ⟨0x41, by decide⟩ =
        .error (.invalidSigningMaterial "scriptCode exceeds the configured bound") ∧
      ChainBitcoinCash.forkIdSighash (fun _ => .zeros) (spend tx 0 scriptCode 0 ⟨0x41, by decide⟩) =
        .ok .zeros := by
  refine ⟨rfl, ?_, rfl⟩
  rw [forkIdSighash, require_neg (by simp)]
  rfl

end Catomicals.ChainBsv
