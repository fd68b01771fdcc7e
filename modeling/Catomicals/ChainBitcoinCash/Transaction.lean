import Catomicals.Base.Reader
import Catomicals.ChainBitcoinCash.CashAddr

/-!
# Transactions of the Bitcoin Cash adapter

The wire format of transactions, and the digest that a signature with a fork id signs.
-/
namespace Catomicals.ChainBitcoinCash

open Base Reader List

structure OutPoint where
  txid : Bytes32
  outputIndex : UInt32

structure TxIn where
  previousOutput : OutPoint
  scriptSig : Bytes
  sequence : UInt32

structure TxOut where
  value : UInt64
  scriptPubkey : Bytes

structure Transaction where
  version : Int32
  inputs : List TxIn
  outputs : List TxOut
  lockTime : UInt32

def maxTransactionBytes : ℕ := 32 * 1024 * 1024

def maxTransactionElements : ℕ := 1000000

def writeVarInt (value : ℕ) : Bytes :=
  if value ≤ 0xfc then leBytes 1 value
  else if value ≤ 0xffff then 0xfd :: leBytes 2 value
  else if value ≤ 0xffffffff then 0xfe :: leBytes 4 value
  else 0xff :: leBytes 8 value

def writeVarBytes (bytes : Bytes) : Bytes := writeVarInt bytes.length ++ bytes

def encodeOutpoint (outpoint : OutPoint) : Bytes :=
  outpoint.txid.bytes ++ leBytes 4 outpoint.outputIndex.toNat

def encodeOutput (output : TxOut) : Bytes :=
  leBytes 8 output.value.toNat ++ writeVarBytes output.scriptPubkey

def encodeInput (input : TxIn) : Bytes :=
  encodeOutpoint input.previousOutput ++ writeVarBytes input.scriptSig
    ++ leBytes 4 input.sequence.toNat

def Transaction.encode (tx : Transaction) : Bytes :=
  leBytes 4 tx.version.toUInt32.toNat
    ++ writeVarInt tx.inputs.length ++ tx.inputs.flatMap encodeInput
    ++ writeVarInt tx.outputs.length ++ tx.outputs.flatMap encodeOutput
    ++ leBytes 4 tx.lockTime.toNat

def readU32 : Reader Error UInt32 := do
  let value ← number 4 .malformedTransaction
  return UInt32.ofNat value

def readU64 : Reader Error UInt64 := do
  let value ← number 8 .malformedTransaction
  return UInt64.ofNat value

def readI32 : Reader Error Int32 := do
  let value ← readU32
  return Int32.ofUInt32 value

def readTxid : Reader Error Bytes32 := do
  let bytes ← take 32 .malformedTransaction
  lift (.okOr (Bytes32.ofBytes bytes) .malformedTransaction)

/-- The value behind a marker byte, which must need its width. -/
def readLongInt (width least : ℕ) : Reader Error ℕ :=
  checked (number width .malformedTransaction) (least ≤ ·) .nonCanonicalVarInt

/-- `read_var_int`, which takes the shortest form only. -/
def readVarInt : Reader Error ℕ := do
  let first ← byte .malformedTransaction
  if first ≤ 0xfc then return first.toNat
  else if first = 0xfd then readLongInt 2 0xfd
  else if first = 0xfe then readLongInt 4 0x10000
  else readLongInt 8 0x100000000

/-- `read_count`, whose bound precedes every allocation. -/
def readCount (field : String) : Reader Error ℕ :=
  checked readVarInt (· ≤ maxTransactionElements) (.tooManyTransactionElements field)

def readVarBytes : Reader Error Bytes := do
  let length ← readVarInt
  -- a length beyond `usize` fails with this error as well
  take length .malformedTransaction

def readInput : Reader Error TxIn := do
  let txid ← readTxid
  let outputIndex ← readU32
  let scriptSig ← readVarBytes
  let sequence ← readU32
  return ⟨⟨txid, outputIndex⟩, scriptSig, sequence⟩

def readOutput : Reader Error TxOut := do
  let value ← readU64
  let scriptPubkey ← readVarBytes
  return ⟨value, scriptPubkey⟩

/-- The elements of a vector, behind their number. -/
def readVector {α : Type} (field : String) (elementBytes : ℕ) (r : Reader Error α) :
    Reader Error (List α) := do
  let count ← readCount field
  collect r elementBytes count

/-- The body of `decode`. A `TxIn` has 64 bytes in memory, a `TxOut` 32. -/
def readTransaction : Reader Error Transaction := do
  let version ← readI32
  let inputs ← readVector "inputs" 64 readInput
  let outputs ← readVector "outputs" 32 readOutput
  let lockTime ← readU32
  return ⟨version, inputs, outputs, lockTime⟩

/-- The transaction that the bytes are the wire format of. -/
def Transaction.decode (bytes : Bytes) : Outcome Error Transaction :=
  if hsize : bytes.length ≤ maxTransactionBytes then do
    let (tx, position) ← readTransaction ⟨bytes, 2 ^ 64, hsize.trans_lt (by decide)⟩ 0
    Outcome.ensure (position = bytes.length) .trailingTransactionData
    return tx
  else .error (.error (.transactionTooLarge maxTransactionBytes))

lemma reads_u32 : Reads readU32 (fun _ => True) fun a => leBytes 4 a.toNat :=
  (reads_number 4).map (fun _ ha => ⟨trivial, UInt32.toNat_ofNat_of_lt ha⟩)
    fun a _ => ⟨a.toNat_lt, UInt32.ofNat_toNat⟩

lemma reads_u64 : Reads readU64 (fun _ => True) fun a => leBytes 8 a.toNat :=
  (reads_number 8).map (fun _ ha => ⟨trivial, UInt64.toNat_ofNat_of_lt ha⟩)
    fun a _ => ⟨a.toNat_lt, UInt64.ofNat_toNat⟩

lemma reads_i32 : Reads readI32 (fun _ => True) fun a => leBytes 4 a.toUInt32.toNat :=
  reads_u32.map (fun _ _ => ⟨trivial, rfl⟩) fun _ _ => ⟨trivial, rfl⟩

lemma reads_txid : Reads readTxid (fun _ => True) Bytes32.bytes := by
  refine (reads_take 32).bind (q := fun b a => a.bytes = b) (w := fun _ _ => []) ?_ ?_ ?_
  · intro b hb
    apply reads_lift
    · intro a
      simp only [Outcome.okOr_eq_ok, Bytes32.ofBytes, dif_pos hb, Option.some.injEq]
      constructor
      · rintro rfl
        rfl
      · rintro rfl
        rfl
    · simp
  · simp
  · rintro _ _ - rfl
    simp

lemma reads_longInt (width least : ℕ) : Reads (readLongInt width least)
    (fun n => n < 256 ^ width ∧ least ≤ n) (leBytes width) :=
  (reads_number width).checked _ _

lemma head?_writeVarInt {n : ℕ} {first : UInt8} :
    (writeVarInt n).head? = some first ↔
      if first ≤ 0xfc then n = first.toNat
      else if first = 0xfd then n < 256 ^ 2 ∧ 0xfd ≤ n
      else if first = 0xfe then n < 256 ^ 4 ∧ 0x10000 ≤ n
      else 0x100000000 ≤ n := by
  have hhead : ∃ head, (writeVarInt n).head? = some head ∧ head.toNat =
      if n ≤ 0xfc then n else if n ≤ 0xffff then 0xfd
      else if n ≤ 0xffffffff then 0xfe else 0xff := by
    rw [writeVarInt]
    split_ifs with hn
    · exact ⟨_, rfl, Nat.mod_eq_of_lt (by omega)⟩
    all_goals exact ⟨_, rfl, rfl⟩
  have hfc : first ≤ 0xfc ↔ first.toNat ≤ 0xfc := Iff.rfl
  have hfd : first = 0xfd ↔ first.toNat = 0xfd := UInt8.toNat_inj.symm
  have hfe : first = 0xfe ↔ first.toNat = 0xfe := UInt8.toNat_inj.symm
  have hlt := first.toNat_lt
  obtain ⟨head, heq, htoNat⟩ := hhead
  rw [heq, Option.some.injEq, ← UInt8.toNat_inj, htoNat]
  simp only [hfc, hfd, hfe]
  split_ifs <;> omega

lemma tail_writeVarInt {n : ℕ} :
    (writeVarInt n).tail = if n ≤ 0xfc then [] else if n ≤ 0xffff then leBytes 2 n
      else if n ≤ 0xffffffff then leBytes 4 n else leBytes 8 n := by
  rw [writeVarInt]
  split_ifs <;> rfl

lemma reads_varInt : Reads readVarInt (· < 2 ^ 64) writeVarInt := by
  refine reads_byte.bind (q := fun first n => n < 2 ^ 64 ∧ (writeVarInt n).head? = some first)
    (w := fun _ n => (writeVarInt n).tail) ?_ ?_ ?_
  · intro first _
    simp only [head?_writeVarInt, tail_writeVarInt]
    split_ifs with hfc
    · have hfc : first.toNat ≤ 0xfc := hfc
      refine (reads_pure first.toNat).congr (fun n => by omega) ?_
      rintro _ rfl
      rw [if_pos hfc]
    · refine (reads_longInt 2 0xfd).congr (fun n => by omega) fun n hn => ?_
      rw [if_neg (by omega), if_pos (by omega)]
    · refine (reads_longInt 4 0x10000).congr (fun n => by omega) fun n hn => ?_
      rw [if_neg (by omega), if_neg (by omega), if_pos (by omega)]
    · refine (reads_longInt 8 0x100000000).congr (fun n => by omega) fun n hn => ?_
      rw [if_neg (by omega), if_neg (by omega), if_neg (by omega)]
  · intro n
    have hne : writeVarInt n ≠ [] := by
      rw [writeVarInt]
      split_ifs <;> simp [leBytes]
    obtain ⟨first, _, hcons⟩ := exists_cons_of_ne_nil hne
    simp [hcons]
  · rintro first n - ⟨-, hfirst⟩
    exact (cons_head?_tail hfirst).symm

lemma reads_count (field : String) :
    Reads (readCount field) (· ≤ maxTransactionElements) writeVarInt := by
  refine (reads_varInt.checked _ _).congr ?_ fun _ _ => rfl
  intro n
  constructor
  · intro hn
    exact ⟨hn.trans_lt (by decide), hn⟩
  · rintro ⟨-, hn⟩
    exact hn

lemma reads_varBytes : Reads readVarBytes (·.length < 2 ^ 64) writeVarBytes := by
  refine reads_varInt.bind (q := fun n b => b.length = n) (w := fun _ b => b)
    (fun n _ => reads_take n) ?_ ?_
  · simp
  · rintro _ b - rfl
    rfl

lemma reads_input : Reads readInput (·.scriptSig.length < 2 ^ 64) encodeInput := by
  have hall := (reads_txid.both (reads_u32.both (reads_varBytes.both reads_u32))).map
    (f := fun x => (⟨⟨x.1, x.2.1⟩, x.2.2.1, x.2.2.2⟩ : TxIn))
    (g := fun i => (i.previousOutput.txid, i.previousOutput.outputIndex, i.scriptSig, i.sequence))
    (u := (·.scriptSig.length < 2 ^ 64)) (by simp) (by simp)
  simp only [Reader.both, bind_assoc, pure_bind] at hall
  refine hall.congr (fun _ => Iff.rfl) ?_
  simp [encodeInput, encodeOutpoint]

lemma reads_output : Reads readOutput (·.scriptPubkey.length < 2 ^ 64) encodeOutput := by
  have hall := (reads_u64.both reads_varBytes).map (f := fun x => (⟨x.1, x.2⟩ : TxOut))
    (g := fun o => (o.value, o.scriptPubkey)) (u := (·.scriptPubkey.length < 2 ^ 64)) (by simp)
    (by simp)
  simp only [Reader.both, bind_assoc, pure_bind] at hall
  exact hall

lemma reads_vector {α : Type} {r : Reader Error α} {p : α → Prop} {write : α → Bytes}
    (h : Reads r p write) (field : String) {elementBytes : ℕ} (hsmall : elementBytes ≤ 64) :
    Reads (readVector field elementBytes r)
      (fun l => l.length ≤ maxTransactionElements ∧ ∀ a ∈ l, p a)
      fun l => writeVarInt l.length ++ l.flatMap write := by
  refine (reads_count field).bind (q := fun n l => l.length = n ∧ ∀ a ∈ l, p a)
    (w := fun _ l => l.flatMap write) ?_ ?_ ?_
  · intro n hn
    apply h.collect
    calc n * elementBytes ≤ maxTransactionElements * 64 := Nat.mul_le_mul hn hsmall
      _ < 2 ^ 63 := by decide
  · simp
  · rintro _ l - ⟨rfl, -⟩
    rfl

/-- The element counts the decoder accepts, and script lengths of the source's type. -/
structure Transaction.Readable (tx : Transaction) : Prop where
  inputs : tx.inputs.length ≤ maxTransactionElements
  outputs : tx.outputs.length ≤ maxTransactionElements
  scriptSigs : ∀ i ∈ tx.inputs, i.scriptSig.length < 2 ^ 64
  scriptPubkeys : ∀ o ∈ tx.outputs, o.scriptPubkey.length < 2 ^ 64

lemma reads_transaction : Reads readTransaction Transaction.Readable Transaction.encode := by
  have hall := (reads_i32.both ((reads_vector reads_input "inputs" le_rfl).both
    ((reads_vector reads_output "outputs" (by decide : 32 ≤ 64)).both reads_u32))).map
    (f := fun x => (⟨x.1, x.2.1, x.2.2.1, x.2.2.2⟩ : Transaction))
    (g := fun tx => (tx.version, tx.inputs, tx.outputs, tx.lockTime)) (u := Transaction.Readable)
    (fun _ ⟨_, ⟨hins, hsigs⟩, ⟨houts, hkeys⟩, _⟩ => ⟨⟨hins, houts, hsigs, hkeys⟩, rfl⟩)
    (fun _ h => ⟨⟨trivial, ⟨h.inputs, h.scriptSigs⟩, ⟨h.outputs, h.scriptPubkeys⟩, trivial⟩, rfl⟩)
  simp only [Reader.both, bind_assoc, pure_bind] at hall
  refine hall.congr (fun _ => Iff.rfl) ?_
  simp [Transaction.encode]

lemma length_le_of_mem_flatMap {α : Type} {f : α → Bytes} {l : List α} {a : α} (h : a ∈ l) :
    (f a).length ≤ (l.flatMap f).length :=
  (infix_of_mem_flatten (mem_map_of_mem h)).length_le

lemma Transaction.readable {tx : Transaction} (hsize : tx.encode.length ≤ maxTransactionBytes)
    (hins : tx.inputs.length ≤ maxTransactionElements)
    (houts : tx.outputs.length ≤ maxTransactionElements) : tx.Readable := by
  have hmax : maxTransactionBytes < 2 ^ 64 := by decide
  simp only [encode, length_append] at hsize
  refine ⟨hins, houts, fun i hi => ?_, fun o ho => ?_⟩
  · have hle := length_le_of_mem_flatMap (f := encodeInput) hi
    simp only [encodeInput, writeVarBytes, length_append] at hle
    omega
  · have hle := length_le_of_mem_flatMap (f := encodeOutput) ho
    simp only [encodeOutput, writeVarBytes, length_append] at hle
    omega

/-- The decoder accepts exactly the encodings of transactions within its limits, and never
panics. -/
theorem Transaction.decode_correct (bytes : Bytes) :
    ¬(decode bytes).Panics ∧ ∀ tx, decode bytes = .ok tx ↔
      bytes = tx.encode ∧ tx.encode.length ≤ maxTransactionBytes ∧
        tx.inputs.length ≤ maxTransactionElements ∧
        tx.outputs.length ≤ maxTransactionElements := by
  by_cases hsize : bytes.length ≤ maxTransactionBytes
  · obtain ⟨hreads, hfails⟩ :=
      reads_transaction ⟨bytes, 2 ^ 64, hsize.trans_lt (by decide)⟩ 0 (Nat.zero_le _)
    refine ⟨?_, fun tx => ⟨?_, ?_⟩⟩
    · rw [decode, dif_pos hsize, Outcome.panics_bind]
      rintro (⟨_, hpanic⟩ | ⟨_, -, hpanic⟩)
      · rcases hfails with ⟨tx, rest, htx, hword⟩ | ⟨e, he⟩
        · cases (hreads tx rest htx hword).symm.trans hpanic
        · cases he.symm.trans hpanic
      · rw [Outcome.panics_bind] at hpanic
        simp at hpanic
    · intro hdecode
      simp only [decode, dif_pos hsize, ok_iff, Prod.exists] at hdecode
      obtain ⟨tx', _, hread, hend, rfl⟩ := hdecode
      rcases hfails with ⟨tx, rest, htx, rfl⟩ | ⟨e, he⟩
      · cases (hreads tx rest htx rfl).symm.trans hread
        obtain rfl : rest = [] := by simpa using hend
        rw [append_nil] at hsize ⊢
        exact ⟨rfl, hsize, htx.inputs, htx.outputs⟩
      · cases he.symm.trans hread
    · rintro ⟨rfl, -, hins, houts⟩
      have hread := hreads tx [] (tx.readable hsize hins houts) (append_nil _).symm
      simp only [decode, dif_pos hsize, hread]
      simp [Outcome.ensure]
  · rw [decode, dif_neg hsize]
    refine ⟨by simp, fun tx => ⟨by simp, ?_⟩⟩
    rintro ⟨rfl, hle, -⟩
    exact absurd hle hsize

@[ext] structure ForkIdSighashType where
  raw : UInt32

def ForkIdSighashType.base (t : ForkIdSighashType) : UInt32 := t.raw &&& 0x1f

def ForkIdSighashType.anyoneCanPay (t : ForkIdSighashType) : Bool := t.raw &&& 0x80 ≠ 0

/-- What a digest is computed for. -/
structure Spend where
  transaction : Transaction
  inputIndex : ℕ
  scriptCode : Bytes
  inputValue : UInt64
  hashType : ForkIdSighashType

def Transaction.prevouts (tx : Transaction) : Bytes :=
  (tx.inputs.map TxIn.previousOutput).flatMap encodeOutpoint

def Transaction.sequences (tx : Transaction) : Bytes :=
  (tx.inputs.map TxIn.sequence).flatMap fun sequence => leBytes 4 sequence.toNat

/-- The bytes that are hashed for a signature. -/
def Spend.preimage (s : Spend) (input : TxIn) (hashPrevouts hashSequence hashOutputs : Bytes32) :
    Bytes :=
  leBytes 4 s.transaction.version.toUInt32.toNat ++ hashPrevouts.bytes ++ hashSequence.bytes
    ++ encodeOutpoint input.previousOutput ++ writeVarBytes s.scriptCode
    ++ leBytes 8 s.inputValue.toNat ++ leBytes 4 input.sequence.toNat ++ hashOutputs.bytes
    ++ leBytes 4 s.transaction.lockTime.toNat ++ leBytes 4 s.hashType.raw.toNat

section Sighash

variable (doubleSha256 : Bytes → Bytes32) (s : Spend)

/-- Of all outputs, of that at the input's place, or zeros. -/
def hashOutputs : Except Error Bytes32 :=
  if s.hashType.base = 1 then .ok (doubleSha256 (s.transaction.outputs.flatMap encodeOutput))
  else if s.hashType.base = 3 then
    match s.transaction.outputs[s.inputIndex]? with
    | some output => .ok (doubleSha256 (encodeOutput output))
    | none => .ok .zeros
  else if s.hashType.base = 2 then .ok .zeros
  else .error (.unsupportedSighashType s.hashType.raw)

def forkIdSighash : Except Error Bytes32 := do
  let tx := s.transaction
  let input ← orError tx.inputs[s.inputIndex]?
      (.inputIndexOutOfBounds s.inputIndex tx.inputs.length)
  let hashPrevouts := if s.hashType.anyoneCanPay then .zeros else doubleSha256 tx.prevouts
  let hashSequence :=
    if s.hashType.anyoneCanPay ∨ s.hashType.base = 2 ∨ s.hashType.base = 3 then .zeros
    else doubleSha256 tx.sequences
  let hashOutputs ← hashOutputs doubleSha256 s
  return doubleSha256 (s.preimage input hashPrevouts hashSequence hashOutputs)

/-- What a signature over everything signs. -/
def Spend.signed (input : TxIn) : Bytes :=
  s.preimage input (doubleSha256 s.transaction.prevouts) (doubleSha256 s.transaction.sequences)
    (doubleSha256 (s.transaction.outputs.flatMap encodeOutput))

/-- The byte strings that are hashed for it. -/
def Spend.hashed : Set Bytes := fun bytes =>
  bytes = s.transaction.prevouts ∨ bytes = s.transaction.sequences ∨
    bytes = s.transaction.outputs.flatMap encodeOutput ∨
    ∃ input, s.transaction.inputs[s.inputIndex]? = some input ∧ bytes = s.signed doubleSha256 input

/-- The hash type is `ALL` without `ANYONECANPAY`, and script lengths are of the source's type. -/
structure Spend.All : Prop where
  base : s.hashType.base = 1
  everyone : s.hashType.anyoneCanPay = false
  scriptCode : s.scriptCode.length < 2 ^ 64
  outputs : ∀ o ∈ s.transaction.outputs, o.scriptPubkey.length < 2 ^ 64

/-- The spends agree on what a signature over everything covers. -/
structure Spend.Agrees (s' : Spend) : Prop where
  version : s.transaction.version = s'.transaction.version
  outpoints : s.transaction.inputs.map TxIn.previousOutput =
    s'.transaction.inputs.map TxIn.previousOutput
  sequences : s.transaction.inputs.map TxIn.sequence = s'.transaction.inputs.map TxIn.sequence
  outputs : s.transaction.outputs = s'.transaction.outputs
  lockTime : s.transaction.lockTime = s'.transaction.lockTime
  scriptCode : s.scriptCode = s'.scriptCode
  inputValue : s.inputValue = s'.inputValue
  hashType : s.hashType = s'.hashType
  signed : (s.transaction.inputs[s.inputIndex]?).map (fun i => (i.previousOutput, i.sequence)) =
    (s'.transaction.inputs[s'.inputIndex]?).map fun i => (i.previousOutput, i.sequence)

variable {doubleSha256}

lemma encodeOutpoint_append {a b : OutPoint} {r s : Bytes} :
    encodeOutpoint a ++ r = encodeOutpoint b ++ s ↔ a = b ∧ r = s := by
  simp only [encodeOutpoint, append_assoc, reads_txid.append_iff trivial trivial,
    reads_u32.append_iff trivial trivial]
  cases a
  cases b
  simp [and_assoc]

lemma Spend.All.eq_signed {s : Spend} (h : s.All) {digest : Bytes32}
    (hdig : forkIdSighash doubleSha256 s = .ok digest) :
    ∃ input, s.transaction.inputs[s.inputIndex]? = some input ∧
      digest = doubleSha256 (s.signed doubleSha256 input) := by
  have hbase : ¬((1 : UInt32) = 2 ∨ (1 : UInt32) = 3) := by decide
  simp only [forkIdSighash, hashOutputs, ok_iff, h.base, h.everyone, Bool.false_eq_true, false_or,
    hbase, if_true, if_false, Except.ok.injEq, exists_eq_left'] at hdig
  obtain ⟨input, hinput, rfl⟩ := hdig
  exact ⟨input, hinput, rfl⟩

/-- Signatures over everything with the same digest cover the same, if no hashed byte strings
collide. -/
theorem forkIdSighash_binds {s s' : Spend} (h : s.All) (h' : s'.All)
    (hfree : Set.InjOn doubleSha256 (s.hashed doubleSha256 ∪ s'.hashed doubleSha256))
    {digest : Bytes32} (hdig : forkIdSighash doubleSha256 s = .ok digest)
    (hdig' : forkIdSighash doubleSha256 s' = .ok digest) : s.Agrees s' := by
  obtain ⟨input, hinput, rfl⟩ := h.eq_signed hdig
  obtain ⟨input', hinput', hsame⟩ := h'.eq_signed hdig'
  have hpre := hfree (.inl (.inr (.inr (.inr ⟨input, hinput, rfl⟩))))
    (.inr (.inr (.inr (.inr ⟨input', hinput', rfl⟩)))) hsame
  simp only [Spend.signed, Spend.preimage, append_assoc, reads_i32.append_iff trivial trivial,
    reads_txid.append_iff trivial trivial, encodeOutpoint_append,
    reads_varBytes.append_iff h.scriptCode h'.scriptCode, reads_u64.append_iff trivial trivial,
    reads_u32.append_iff trivial trivial] at hpre
  obtain ⟨hvers, hprev, hseqs, hpoint, hcode, hvalue, hseq, houts, hlock, htype⟩ := hpre
  have htype := (reads_u32.append_iff (s := []) (t := []) trivial trivial).mp (by simpa using htype)
  have hprev := hfree (.inl (.inl rfl)) (.inr (.inl rfl)) hprev
  have hseqs := hfree (.inl (.inr (.inl rfl))) (.inr (.inr (.inl rfl))) hseqs
  have houts := hfree (.inl (.inr (.inr (.inl rfl)))) (.inr (.inr (.inr (.inl rfl)))) houts
  exact
    { version := hvers
      outpoints := flatMap_inj (.inl fun _ => by simp [encodeOutpoint, leBytes])
        (fun _ _ _ _ _ _ => encodeOutpoint_append.mp) hprev
      sequences := flatMap_inj (.inl fun _ => by simp [leBytes])
        (fun _ _ _ _ _ _ => (reads_u32.append_iff trivial trivial).mp) hseqs
      outputs := flatMap_inj (.inl fun _ => by simp [encodeOutput, leBytes])
        (fun o ho o' ho' _ _ =>
          (reads_output.append_iff (h.outputs o ho) (h'.outputs o' ho')).mp) houts
      lockTime := hlock
      scriptCode := hcode
      inputValue := hvalue
      hashType := ForkIdSighashType.ext_iff.mpr htype.1
      signed := by rw [hinput, hinput']; simp [hpoint, hseq] }

def lengthTag (bytes : Bytes) : Bytes32 := ⟨bytes.length.toUInt8 :: replicate 31 0, by simp⟩

/-- The second input of a transaction with an output is signed. -/
def spendOf (scriptSig : Bytes) : Spend where
  transaction :=
    { version := 1
      inputs := [⟨⟨.zeros, 0⟩, [], 7⟩, ⟨⟨.zeros, 1⟩, scriptSig, 7⟩]
      outputs := [⟨4, [0x51]⟩]
      lockTime := 0 }
  inputIndex := 1
  scriptCode := [0x51]
  inputValue := 5
  hashType := ⟨0x41⟩

theorem forkIdSighash_binds_scriptSig : (spendOf [1]).Agrees (spendOf [2]) := by
  have hall : ∀ scriptSig, (spendOf scriptSig).All := fun _ =>
    ⟨(by decide : (ForkIdSighashType.mk 0x41).base = 1),
      (by decide : (ForkIdSighashType.mk 0x41).anyoneCanPay = false),
      (by decide : [0x51].length < 2 ^ 64), by simp [spendOf]⟩
  refine forkIdSighash_binds (hall _) (hall _) ?_
    (rfl : forkIdSighash lengthTag _ = _) (rfl : forkIdSighash lengthTag _ = _)
  rintro _ ((rfl | rfl | rfl | ⟨_, ⟨rfl⟩, rfl⟩) | (rfl | rfl | rfl | ⟨_, ⟨rfl⟩, rfl⟩))
    _ ((rfl | rfl | rfl | ⟨_, ⟨rfl⟩, rfl⟩) | (rfl | rfl | rfl | ⟨_, ⟨rfl⟩, rfl⟩)) hab <;>
    first | rfl | exact absurd hab (by decide +kernel)

end Sighash

end Catomicals.ChainBitcoinCash
