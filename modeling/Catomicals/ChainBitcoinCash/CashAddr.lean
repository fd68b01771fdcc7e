import Catomicals.Base.Checksum
import Catomicals.Base.Regroup
import Catomicals.Domain.Chains

/-!
# CashAddr texts of the Bitcoin Cash adapter

The CashAddr parser of the `chain-bitcoin-cash` crate. Its checksum and its regrouping work on
machine words, whose masks keep every value inside the word.
-/
namespace Catomicals.ChainBitcoinCash

open Base Domain Checksum Regrouping List

inductive AddressKind where
  | p2pkh | p2sh

inductive AddressNetwork where
  | mainnet | testFamily | regtest | legacyNonMainnet
  deriving DecidableEq

structure Address where
  network : AddressNetwork
  kind : AddressKind
  hash : Bytes20

inductive Error where
  | mixedCaseAddress | invalidChecksum | invalidAddressEncoding | invalidAddressPayload
  | wrongNetwork (expected : BitcoinCashNetwork) (actual : String)
  | ambiguousAddressNetwork
  | malformedTransaction
  | nonCanonicalVarInt
  | tooManyTransactionElements (field : String)
  | trailingTransactionData
  | transactionTooLarge (maxBytes : ℕ)
  | inputIndexOutOfBounds (index inputCount : ℕ)
  | unsupportedSighashType (raw : UInt32)

def cashaddrCharset : List Char := "qpzry9x8gf2tvdw0s3jn54khce6mua7l".toList

def addressNetwork : BitcoinCashNetwork → AddressNetwork
  | .mainnet => .mainnet
  | .regtest => .regtest
  | .testnet3 | .testnet4 | .scalenet | .chipnet => .testFamily

def cashaddrPrefix : AddressNetwork → Option String
  | .mainnet => some "bitcoincash"
  | .testFamily => some "bchtest"
  | .regtest => some "bchreg"
  | .legacyNonMainnet => none

def addressNetworkName : AddressNetwork → String
  | .mainnet => "mainnet"
  | .testFamily => "test-family"
  | .regtest => "regtest"
  | .legacyNonMainnet => "legacy non-mainnet family"

def networkOfPrefix (actualPrefix : List Char) : Option AddressNetwork :=
  if actualPrefix = "bitcoincash".toList then some .mainnet
  else if actualPrefix = "bchtest".toList then some .testFamily
  else if actualPrefix = "bchreg".toList then some .regtest
  else none

variable (expectedNetwork : BitcoinCashNetwork)

def requireCashaddrNetwork (actualPrefix : List Char) : Except Error AddressNetwork := do
  let actualNetwork ← orError (networkOfPrefix actualPrefix)
    (.wrongNetwork expectedNetwork "unknown")
  require (actualNetwork = addressNetwork expectedNetwork)
    (.wrongNetwork expectedNetwork (addressNetworkName actualNetwork))
  pure actualNetwork

def asciiBytes (text : List Char) : Bytes := text.map fun c => UInt8.ofNat c.toNat

def prefixExpand (text : List Char) : Bytes := (asciiBytes text).map (· &&& 31) ++ [0]

def generators : List (BitVec 64) :=
  [0x98f2bc8e61#64, 0x79b76d99e2#64, 0xf33e5fb3c4#64, 0xae2eabe2a8#64, 0x1e4f43e470#64]

def polymodStep (checksum : BitVec 64) (value : UInt8) : BitVec 64 :=
  let high := checksum >>> 35
  let shifted := ((checksum &&& 0x7ffffffff#64) <<< 5) ^^^ value.toBitVec.setWidth 64
  generators.zipIdx.foldl
    (fun c g => if (high >>> g.2) &&& 1#64 ≠ 0#64 then c ^^^ g.1 else c) shifted

def polymod (values : Bytes) : BitVec 64 := values.foldl polymodStep 1#64 ^^^ 1#64

structure BitGroups where
  accumulator : BitVec 32
  bits : ℕ
  result : Bytes

/-- `(1 << width) - 1`. -/
def lowMask (width : ℕ) : BitVec 32 := (1#32 <<< width) - 1#32

/-- The inner loop: bytes are written while enough bits are held. -/
def drainBits (target : ℕ) (accumulator : BitVec 32) :
    (fuel bits : ℕ) → Bytes → ℕ × Bytes
  | 0, bits, result => (bits, result)
  | fuel + 1, bits, result =>
    if target ≤ bits then
      drainBits target accumulator fuel (bits - target)
        (result ++ [⟨((accumulator >>> (bits - target)) &&& lowMask target).setWidth 8⟩])
    else (bits, result)

def pushBits (source target : ℕ) (s : BitGroups) (value : UInt8) : Except Error BitGroups :=
  if (value.toBitVec.setWidth 32) >>> source ≠ 0#32 then .error .invalidAddressPayload
  else
    let accumulator := ((s.accumulator <<< source) ||| value.toBitVec.setWidth 32)
      &&& lowMask (source + target - 1)
    let bits := s.bits + source
    let drained := drainBits target accumulator bits bits s.result
    .ok ⟨accumulator, drained.1, drained.2⟩

/-- What is left over at the end: padded, or checked to be a few zeros. -/
def finishBits (source target : ℕ) (pad : Bool) (s : BitGroups) : Except Error Bytes :=
  let rest := (s.accumulator <<< (target - s.bits)) &&& lowMask target
  if pad then .ok (if s.bits ≠ 0 then s.result ++ [⟨rest.setWidth 8⟩] else s.result)
  else if source ≤ s.bits ∨ rest ≠ 0#32 then .error .invalidAddressPayload
  else .ok s.result

def convertBits (data : Bytes) (source target : ℕ) (pad : Bool) : Except Error Bytes := do
  let s ← data.foldlM (pushBits source target) ⟨0#32, 0, []⟩
  finishBits source target pad s

def splitOnce (text : List Char) : Option (List Char × List Char) :=
  match text.idxOf? ':' with
  | some i => some (text.take i, text.drop (i + 1))
  | none => none

/-- The prefix and the payload of a text in lower case. -/
def splitPrefix (normalized : List Char) : Except Error (List Char × List Char) :=
  match splitOnce normalized with
  | some (pre, payload) =>
    if ':' ∉ payload then .ok (pre, payload) else .error .invalidAddressEncoding
  | none => do
    let pre ← orError (cashaddrPrefix (addressNetwork expectedNetwork)) .invalidAddressEncoding
    pure (pre.toList, normalized)

def kindOfVersion (version : UInt8) : Except Error AddressKind :=
  if version = 0 then .ok .p2pkh
  else if version = 8 then .ok .p2sh
  else .error .invalidAddressPayload

def parseCashaddr (encoded : String) : Except Error Address := do
  let chars := encoded.toList
  require (¬(chars.any Char.isLower ∧ chars.any Char.isUpper)) .mixedCaseAddress
  require (∀ c ∈ chars, c.toNat < 128) .invalidAddressEncoding
  let normalized := chars.map Char.toLower
  let (pre, payloadText) ← splitPrefix expectedNetwork normalized
  require (pre ≠ [] ∧ 8 ≤ payloadText.length) .invalidAddressEncoding
  let network ← requireCashaddrNetwork expectedNetwork pre
  let payload ← payloadText.mapM fun c =>
    orError ((cashaddrCharset.idxOf? c).map UInt8.ofNat) .invalidAddressEncoding
  require (polymod (prefixExpand pre ++ payload) = 0#64) .invalidChecksum
  let data ← convertBits (payload.take (payload.length - 8)) 5 8 false
  require (data.length = 21) .invalidAddressPayload
  let kind ← kindOfVersion (data.headD 0)
  let hash ← orError (Bytes20.ofBytes (data.drop 1)) .invalidAddressPayload
  pure ⟨network, kind, hash⟩

def checksum : Checksum where
  symbols := 8
  generators := generators.map BitVec.toNat
  symbols_pos := by decide
  generators_lt := by decide

theorem toNat_feed (gs : List (BitVec 64 × ℕ)) (high c : BitVec 64) :
    (gs.foldl (fun c g => if (high >>> g.2) &&& 1#64 ≠ 0#64 then c ^^^ g.1 else c) c).toNat
      = feed (gs.map fun g => (g.1.toNat, g.2)) high.toNat c.toNat := by
  induction gs generalizing c with
  | nil => rfl
  | cons g _ ih =>
    have hbit : (high >>> g.2) &&& 1#64 ≠ 0#64 ↔ (high.toNat >>> g.2) &&& 1 ≠ 0 := by
      rw [ne_eq, ← BitVec.toNat_inj, BitVec.toNat_and, BitVec.toNat_ushiftRight]
      rfl
    rw [foldl_cons, ih, map_cons, feed, feed, foldl_cons]
    congr 1
    by_cases h : (high >>> g.2) &&& 1#64 ≠ 0#64
    · rw [if_pos h, if_pos (hbit.mp h), BitVec.toNat_xor]
    · rw [if_neg h, if_neg (mt hbit.mpr h)]

/-- The register never leaves its 40 bits, so the word does not cut it. -/
theorem toNat_polymodStep (c : BitVec 64) (value : UInt8) :
    (polymodStep c value).toNat = checksum.step c.toNat value.toNat := by
  have hlow : c.toNat &&& (2 ^ 35 - 1) < 2 ^ 35 := by
    rw [Nat.and_two_pow_sub_one_eq_mod]
    exact Nat.mod_lt _ (Nat.two_pow_pos 35)
  have hshift : (c.toNat &&& (2 ^ 35 - 1)) <<< 5 < 2 ^ 64 := by
    omega
  have hvalue : value.toNat < 2 ^ 64 := value.toNat_lt.trans (by decide)
  rw [polymodStep, toNat_feed, BitVec.toNat_xor, BitVec.toNat_shiftLeft, BitVec.toNat_and,
    BitVec.toNat_setWidth, BitVec.toNat_ushiftRight, step]
  show feed _ _ (((c.toNat &&& (2 ^ 35 - 1)) <<< 5 % 2 ^ 64) ^^^ (value.toNat % 2 ^ 64)) = _
  rw [Nat.mod_eq_of_lt hshift, Nat.mod_eq_of_lt hvalue]
  rfl

theorem toNat_polymod (values : Bytes) :
    (polymod values).toNat = checksum.run 1 (values.map UInt8.toNat) ^^^ 1 := by
  have hrun : ∀ c : BitVec 64,
      (values.foldl polymodStep c).toNat = checksum.run c.toNat (values.map UInt8.toNat) := by
    induction values with
    | nil => intro c; rfl
    | cons _ _ ih =>
      intro c
      rw [foldl_cons, ih, toNat_polymodStep]
      rfl
  rw [polymod, BitVec.toNat_xor, hrun]
  rfl

theorem polymod_eq_zero_iff (values : Bytes) :
    polymod values = 0#64 ↔ checksum.run 1 (values.map UInt8.toNat) = 1 := by
  rw [← BitVec.toNat_inj, toNat_polymod]
  exact Nat.xor_eq_zero_iff

theorem toNat_lowMask {width : ℕ} (hwidth : width < 32) :
    (lowMask width).toNat = 2 ^ width - 1 := by
  have hpow : 2 ^ width < 2 ^ 32 := Nat.pow_lt_pow_right (by decide) hwidth
  have hpos := Nat.two_pow_pos width
  show (2 ^ 32 - 1 + (1 <<< width) % 2 ^ 32) % 2 ^ 32 = _
  omega

/-- A mask below the word undoes the cut of a shift. -/
theorem or_and_mask {width : ℕ} (hwidth : width < 32) (x v : ℕ) :
    ((x % 2 ^ 32) ||| v) &&& (2 ^ width - 1) = (x ||| v) &&& (2 ^ width - 1) := by
  apply Nat.eq_of_testBit_eq
  intro i
  simp only [Nat.testBit_and, Nat.testBit_or, Nat.testBit_mod_two_pow, Nat.testBit_two_pow_sub_one]
  by_cases hi : i < width
  · have hword : i < 32 := by omega
    simp [hword]
  · simp [hi]

theorem toNat_drainBits {target : ℕ} (htgt : target ≤ 8) (accumulator : BitVec 32)
    (fuel bits : ℕ) (result : Bytes) :
    drain target accumulator.toNat fuel bits (result.map UInt8.toNat)
      = ((drainBits target accumulator fuel bits result).1,
        (drainBits target accumulator fuel bits result).2.map UInt8.toNat) := by
  induction fuel generalizing bits result with
  | zero => rfl
  | succ _ ih =>
    rw [drain, drainBits]
    by_cases hbits : target ≤ bits
    · have hbyte :
          (⟨((accumulator >>> (bits - target)) &&& lowMask target).setWidth 8⟩ : UInt8).toNat
          = (accumulator.toNat >>> (bits - target)) &&& (2 ^ target - 1) := by
        have hlt := low_lt target (accumulator.toNat >>> (bits - target))
        have hpow : 2 ^ target ≤ 2 ^ 8 := Nat.pow_le_pow_right (by decide) htgt
        show (((accumulator >>> (bits - target)) &&& lowMask target).setWidth 8).toNat = _
        rw [BitVec.toNat_setWidth, BitVec.toNat_and, BitVec.toNat_ushiftRight,
          toNat_lowMask (by omega), Nat.mod_eq_of_lt (by omega)]
      rw [if_pos hbits, if_pos hbits, ← hbyte, ← ih, map_append]
      rfl
    · rw [if_neg hbits, if_neg hbits]

/-- The loop variables as numbers. -/
def BitGroups.toRegrouping (s : BitGroups) : Regrouping :=
  ⟨s.accumulator.toNat, s.bits, s.result.map UInt8.toNat⟩

variable {source target : ℕ} {text : List Char} {network : BitcoinCashNetwork} {words : List ℕ}

theorem toOption_pushBits (hsource : source ≤ 8) (htgt : target ≤ 8) (s : BitGroups)
    (value : UInt8) :
    (pushBits source target s value).toOption.map BitGroups.toRegrouping
      = s.toRegrouping.push source target value.toNat := by
  have hvalue : (value.toBitVec.setWidth 32).toNat = value.toNat := by
    rw [BitVec.toNat_setWidth]
    exact Nat.mod_eq_of_lt (value.toNat_lt.trans (by decide))
  have hwide : (value.toBitVec.setWidth 32) >>> source ≠ 0#32 ↔ value.toNat >>> source ≠ 0 := by
    rw [ne_eq, ← BitVec.toNat_inj, BitVec.toNat_ushiftRight, hvalue]
    rfl
  rw [pushBits, push]
  by_cases h : value.toNat >>> source ≠ 0
  · rw [if_pos h, if_pos (hwide.mpr h)]
    rfl
  · have hpend : (((s.accumulator <<< source) ||| value.toBitVec.setWidth 32)
          &&& lowMask (source + target - 1)).toNat
        = ((s.accumulator.toNat <<< source) ||| value.toNat) &&&
          (2 ^ (source + target - 1) - 1) := by
      rw [BitVec.toNat_and, BitVec.toNat_or, BitVec.toNat_shiftLeft, hvalue,
        toNat_lowMask (by omega), or_and_mask (by omega)]
    rw [if_neg h, if_neg (mt hwide.mp h)]
    show some (BitGroups.toRegrouping _) = some _
    rw [BitGroups.toRegrouping, BitGroups.toRegrouping, ← hpend, toNat_drainBits htgt]

theorem toOption_foldlM_pushBits (hsource : source ≤ 8) (htgt : target ≤ 8) (s : BitGroups)
    (data : Bytes) :
    (data.foldlM (pushBits source target) s).toOption.map BitGroups.toRegrouping
      = (data.map UInt8.toNat).foldlM (push source target) s.toRegrouping := by
  induction data generalizing s with
  | nil => rfl
  | cons v _ ih =>
    rw [foldlM_cons, map_cons, foldlM_cons, ← toOption_pushBits hsource htgt]
    cases pushBits source target s v with
    | error => rfl
    | ok s' => exact ih s'

theorem toNat_rest (htgt : target ≤ 8) (s : BitGroups) :
    ((s.accumulator <<< (target - s.bits)) &&& lowMask target).toNat
      = (s.accumulator.toNat <<< (target - s.bits)) &&& (2 ^ target - 1) := by
  have hmask := or_and_mask (show target < 32 by omega)
    (s.accumulator.toNat <<< (target - s.bits)) 0
  rw [Nat.or_zero, Nat.or_zero] at hmask
  rw [BitVec.toNat_and, BitVec.toNat_shiftLeft, toNat_lowMask (by omega), hmask]

theorem toOption_finishBits (htgt : target ≤ 8) (pad : Bool) (s : BitGroups) :
    (finishBits source target pad s).toOption.map (map UInt8.toNat)
      = s.toRegrouping.finish source target pad := by
  have hrest := toNat_rest htgt s
  rw [finishBits, finish, BitGroups.toRegrouping]
  cases pad with
  | true =>
    have hbyte :
        (⟨((s.accumulator <<< (target - s.bits)) &&& lowMask target).setWidth 8⟩ : UInt8).toNat
          = (s.accumulator.toNat <<< (target - s.bits)) &&& (2 ^ target - 1) := by
      have hlt := low_lt target (s.accumulator.toNat <<< (target - s.bits))
      have hpow : 2 ^ target ≤ 2 ^ 8 := Nat.pow_le_pow_right (by decide) htgt
      show (((s.accumulator <<< (target - s.bits)) &&& lowMask target).setWidth 8).toNat = _
      rw [BitVec.toNat_setWidth, hrest, Nat.mod_eq_of_lt (by omega)]
    by_cases hbits : s.bits ≠ 0
    · rw [if_pos rfl, if_pos rfl, if_pos hbits, if_pos hbits, ← hbyte]
      simp [Except.toOption]
    · rw [if_pos rfl, if_pos rfl, if_neg hbits, if_neg hbits]
      rfl
  | false =>
    have hzero : (s.accumulator <<< (target - s.bits)) &&& lowMask target ≠ 0#32
        ↔ (s.accumulator.toNat <<< (target - s.bits)) &&& (2 ^ target - 1) ≠ 0 := by
      rw [ne_eq, ← BitVec.toNat_inj, hrest]
      rfl
    simp only [Bool.false_eq_true, if_false, hzero]
    split <;> rfl

theorem toOption_convertBits (hsource : source ≤ 8) (htgt : target ≤ 8) (pad : Bool)
    (data : Bytes) :
    (convertBits data source target pad).toOption.map (map UInt8.toNat)
      = regroup source target pad (data.map UInt8.toNat) := by
  have hfold := toOption_foldlM_pushBits hsource htgt ⟨0#32, 0, []⟩ data
  have hstart : BitGroups.toRegrouping ⟨0#32, 0, []⟩ = ⟨0, 0, []⟩ := rfl
  rw [hstart] at hfold
  rw [convertBits, regroup, ← hfold]
  cases data.foldlM (pushBits source target) ⟨0#32, 0, []⟩ with
  | error => rfl
  | ok s => exact toOption_finishBits htgt pad s

theorem convertBits_eq_ok (hsource : source ≤ 8) (htgt : target ≤ 8) {data out : Bytes}
    {pad : Bool} :
    convertBits data source target pad = .ok out
      ↔ regroup source target pad (data.map UInt8.toNat) = some (out.map UInt8.toNat) := by
  rw [← toOption_convertBits hsource htgt pad data]
  have hinj : Function.Injective (map UInt8.toNat) :=
    map_injective_iff.mpr fun a b h => UInt8.toNat_inj.mp h
  cases convertBits data source target pad with
  | error => simp [Except.toOption]
  | ok => simp [Except.toOption, hinj.eq_iff]

variable (network)

def networkPrefix : String :=
  (cashaddrPrefix (addressNetwork network)).getD ""

def prefixSymbols (pre : List Char) : List ℕ := pre.map (·.toNat &&& 31)

/-- The payload of a text in lower case, behind its prefix or alone. -/
def HasPayload (text payload : List Char) : Prop :=
  ':' ∉ payload
    ∧ (text = payload ∨ text = (networkPrefix network).toList ++ ':' :: payload)

/-- The bytes that a text in lower case encodes under a valid checksum. -/
def Encodes (text : List Char) (data : List ℕ) : Prop :=
  ∃ payload words, HasPayload network text payload
    ∧ payload.mapM (cashaddrCharset.idxOf? ·) = some words
    ∧ checksum.run 1 (prefixSymbols (networkPrefix network).toList ++ 0 :: words) = 1
    ∧ regroup 5 8 false (words.take (words.length - 8)) = some data

def AddressKind.version : AddressKind → ℕ
  | .p2pkh => 0
  | .p2sh => 8

theorem cashaddrPrefix_eq :
    cashaddrPrefix (addressNetwork network) = some (networkPrefix network) := by
  cases network <;> rfl

theorem networkPrefix_spec :
    (networkPrefix network).toList ≠ [] ∧ ':' ∉ (networkPrefix network).toList := by
  cases network <;> decide

variable {network}

theorem idxOf?_append_cons {a : Char} {pre rest : List Char} (h : a ∉ pre) :
    (pre ++ a :: rest).idxOf? a = some pre.length := by
  induction pre with
  | nil => simp [idxOf?_cons]
  | cons _ _ ih =>
    obtain ⟨hne, hrest⟩ := not_or.mp (mt mem_cons.mpr h)
    rw [cons_append, idxOf?_cons, ih hrest, if_neg (by simpa using Ne.symm hne)]
    rfl

theorem splitOnce_append {pre rest : List Char} (h : ':' ∉ pre) :
    splitOnce (pre ++ ':' :: rest) = some (pre, rest) := by
  rw [splitOnce, idxOf?_append_cons h]
  simp

theorem splitOnce_of_notMem (h : ':' ∉ text) : splitOnce text = none := by
  rw [splitOnce, idxOf?_eq_none_iff.mpr h]

theorem requireCashaddrNetwork_eq_ok {pre : List Char} {actual : AddressNetwork} :
    requireCashaddrNetwork network pre = .ok actual
      ↔ pre = (networkPrefix network).toList ∧ actual = addressNetwork network := by
  simp only [requireCashaddrNetwork, ok_iff]
  constructor
  · rintro ⟨_, hfound, hsame, hactual⟩
    refine ⟨?_, hactual.symm.trans hsame⟩
    rw [networkPrefix, ← hsame]
    rw [networkOfPrefix] at hfound
    split_ifs at hfound with hmain htest hreg
    · rw [hmain, ← Option.some.inj hfound]
      rfl
    · rw [htest, ← Option.some.inj hfound]
      rfl
    · rw [hreg, ← Option.some.inj hfound]
      rfl
  · rintro ⟨hpre, hactual⟩
    subst hpre hactual
    exact ⟨_, by cases network <;> decide, rfl, rfl⟩

theorem splitPrefix_eq_ok {payload : List Char} :
    splitPrefix network text = .ok ((networkPrefix network).toList, payload)
      ↔ HasPayload network text payload := by
  have hpref := (networkPrefix_spec network).2
  by_cases hmem : ':' ∈ text
  · obtain ⟨_, rest, rfl, hpre⟩ := eq_append_cons_of_mem hmem
    rw [splitPrefix, splitOnce_append hpre, HasPayload]
    dsimp only
    constructor
    · intro h
      by_cases hrest : ':' ∉ rest
      · rw [if_pos hrest] at h
        obtain ⟨rfl, rfl⟩ := Prod.mk.inj (Except.ok.inj h)
        exact ⟨hrest, .inr rfl⟩
      · simp [if_neg hrest] at h
    · rintro ⟨hpay, htext⟩
      rcases htext with rfl | htext
      · exact absurd hmem hpay
      · have hsplit := congrArg splitOnce htext
        rw [splitOnce_append hpre, splitOnce_append hpref] at hsplit
        obtain ⟨rfl, rfl⟩ := Prod.mk.inj (Option.some.inj hsplit)
        rw [if_pos hpay]
  · rw [splitPrefix, splitOnce_of_notMem hmem, cashaddrPrefix_eq, HasPayload]
    constructor
    · intro h
      obtain rfl : text = payload := (Prod.mk.inj (Except.ok.inj h)).2
      exact ⟨hmem, .inl rfl⟩
    · rintro ⟨_, htext⟩
      rcases htext with rfl | rfl
      · rfl
      · exact absurd (mem_append_right _ mem_cons_self) hmem

theorem mapM_symbol_eq_ok {payload : Bytes} :
    text.mapM (fun c => orError ((cashaddrCharset.idxOf? c).map UInt8.ofNat)
        Error.invalidAddressEncoding) = .ok payload
      ↔ ∃ words, text.mapM (cashaddrCharset.idxOf? ·) = some words
        ∧ payload = words.map UInt8.ofNat := by
  induction text generalizing payload with
  | nil =>
    rw [mapM_nil, mapM_nil, pure_eq_ok]
    simp [eq_comm]
  | cons _ _ ih =>
    rw [mapM_cons, mapM_cons]
    simp only [ok_iff, ih, Option.map_eq_some_iff, Option.bind_eq_bind, Option.bind_eq_some_iff,
      Option.pure_def, Option.some.injEq]
    constructor
    · rintro ⟨_, ⟨w, hw, rfl⟩, _, ⟨words, hwords, rfl⟩, hpay⟩
      exact ⟨w :: words, ⟨w, hw, words, hwords, rfl⟩, hpay.symm⟩
    · rintro ⟨_, ⟨w, hw, words, hwords, hcons⟩, hpay⟩
      subst hcons
      exact ⟨_, ⟨w, hw, rfl⟩, _, ⟨words, hwords, rfl⟩, hpay.symm⟩

theorem mapM_eq_some :
    text.mapM (cashaddrCharset.idxOf? ·) = some words
      ↔ List.Forall₂ (fun c w => cashaddrCharset.idxOf? c = some w) text words := by
  induction text generalizing words with
  | nil => simp [eq_comm]
  | cons _ _ ih =>
    rw [mapM_cons, forall₂_cons_left_iff]
    simp only [Option.bind_eq_bind, Option.bind_eq_some_iff, Option.pure_def, Option.some.injEq, ih]
    constructor
    · rintro ⟨w, hw, rest, hrest, rfl⟩
      exact ⟨w, rest, hw, hrest, rfl⟩
    · rintro ⟨w, rest, hw, hrest, rfl⟩
      exact ⟨w, hw, rest, hrest, rfl⟩

section

variable (h : text.mapM (cashaddrCharset.idxOf? ·) = some words)
include h

theorem words_lt : ∀ w ∈ words, w < 32 := by
  have hall := (mapM_eq_some.mp h).flip.imp fun w c hw =>
    And.intro (idxOf?_eq_some_iff.mp hw).1 hw
  exact ((forall₂_and_left _ _).mp hall).1

theorem mem_charset : ∀ c ∈ text, c ∈ cashaddrCharset := by
  have hall := (mapM_eq_some.mp h).imp fun c w hw =>
    And.intro (isSome_idxOf?.mp (Option.isSome_of_eq_some hw)) hw
  exact ((forall₂_and_left _ _).mp hall).1

end

theorem toNat_ofNat_words (h : ∀ w ∈ words, w < 32) :
    (words.map UInt8.ofNat).map UInt8.toNat = words := by
  rw [map_map]
  refine (map_congr_left fun w hw => ?_).trans (map_id _)
  have := h w hw
  show (UInt8.ofNat w).toNat = w
  rw [UInt8.toNat_ofNat']
  omega

theorem toNat_prefixExpand (pre : List Char) :
    (prefixExpand pre).map UInt8.toNat = prefixSymbols pre ++ [0] := by
  rw [prefixExpand, asciiBytes, prefixSymbols, map_append, map_map, map_map]
  congr 1
  apply map_congr_left
  intro c _
  show ((UInt8.ofNat c.toNat) &&& 31).toNat = c.toNat &&& 31
  show (c.toNat % 2 ^ 8) &&& (2 ^ 5 - 1) = c.toNat &&& (2 ^ 5 - 1)
  rw [Nat.and_two_pow_sub_one_eq_mod, Nat.and_two_pow_sub_one_eq_mod, Nat.mod_mod_of_dvd]
  decide

theorem kindOfVersion_eq_ok {version : UInt8} {kind : AddressKind} :
    kindOfVersion version = .ok kind ↔ version.toNat = kind.version := by
  have hzero : version = 0 ↔ version.toNat = 0 := UInt8.toNat_inj.symm
  have height : version = 8 ↔ version.toNat = 8 := UInt8.toNat_inj.symm
  rw [kindOfVersion]
  split_ifs with h₁ h₂
  · rw [hzero.mp h₁]
    cases kind <;> simp [AddressKind.version]
  · rw [height.mp h₂]
    cases kind <;> simp [AddressKind.version]
  · cases kind with
    | p2pkh => simpa [AddressKind.version] using mt hzero.mpr h₁
    | p2sh => simpa [AddressKind.version] using mt height.mpr h₂

theorem ofBytes_eq_some {b : Bytes} {hash : Bytes20} :
    Bytes20.ofBytes b = some hash ↔ b = hash.bytes := by
  rw [Bytes20.ofBytes]
  constructor
  · intro h
    split_ifs at h
    rw [← Option.some.inj h]
  · intro h
    subst h
    rw [dif_pos hash.length_eq]

theorem toNat_summed (pre : List Char) (h : ∀ w ∈ words, w < 32) :
    (prefixExpand pre ++ words.map UInt8.ofNat).map UInt8.toNat =
      prefixSymbols pre ++ 0 :: words := by
  rw [map_append, toNat_prefixExpand, toNat_ofNat_words h, append_assoc]
  rfl

theorem toNat_body (h : ∀ w ∈ words, w < 32) :
    ((words.map UInt8.ofNat).take ((words.map UInt8.ofNat).length - 8)).map UInt8.toNat
      = words.take (words.length - 8) := by
  rw [map_take, toNat_ofNat_words h, length_map]

/-- A text that says something has symbols in front of its checksum. -/
theorem length_of_regroup {v : ℕ} {data : List ℕ}
    (h : regroup 5 8 false (words.take (words.length - 8)) = some (v :: data)) :
    8 ≤ words.length := by
  by_contra hlt
  rw [Nat.sub_eq_zero_of_le (by omega), take_zero] at h
  cases h

/-- An accepted text is ASCII in one case: the version of the kind and the hash. -/
theorem parseCashaddr_eq_ok {encoded : String} {address : Address} :
    parseCashaddr network encoded = .ok address
      ↔ ¬(encoded.toList.any Char.isLower ∧ encoded.toList.any Char.isUpper)
        ∧ (∀ c ∈ encoded.toList, c.toNat < 128) ∧ address.network = addressNetwork network
        ∧ Encodes network (encoded.toList.map Char.toLower)
          (address.kind.version :: address.hash.bytes.map UInt8.toNat) := by
  simp only [parseCashaddr, ok_iff, requireCashaddrNetwork_eq_ok, mapM_symbol_eq_ok,
    polymod_eq_zero_iff, convertBits_eq_ok (by decide : 5 ≤ 8) (by decide : 8 ≤ 8),
    kindOfVersion_eq_ok, ofBytes_eq_some]
  constructor
  · intro h
    obtain ⟨hcase, hascii, ⟨_, text⟩, hsplit, h⟩ := h
    obtain ⟨-, _, ⟨rfl, rfl⟩, _, ⟨words, hwords, rfl⟩, hsum, data, hdata, hlen, h⟩ := h
    obtain ⟨kind, hkind, hash, hhash, rfl⟩ := h
    have hlt := words_lt hwords
    rw [toNat_summed _ hlt] at hsum
    obtain ⟨v, rest, rfl⟩ : ∃ v rest, data = v :: rest := exists_cons_of_length_pos (by omega)
    have hrest : rest = hash.bytes := hhash
    have hvers : v.toNat = kind.version := hkind
    rw [toNat_body hlt, map_cons, hvers, hrest] at hdata
    exact ⟨hcase, hascii, rfl, text, words, splitPrefix_eq_ok.mp hsplit, hwords, hsum, hdata⟩
  · rintro ⟨hcase, hascii, hnet, text, words, hpay, hwords, hsum, hdata⟩
    obtain ⟨network', kind, hash⟩ := address
    have hlt := words_lt hwords
    have hlen := (mapM_eq_some.mp hwords).length_eq
    have hvers : (UInt8.ofNat kind.version).toNat = kind.version := by
      cases kind <;> rfl
    refine ⟨hcase, hascii, (_, text), splitPrefix_eq_ok.mpr hpay,
      ⟨(networkPrefix_spec network).1, hlen ▸ length_of_regroup hdata⟩, network',
      ⟨rfl, hnet⟩, _, ⟨words, hwords, rfl⟩, ?_, UInt8.ofNat kind.version :: hash.bytes, ?_, ?_,
      kind, hvers, hash, rfl, rfl⟩
    · rw [toNat_summed _ hlt]
      exact hsum
    · rw [toNat_body hlt, map_cons, hvers]
      exact hdata
    · rw [length_cons, hash.length_eq]

/-- A text without its prefix. -/
def payloadText (text : List Char) : List Char := ((splitOnce text).map Prod.snd).getD text

/-- The payload, in lower case, of a text that is accepted. -/
def AcceptsPayload (network : BitcoinCashNetwork) (payload : List Char) : Prop :=
  ∃ encoded address, parseCashaddr network encoded = .ok address ∧
    payloadText (encoded.toList.map Char.toLower) = payload

lemma payloadText_eq {payload : List Char} (h : HasPayload network text payload) :
    payloadText text = payload := by
  obtain ⟨hcolon, rfl | rfl⟩ := h
  · rw [payloadText, splitOnce_of_notMem hcolon]
    rfl
  · rw [payloadText, splitOnce_append (networkPrefix_spec network).2]
    rfl

lemma symbols_of_acceptsPayload {payload : List Char} (h : AcceptsPayload network payload) :
    ∃ words, payload.mapM (cashaddrCharset.idxOf? ·) = some words ∧
      checksum.run 1 (prefixSymbols (networkPrefix network).toList ++ 0 :: words) = 1 := by
  obtain ⟨_, _, hparse, rfl⟩ := h
  obtain ⟨-, -, -, _, words, hpay, hwords, hrun, -⟩ := parseCashaddr_eq_ok.mp hparse
  exact ⟨words, by rw [payloadText_eq hpay, hwords], hrun⟩

variable (network)

/-- No two payloads accepted for a network differ in one character alone. -/
theorem not_acceptsPayload_single_error (network : BitcoinCashNetwork) (pre post : List Char)
    (c c' : Char) : ¬(c ≠ c' ∧ AcceptsPayload network (pre ++ c :: post) ∧
      AcceptsPayload network (pre ++ c' :: post)) := by
  rintro ⟨hne, h, h'⟩
  obtain ⟨_, hwords, hrun⟩ := symbols_of_acceptsPayload h
  obtain ⟨_, hwords', hrun'⟩ := symbols_of_acceptsPayload h'
  have hlt := words_lt hwords
  have hlt' := words_lt hwords'
  simp only [mapM_append, mapM_cons, Option.bind_eq_bind, Option.bind_eq_some_iff,
    Option.pure_def, Option.some.injEq] at hwords hwords'
  obtain ⟨_, hfront, _, ⟨w, hw, _, hback, rfl⟩, rfl⟩ := hwords
  obtain ⟨_, hfront', _, ⟨w', hw', _, hback', rfl⟩, rfl⟩ := hwords'
  cases hfront.symm.trans hfront'
  cases hback.symm.trans hback'
  simp only [Checksum.run, foldl_append, foldl_cons] at hrun hrun'
  have hsame : w = w' := by
    refine eq_of_run_eq (C := checksum) (by decide +kernel) (hlt w (by simp))
      (hlt' w' (by simp)) (hrun.trans hrun'.symm)
  obtain ⟨_, hget, -⟩ := idxOf?_eq_some_iff.mp hw
  obtain ⟨_, hget', -⟩ := idxOf?_eq_some_iff.mp hw'
  subst hsame
  exact hne (hget.symm.trans hget')

/-- One symbol of the checksum, `((checksum >> (5 * (7 - shift))) & 31) as u8`. -/
def checkSymbol (sum : BitVec 64) (shift : ℕ) : UInt8 :=
  ⟨((sum >>> (5 * (7 - shift))) &&& 31#64).setWidth 8⟩

def toCashaddr (address : Address) : Outcome Error String := do
  let pre ← Outcome.okOr (cashaddrPrefix address.network) .ambiguousAddressNetwork
  let bytes := UInt8.ofNat address.kind.version :: address.hash.bytes
  let payload ← Outcome.ofPanic (expect (convertBits bytes 8 5 true))
  let sum := polymod (prefixExpand pre.toList ++ payload ++ replicate 8 0)
  let symbols := payload ++ (range 8).map (checkSymbol sum)
  let encoded ← Outcome.ofPanic (symbols.mapM fun value => index cashaddrCharset value.toNat)
  pure (String.ofList (pre.toList ++ ':' :: encoded))

/-- A text in lower case with the prefix of its network written out. -/
def canonicalText (encoded : String) : String :=
  String.ofList ((networkPrefix network).toList
    ++ ':' :: payloadText (encoded.toList.map Char.toLower))

/-- The checksum of a network's prefix and the symbols behind it. -/
def register (words : List ℕ) : ℕ :=
  checksum.run 1 (prefixSymbols (networkPrefix network).toList ++ 0 :: words)

variable {network}

lemma register_append (front back : List ℕ) :
    register network (front ++ back) = checksum.run (register network front) back := by
  simp [register, Checksum.run]

lemma toNat_checkSymbols (sum : BitVec 64) :
    ((range 8).map (checkSymbol sum)).map UInt8.toNat = symbolsOf 8 sum.toNat := by
  have hsymbol : ∀ shift,
      (checkSymbol sum shift).toNat = (sum.toNat >>> (5 * (7 - shift))) &&& 31 := by
    intro shift
    show (((sum >>> (5 * (7 - shift))) &&& 31#64).setWidth 8).toNat = _
    rw [BitVec.toNat_setWidth, BitVec.toNat_and, BitVec.toNat_ushiftRight]
    exact Nat.mod_eq_of_lt ((and_thirtyOne_lt _).trans (by decide))
  rw [map_map, Function.comp_def]
  simp only [hsymbol]
  rfl

lemma mapM_index_eq_ok {symbols : Bytes} :
    symbols.mapM (fun value => index cashaddrCharset value.toNat) = .ok text
      ↔ text.mapM (cashaddrCharset.idxOf? ·) = some (symbols.map UInt8.toNat) := by
  have hindex : ∀ (c : Char) (w : ℕ),
      index cashaddrCharset w = .ok c ↔ cashaddrCharset.idxOf? c = some w := by
    intro c w
    rw [index_eq_ok]
    constructor
    · intro h
      obtain ⟨hw, rfl⟩ := List.getElem?_eq_some_iff.mp h
      revert hw w
      decide
    · intro h
      obtain ⟨hw, hget, -⟩ := idxOf?_eq_some_iff.mp h
      exact List.getElem?_eq_some_iff.mpr ⟨hw, hget⟩
  rw [mapM_eq_ok, mapM_eq_some, forall₂_map_right_iff]
  simp only [hindex]
  exact ⟨.flip, .flip⟩

/-- The encoder writes symbols that say the content, with their check symbols. -/
lemma toCashaddr_eq {address : Address} (hnet : address.network = addressNetwork network) :
    ∃ payload words, payload.mapM (cashaddrCharset.idxOf? ·)
        = some (words ++ checksum.check (register network words) 1)
      ∧ regroup 5 8 false words = some (address.kind.version :: address.hash.bytes.map UInt8.toNat)
      ∧ toCashaddr address
        = .ok (String.ofList ((networkPrefix network).toList ++ ':' :: payload)) := by
  set bytes := UInt8.ofNat address.kind.version :: address.hash.bytes with hbytes
  have hvers : (UInt8.ofNat address.kind.version).toNat = address.kind.version := by
    cases address.kind <;> rfl
  obtain ⟨_, hwords, hlt, hback⟩ := regroup_regroup 8 5 (by decide) (by decide)
    (forall_mem_map.mpr fun b (_ : b ∈ bytes) => b.toNat_lt)
  obtain ⟨payload, hpay, rfl⟩ :=
    exists_ok_of_toOption ((toOption_convertBits (by decide) (by decide) true bytes).trans hwords)
  set input := prefixExpand (networkPrefix network).toList ++ payload ++ replicate 8 0 with hinput
  have hsum : (polymod input).toNat
      = checksum.run (register network (payload.map UInt8.toNat)) (replicate 8 0) ^^^ 1 := by
    rw [toNat_polymod, ← register_append, hinput, map_append, map_append, toNat_prefixExpand]
    simp [register]
  set symbols := payload ++ (range 8).map (checkSymbol (polymod input)) with hdef
  have hsyms : symbols.map UInt8.toNat = payload.map UInt8.toNat
      ++ checksum.check (register network (payload.map UInt8.toNat)) 1 := by
    rw [hdef, map_append, toNat_checkSymbols, hsum]
    rfl
  have hsmall : ∀ w ∈ symbols.map UInt8.toNat, w < 32 := by
    rw [hsyms]
    exact forall_mem_append.mpr ⟨hlt, check_lt _ _⟩
  obtain ⟨text, htext⟩ := exists_mapM_iff.mpr fun value (hvalue : value ∈ symbols) =>
    ⟨_, index_of_lt (show _ < cashaddrCharset.length from hsmall _ (mem_map_of_mem hvalue))⟩
  rw [hbytes, map_cons, hvers] at hback
  refine ⟨text, _, hsyms ▸ mapM_index_eq_ok.mp htext, hback, ?_⟩
  simp only [toCashaddr, ok_iff, hnet, cashaddrPrefix_eq, expect]
  exact ⟨_, rfl, payload, by rw [hpay], text, htext, rfl⟩

/-- No other text says the same under a valid checksum. -/
lemma text_eq_of_register {text' : List Char} {words' content : List ℕ} {v : ℕ}
    (htext : text.mapM (cashaddrCharset.idxOf? ·)
      = some (words ++ checksum.check (register network words) 1))
    (hwords : regroup 5 8 false words = some (v :: content))
    (htext' : text'.mapM (cashaddrCharset.idxOf? ·) = some words')
    (hwords' : regroup 5 8 false (words'.take (words'.length - 8)) = some (v :: content))
    (hrun : register network words' = 1) : text = text' := by
  have hlen := length_of_regroup hwords'
  have hsplit := take_append_drop (words'.length - 8) words'
  rw [regroup_inj (by decide) hwords' hwords] at hsplit
  rw [← hsplit, register_append] at hrun
  have hcheck : words'.drop (words'.length - 8) = checksum.check (register network words) 1 := by
    refine run_inj (by rw [length_drop]; exact Nat.sub_sub_self hlen) (length_check _ _)
      (fun w hw => words_lt htext' w (mem_of_mem_drop hw)) (check_lt _ _) (hrun.trans ?_)
    exact (run_check _ (by decide)).symm
  rw [← hcheck, hsplit] at htext
  have hlt := toNat_ofNat_words (words_lt htext')
  rw [← hlt] at htext htext'
  exact Except.ok.inj ((mapM_index_eq_ok.mpr htext).symm.trans (mapM_index_eq_ok.mpr htext'))

/-- Every address of a network with a prefix is read back, and every text that is read is written
for its address, but for its case and a missing prefix. -/
theorem cashaddr_round_trip (network : BitcoinCashNetwork) (address : Address) (encoded : String) :
    (address.network = addressNetwork network →
      ∃ text, toCashaddr address = .ok text ∧ parseCashaddr network text = .ok address) ∧
    (parseCashaddr network encoded = .ok address →
      toCashaddr address = .ok (canonicalText network encoded)) := by
  constructor
  · intro hnet
    obtain ⟨payload, words, hpay, hwords, htext⟩ := toCashaddr_eq hnet
    have hcolon : ':' ∉ payload := fun hc => absurd (mem_charset hpay _ hc) (by decide)
    have hplain : ∀ c ∈ (networkPrefix network).toList ++ ':' :: payload,
        c.toNat < 128 ∧ c.isUpper = false ∧ c.toLower = c := by
      have hcset : ∀ c ∈ cashaddrCharset, c.toNat < 128 ∧ c.isUpper = false ∧ c.toLower = c := by
        decide
      exact forall_mem_append.mpr ⟨by cases network <;> decide, forall_mem_cons.mpr
        ⟨by decide, fun c hc => hcset c (mem_charset hpay c hc)⟩⟩
    refine ⟨_, htext, parseCashaddr_eq_ok.mpr ?_⟩
    rw [String.toList_ofList, (map_congr_left fun c hc => (hplain c hc).2.2).trans (map_id _)]
    refine ⟨fun hcase => ?_, fun c hc => (hplain c hc).1, hnet, payload, _,
      ⟨hcolon, .inr rfl⟩, hpay, (register_append _ _).trans (run_check _ (by decide)), ?_⟩
    · obtain ⟨c, hc, hupper⟩ := any_eq_true.mp hcase.2
      simp [(hplain c hc).2.1] at hupper
    · rw [length_append, length_check]
      exact (congrArg _ (take_left ..)).trans hwords
  · intro hparse
    obtain ⟨-, -, hnet, _, _, hpay', hwords', hrun, hdata⟩ := parseCashaddr_eq_ok.mp hparse
    obtain ⟨_, _, hpay, hwords, htext⟩ := toCashaddr_eq hnet
    rw [htext, canonicalText, payloadText_eq hpay',
      text_eq_of_register hpay hwords hwords' hdata hrun]

/-- No address read from the legacy format of a test network has a text. -/
lemma toCashaddr_legacy {address : Address} (h : address.network = .legacyNonMainnet) :
    toCashaddr address = .error (.error .ambiguousAddressNetwork) := by
  rw [toCashaddr, h]
  rfl

theorem toCashaddr_legacyNonMainnet :
    toCashaddr ⟨.legacyNonMainnet, .p2pkh, ⟨replicate 20 0, rfl⟩⟩
      = .error (.error .ambiguousAddressNetwork) :=
  toCashaddr_legacy rfl

end Catomicals.ChainBitcoinCash
