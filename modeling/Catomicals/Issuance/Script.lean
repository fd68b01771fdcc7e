import Catomicals.Issuance.State

/-!
# The issuer tapscript and its parser

The parser reads five length-prefixed constants after a single length test. The test does not cover
the length byte of the next constant, so a script that ends right after a constant makes it panic.
-/
namespace Catomicals.Issuance

open Base List

namespace Op

def cat : UInt8 := 0x7e
def equal : UInt8 := 0x87
def sha256 : UInt8 := 0xa8
def pick : UInt8 := 0x79
def drop : UInt8 := 0x75
def not : UInt8 := 0x91
def verify : UInt8 := 0x69
def zero : UInt8 := 0x00
def oneNegate : UInt8 := 0x4f
def one : UInt8 := 0x51

end Op

def pushPick (n : UInt8) : Bytes := [0x50 + n, Op.pick]

/-- A byte string in Bitcoin's minimal push encoding. -/
def pushData (data : Bytes) : Bytes :=
  match data with
  | [] => [Op.zero]
  | [b] =>
    if 1 ≤ b ∧ b ≤ 16 then [0x50 + b] else if b = 0x81 then [Op.oneNegate] else [1, b]
  | _ =>
    if data.length ≤ 75 then UInt8.ofNat data.length :: data
    else if data.length ≤ 255 then 0x4c :: UInt8.ofNat data.length :: data
    else if data.length ≤ 65535 then 0x4d :: leBytes 2 data.length ++ data
    else 0x4e :: leBytes 4 data.length ++ data

/-- The canonical gate of a state: its constants, the proof-of-work and supply checks, and true. -/
def issuerScript (s : IssuerState) : Bytes :=
  s.toScriptConstants.flatMap pushData ++
    pushPick 4 ++ pushPick 1 ++ pushPick 5 ++ pushPick 11 ++ pushPick 13 ++
    [Op.cat, Op.cat, Op.cat, Op.cat] ++ [Op.sha256] ++
    pushData (replicate s.targetPrefix.toNat powPrefixByte) ++ pushPick 9 ++
    [Op.cat, Op.equal, Op.verify] ++ pushPick 2 ++ pushData [stateFieldTag, 0, 0, 0, 0] ++
    [Op.equal, Op.not, Op.verify] ++ replicate 10 Op.drop ++ [Op.one]

def expectedConstLen : ℕ := (1 + 32) + (1 + 5) + (1 + 5) + (1 + 2) + (1 + 2)

/-- The loop of the parser: read `n` more pushes from position `pos`. -/
def readPushes (script : Bytes) : ℕ → ℕ → List Bytes → Except Panic (Option (List Bytes))
  | 0, _, consts => .ok (some consts)
  | n + 1, pos, consts => do
    let plen ← index script pos
    if plen.toNat = 0 ∨ 75 < plen.toNat ∨ script.length < pos + 1 + plen.toNat then .ok none
    else
      let chunk ← slice script (pos + 1) (pos + 1 + plen.toNat)
      readPushes script n (pos + 1 + plen.toNat) (consts ++ [chunk])

variable (script : Bytes)

def parseIssuerScript : Except Panic (Option IssuerState) :=
  if script.length < expectedConstLen then .ok none
  else do
    match ← readPushes script 5 0 [] with
    | none => .ok none
    | some consts =>
      let termsHash ← index consts 0
      let seq ← index consts 1
      let remaining ← index consts 2
      let targetPrefix ← index consts 3
      let lane ← index consts 4
      match IssuerState.fromScriptConstants termsHash seq remaining targetPrefix lane with
      | none => .ok none
      | some state => .ok (if script = issuerScript state then some state else none)

/-- A direct push: one length byte between 1 and 75, then that many bytes. -/
def directPush (chunk : Bytes) : Bytes := UInt8.ofNat chunk.length :: chunk

/-- The bytes are exactly `n` direct pushes. -/
def IsPushes (bytes : Bytes) (n : ℕ) : Prop :=
  ∃ chunks : List Bytes, chunks.length = n ∧ (∀ c ∈ chunks, 1 ≤ c.length ∧ c.length ≤ 75) ∧
    bytes = chunks.flatMap directPush

lemma isPushes_zero {bytes : Bytes} : IsPushes bytes 0 ↔ bytes = [] := by
  constructor
  · rintro ⟨_, hlen, -, rfl⟩
    rw [length_eq_zero_iff.mp hlen]
    rfl
  · rintro rfl
    exact ⟨[], rfl, by simp, rfl⟩

lemma isPushes_succ_cons {b : UInt8} {rest : Bytes} {n : ℕ} :
    IsPushes (b :: rest) (n + 1) ↔
      (b.toNat ≠ 0 ∧ b.toNat ≤ 75 ∧ b.toNat ≤ rest.length) ∧ IsPushes (rest.drop b.toNat) n := by
  constructor
  · rintro ⟨chunks, hlen, hchunks, hbytes⟩
    cases chunks with
    | nil => simp at hlen
    | cons c cs =>
      have hc := hchunks c mem_cons_self
      rw [flatMap_cons, directPush, cons_append, cons.injEq] at hbytes
      obtain ⟨rfl, rfl⟩ := hbytes
      have hnat : (UInt8.ofNat c.length).toNat = c.length :=
        UInt8.toNat_ofNat_of_lt (by simp only [UInt8.size]; omega)
      rw [hnat, drop_left, length_append]
      refine ⟨by omega, cs, by simpa using hlen, fun x hx => hchunks x ?_, rfl⟩
      exact mem_cons_of_mem _ hx
  · rintro ⟨⟨_, _, _⟩, cs, hlen, hcs, hdrop⟩
    have htake : (rest.take b.toNat).length = b.toNat := by rw [length_take]; omega
    refine ⟨rest.take b.toNat :: cs, by simp [hlen], fun c hc => ?_, ?_⟩
    · rcases mem_cons.mp hc with rfl | hmem
      · omega
      · exact hcs c hmem
    · rw [flatMap_cons, directPush, htake, UInt8.ofNat_toNat, ← hdrop, cons_append,
        take_append_drop]

lemma readPushes_panics_iff (n pos : ℕ) (consts : List Bytes) (hpos : pos ≤ script.length) :
    (∃ p, readPushes script n pos consts = .error p) ↔ ∃ k < n, IsPushes (script.drop pos) k := by
  induction n generalizing pos consts with
  | zero => simp [readPushes]
  | succ n ih =>
    rcases Nat.eq_or_lt_of_le hpos with hend | hlt
    · -- The length byte is read behind the last byte of the script.
      have hdrop : script.drop pos = [] := by simp [hend]
      have hidx : index script pos = .error .indexOutOfBounds := by simp [hend]
      rw [readPushes, hidx, hdrop]
      exact iff_of_true ⟨_, rfl⟩ ⟨0, by omega, isPushes_zero.mpr rfl⟩
    · obtain ⟨b, hb⟩ : ∃ b, script[pos]? = some b := ⟨script[pos], by simp [hlt]⟩
      have hdrop : script.drop pos = b :: script.drop (pos + 1) := by
        rw [drop_eq_getElem_cons hlt]
        congr 1
        simpa [hlt] using hb
      have hidx : index script pos = .ok b := by simpa using hb
      have hsplit : (∃ k < n + 1, IsPushes (script.drop pos) k) ↔
          (b.toNat ≠ 0 ∧ b.toNat ≤ 75 ∧ b.toNat ≤ (script.drop (pos + 1)).length) ∧
            ∃ k < n, IsPushes ((script.drop (pos + 1)).drop b.toNat) k := by
        rw [hdrop]
        constructor
        · rintro ⟨k, hk, hpush⟩
          cases k with
          | zero => simp [isPushes_zero] at hpush
          | succ k =>
            obtain ⟨hbyte, hrest⟩ := isPushes_succ_cons.mp hpush
            exact ⟨hbyte, k, by omega, hrest⟩
        · rintro ⟨hbyte, k, _, hrest⟩
          exact ⟨k + 1, by omega, isPushes_succ_cons.mpr ⟨hbyte, hrest⟩⟩
      rw [hsplit, readPushes, hidx]
      simp only [bind, Except.bind]
      rw [length_drop, drop_drop]
      split_ifs
      · simp only [exists_false, false_iff, not_and]
        intro hgood
        omega
      · rw [slice_of_le (by omega) (by omega)]
        rw [ih _ _ (by omega)]
        have hgood : b.toNat ≠ 0 ∧ b.toNat ≤ 75 ∧ b.toNat ≤ script.length - (pos + 1) := by omega
        simp only [hgood, ne_eq, not_false_eq_true, true_and]

lemma readPushes_length {script : Bytes} {n pos : ℕ} {consts out : List Bytes}
    (h : readPushes script n pos consts = .ok (some out)) : out.length = consts.length + n := by
  induction n generalizing pos consts with
  | zero =>
    simp only [readPushes, Except.ok.injEq, Option.some.injEq] at h
    simp [h]
  | succ n ih =>
    simp only [readPushes, bind_eq_ok] at h
    obtain ⟨_, -, h⟩ := h
    split_ifs at h
    · simp at h
    · obtain ⟨_, -, h⟩ := bind_eq_ok.mp h
      rw [ih h, length_append]
      simp only [length_singleton]
      omega

/-- Scripts long enough for the test that are one to four direct pushes and nothing else. -/
def TruncatedConstants : Prop :=
  expectedConstLen ≤ script.length ∧ ∃ k < 5, IsPushes script k

theorem parseIssuerScript_panics_iff :
    (∃ p, parseIssuerScript script = .error p) ↔ TruncatedConstants script := by
  unfold parseIssuerScript TruncatedConstants
  by_cases hlen : script.length < expectedConstLen
  · rw [if_pos hlen]
    simp only [reduceCtorEq, exists_false, false_iff, not_and]
    omega
  · rw [if_neg hlen]
    have hloop := readPushes_panics_iff script 5 0 [] (Nat.zero_le _)
    rw [drop_zero] at hloop
    rw [← hloop]
    have hge : expectedConstLen ≤ script.length := by omega
    simp only [hge, true_and]
    cases hr : readPushes script 5 0 [] with
    | error => simp [bind, Except.bind]
    | ok out =>
      cases out with
      | none => simp [bind, Except.bind]
      | some consts =>
        have hcount : consts.length = 5 := by simpa using readPushes_length hr
        have hok : ∀ i < 5, ∃ c, index consts i = .ok c := fun i hi =>
          ⟨consts[i], index_of_lt (by omega)⟩
        obtain ⟨_, h0⟩ := hok 0 (by omega)
        obtain ⟨_, h1⟩ := hok 1 (by omega)
        obtain ⟨_, h2⟩ := hok 2 (by omega)
        obtain ⟨_, h3⟩ := hok 3 (by omega)
        obtain ⟨_, h4⟩ := hok 4 (by omega)
        simp only [bind, Except.bind, h0, h1, h2, h3, h4]
        split <;> simp

end Catomicals.Issuance
