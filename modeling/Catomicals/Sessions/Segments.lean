import Catomicals.Base.Bytes

/-!
# Path segments

A session id becomes one segment of a path, from which its code units are read back.
-/
namespace Catomicals.Sessions

open Base List

inductive SegmentError where
  | emptySegment

/-- Letters, digits, dot, underscore and hyphen. -/
def isSafeUnit (c : UInt16) : Bool :=
  let n := c.toNat
  0x41 ≤ n ∧ n ≤ 0x5a ∨ 0x61 ≤ n ∧ n ≤ 0x7a ∨ 0x30 ≤ n ∧ n ≤ 0x39 ∨ n = 0x2e ∨ n = 0x5f ∨ n = 0x2d

def hexDigit (n : ℕ) : UInt8 := UInt8.ofNat (if n < 10 then 0x30 + n else 0x37 + n)

/-- A tilde and the number of the code unit in four digits. -/
def escapeUnit (c : UInt16) : Bytes :=
  let n := c.toNat
  [0x7e, hexDigit (n / 4096), hexDigit (n / 256 % 16), hexDigit (n / 16 % 16), hexDigit (n % 16)]

def encodeUnit (c : UInt16) : Bytes := if isSafeUnit c then [c.toUInt8] else escapeUnit c

/-- The segment of a JavaScript string, given by its code units, in ASCII. -/
def encodeSegment (raw : List UInt16) : Except SegmentError Bytes :=
  if raw = [] then .error .emptySegment
  else if raw = [0x2e] then .ok (escapeUnit 0x2e)
  else if raw = [0x2e, 0x2e] then .ok (escapeUnit 0x2e ++ escapeUnit 0x2e)
  else .ok (raw.flatMap encodeUnit)

def hexValue (b : UInt8) : ℕ := if b < 0x41 then b.toNat - 0x30 else b.toNat - 0x37

def decodeSegment : Bytes → List UInt16
  | 0x7e :: h₁ :: h₂ :: h₃ :: h₄ :: text =>
    UInt16.ofNat (hexValue h₁ * 4096 + hexValue h₂ * 256 + hexValue h₃ * 16 + hexValue h₄) ::
      decodeSegment text
  | b :: text => b.toUInt16 :: decodeSegment text
  | [] => []

variable {c : UInt16} {raw : List UInt16} {text : Bytes}

lemma decodeSegment_escapeUnit :
    decodeSegment (escapeUnit c ++ text) = c :: decodeSegment text := by
  have hdigit : ∀ n < 16, hexValue (hexDigit n) = n := by decide
  have hc := c.toNat_lt
  simp only [escapeUnit, cons_append, nil_append, decodeSegment]
  rw [hdigit _ (by omega), hdigit _ (by omega), hdigit _ (by omega), hdigit _ (by omega)]
  congr 1
  apply UInt16.toNat_inj.mp
  rw [UInt16.toNat_ofNat']
  omega

lemma toNat_of_isSafeUnit (h : isSafeUnit c = true) : c.toUInt8.toNat = c.toNat ∧
    c.toNat ≠ 0x7e ∧ c.toNat ≠ 0x2f ∧ c.toNat ≠ 0x5c ∧ c.toNat ≠ 0 := by
  simp only [isSafeUnit, decide_eq_true_eq] at h
  rw [UInt16.toNat_toUInt8]
  omega

lemma decodeSegment_encodeUnit :
    decodeSegment (encodeUnit c ++ text) = c :: decodeSegment text := by
  unfold encodeUnit
  split_ifs with hc
  · obtain ⟨hc8, htilde, -⟩ := toNat_of_isSafeUnit hc
    have hne : c.toUInt8 ≠ 0x7e := by rwa [ne_eq, ← UInt8.toNat_inj, hc8]
    have hback : c.toUInt8.toUInt16 = c := by rw [← UInt16.toNat_inj, UInt8.toNat_toUInt16, hc8]
    rw [singleton_append, decodeSegment, hback]
    intro _ _ _ _ _ heq
    exact absurd heq hne
  · exact decodeSegment_escapeUnit

lemma decodeSegment_encodeSegment (h : encodeSegment raw = .ok text) :
    decodeSegment text = raw := by
  have hall : ∀ raw : List UInt16, decodeSegment (raw.flatMap encodeUnit) = raw := by
    intro raw
    induction raw with
    | nil => rfl
    | cons _ _ ih => rw [flatMap_cons, decodeSegment_encodeUnit, ih]
  unfold encodeSegment at h
  split_ifs at h with _ hdot hdots <;> cases h
  · rw [hdot]
    rfl
  · rw [hdots]
    rfl
  · exact hall raw

lemma mem_encodeUnit {b : UInt8} (hb : b ∈ encodeUnit c) : b ≠ 0x2f ∧ b ≠ 0x5c ∧ b ≠ 0 := by
  have hdigit : ∀ n < 16, hexDigit n ≠ 0x2f ∧ hexDigit n ≠ 0x5c ∧ hexDigit n ≠ 0 := by decide
  have hc := c.toNat_lt
  unfold encodeUnit at hb
  split_ifs at hb with hsafe
  · obtain ⟨hc8, -, hne⟩ := toNat_of_isSafeUnit hsafe
    obtain rfl := mem_singleton.mp hb
    simpa [← UInt8.toNat_inj, hc8] using hne
  · simp only [escapeUnit, mem_cons, not_mem_nil, or_false] at hb
    rcases hb with rfl | rfl | rfl | rfl | rfl
    · decide
    all_goals exact hdigit _ (by omega)

/-- Different strings have different segments, and those of nonempty strings stay in their
directory. -/
theorem encodeSegment_safe : Function.Injective encodeSegment ∧
    ∀ c cs, ∃ text, encodeSegment (c :: cs) = .ok text ∧ text ≠ [] ∧
      (∀ b ∈ text, b ≠ 0x2f ∧ b ≠ 0x5c ∧ b ≠ 0) ∧ text ≠ [0x2e] ∧ text ≠ [0x2e, 0x2e] := by
  have hok : ∀ c cs, ∃ text, encodeSegment (c :: cs) = .ok text ∧
      ∀ b ∈ text, b ≠ 0x2f ∧ b ≠ 0x5c ∧ b ≠ 0 := by
    intro c cs
    unfold encodeSegment
    rw [if_neg (cons_ne_nil c cs)]
    split_ifs
    · exact ⟨_, rfl, by decide⟩
    · exact ⟨_, rfl, by decide⟩
    · refine ⟨_, rfl, fun b hb => ?_⟩
      obtain ⟨_, -, hmem⟩ := mem_flatMap.mp hb
      exact mem_encodeUnit hmem
  constructor
  · intro raw raw' h
    cases raw with
    | nil =>
      cases raw' with
      | nil => rfl
      | cons c cs =>
        obtain ⟨_, htext, -⟩ := hok c cs
        rw [htext] at h
        cases h
    | cons c cs =>
      obtain ⟨text, htext, -⟩ := hok c cs
      rw [← decodeSegment_encodeSegment htext, decodeSegment_encodeSegment (h ▸ htext)]
  · intro c cs
    obtain ⟨text, htext, hbytes⟩ := hok c cs
    have hraw := decodeSegment_encodeSegment htext
    refine ⟨text, htext, ?_, hbytes, ?_, ?_⟩
    all_goals
      rintro rfl
      rw [← hraw] at htext
      cases htext

end Catomicals.Sessions
