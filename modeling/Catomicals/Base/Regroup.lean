import Mathlib.Data.List.Basic
import Mathlib.Data.Nat.Bitwise

/-!
# Regrouping bits

Numbers of one width read as a string of bits, and cut again into numbers of another width. What the
loop has written, followed by what its accumulator holds, is the string it has read.
-/
namespace Catomicals.Base

open List

/-- The `width` low bits of a number, most significant first. -/
def bits : ℕ → ℕ → List Bool
  | 0, _ => []
  | width + 1, n => n.testBit width :: bits width n

/-- The string of bits that numbers of a given width spell. -/
def unpack (width : ℕ) (ns : List ℕ) : List Bool := ns.flatMap (bits width)

@[simp] lemma length_bits (width n : ℕ) : (bits width n).length = width := by
  induction width with
  | zero => rfl
  | succ _ ih => simp [bits, ih]

variable {width m n : ℕ}

theorem bits_congr (h : ∀ i < width, m.testBit i = n.testBit i) : bits width m = bits width n := by
  induction width with
  | zero => rfl
  | succ width ih =>
    rw [bits, bits, h width (by omega), ih fun i hi => h i (by omega)]

theorem testBit_of_bits (h : bits width m = bits width n) :
    ∀ i < width, m.testBit i = n.testBit i := by
  induction width with
  | zero => intro i hi; omega
  | succ width ih =>
    obtain ⟨htop, hlow⟩ := cons.inj h
    intro i _
    by_cases hi' : i = width
    · rw [hi', htop]
    · exact ih hlow i (by omega)

theorem bits_inj (hm : m < 2 ^ width) (hn : n < 2 ^ width) (h : bits width m = bits width n) :
    m = n := by
  apply Nat.eq_of_testBit_eq
  intro i
  by_cases hi : i < width
  · exact testBit_of_bits h i hi
  · have hle : 2 ^ width ≤ 2 ^ i := Nat.pow_le_pow_right (by omega) (by omega)
    rw [Nat.testBit_lt_two_pow (by omega), Nat.testBit_lt_two_pow (by omega)]

theorem bits_add (high low n : ℕ) : bits (high + low) n = bits high (n >>> low) ++ bits low n := by
  induction high with
  | zero => simp [bits]
  | succ high ih =>
    rw [show high + 1 + low = high + low + 1 by omega, bits, bits, ih, Nat.testBit_shiftRight,
      Nat.add_comm low high]
    rfl

theorem bits_zero (width : ℕ) : bits width 0 = replicate width false := by
  induction width with
  | zero => rfl
  | succ _ ih => rw [bits, ih, Nat.zero_testBit]; rfl

@[simp] lemma unpack_nil (width : ℕ) : unpack width [] = [] := rfl

@[simp] lemma unpack_cons (width n : ℕ) (ns : List ℕ) :
    unpack width (n :: ns) = bits width n ++ unpack width ns := rfl

@[simp] lemma unpack_append (width : ℕ) (ms ns : List ℕ) :
    unpack width (ms ++ ns) = unpack width ms ++ unpack width ns := by
  simp [unpack]

@[simp] lemma length_unpack (width : ℕ) (ns : List ℕ) :
    (unpack width ns).length = ns.length * width := by
  induction ns with
  | nil => simp
  | cons _ _ ih => simp [ih, Nat.succ_mul, Nat.add_comm]

theorem unpack_inj {ms ns : List ℕ} (hlen : ms.length = ns.length)
    (hm : ∀ m ∈ ms, m < 2 ^ width) (hn : ∀ n ∈ ns, n < 2 ^ width)
    (h : unpack width ms = unpack width ns) : ms = ns := by
  induction ms generalizing ns with
  | nil => exact (length_eq_zero_iff.mp hlen.symm).symm
  | cons _ _ ih =>
    obtain _ | ⟨n, ns⟩ := ns
    · simp at hlen
    · obtain ⟨hhead, htail⟩ := append_inj h (by simp)
      obtain ⟨hm, hms⟩ := forall_mem_cons.mp hm
      obtain ⟨hn, hns⟩ := forall_mem_cons.mp hn
      rw [bits_inj hm hn hhead, ih (by simpa using hlen) hms hns htail]

/-- The numbers written, and the `count` low bits of the accumulator still to be written. -/
structure Regrouping where
  (pending count : ℕ)
  out : List ℕ

/-- Writes numbers of the target width while enough bits are held, at most `fuel`. -/
def drain (target pending : ℕ) : (fuel count : ℕ) → List ℕ → ℕ × List ℕ
  | 0, count, out => (count, out)
  | fuel + 1, count, out =>
    if target ≤ count then
      drain target pending fuel (count - target)
        (out ++ [(pending >>> (count - target)) &&& (2 ^ target - 1)])
    else (count, out)

/-- Takes in one number; none is returned for a number that is too wide. -/
def Regrouping.push (source target : ℕ) (s : Regrouping) (value : ℕ) : Option Regrouping :=
  if value >>> source ≠ 0 then none
  else
    let pending := ((s.pending <<< source) ||| value) &&& (2 ^ (source + target - 1) - 1)
    let count := s.count + source
    let drained := drain target pending count count s.out
    some ⟨pending, drained.1, drained.2⟩

/-- With padding zeros fill up the last number; without, at most a few zeros may be left. -/
def Regrouping.finish (source target : ℕ) (pad : Bool) (s : Regrouping) : Option (List ℕ) :=
  let rest := (s.pending <<< (target - s.count)) &&& (2 ^ target - 1)
  if pad then some (if s.count ≠ 0 then s.out ++ [rest] else s.out)
  else if source ≤ s.count ∨ rest ≠ 0 then none
  else some s.out

/-- Regroups numbers of the source width into numbers of the target width. -/
def regroup (source target : ℕ) (pad : Bool) (values : List ℕ) : Option (List ℕ) := do
  let s ← values.foldlM (Regrouping.push source target) ⟨0, 0, []⟩
  s.finish source target pad

/-- The string of bits that a regrouping has read so far. -/
def Regrouping.read (target : ℕ) (s : Regrouping) : List Bool :=
  unpack target s.out ++ bits s.count s.pending

/-- What holds between two numbers: less than one target number is held. -/
structure Regrouping.Settled (target : ℕ) (s : Regrouping) : Prop where
  count_lt : s.count < target
  out_lt : ∀ n ∈ s.out, n < 2 ^ target

section

variable {source target : ℕ}

theorem bits_low (width n : ℕ) : bits width (n &&& (2 ^ width - 1)) = bits width n := by
  apply bits_congr
  intro i hi
  simp [hi]

theorem low_lt (width n : ℕ) : n &&& (2 ^ width - 1) < 2 ^ width := by
  rw [Nat.and_two_pow_sub_one_eq_mod]
  exact Nat.mod_lt _ (Nat.two_pow_pos width)

/-- Writing out moves bits from the accumulator to the end of the output. -/
theorem drain_spec (htgt : 0 < target) (pending fuel count : ℕ) (out : List ℕ)
    (hfuel : count ≤ fuel) (hout : ∀ n ∈ out, n < 2 ^ target) :
    let drained := drain target pending fuel count out
    drained.1 < target ∧ (∀ n ∈ drained.2, n < 2 ^ target)
      ∧ unpack target drained.2 ++ bits drained.1 pending
        = unpack target out ++ bits count pending := by
  induction fuel generalizing count out with
  | zero =>
    obtain rfl : count = 0 := by omega
    exact ⟨htgt, hout, rfl⟩
  | succ _ ih =>
    rw [drain]
    by_cases hcount : target ≤ count
    · rw [if_pos hcount]
      have hnext : ∀ n ∈ out ++ [(pending >>> (count - target)) &&& (2 ^ target - 1)],
          n < 2 ^ target := by
        intro n hn
        rcases mem_append.mp hn with hn | hn
        · exact hout n hn
        · rw [mem_singleton.mp hn]
          exact low_lt target _
      obtain ⟨hlt, hall, hread⟩ := ih (count - target) _ (by omega) hnext
      refine ⟨hlt, hall, hread.trans ?_⟩
      have hsplit := bits_add target (count - target) pending
      rw [Nat.add_sub_cancel' hcount] at hsplit
      rw [unpack_append, unpack_cons, unpack_nil, bits_low, hsplit]
      simp
    · rw [if_neg hcount]
      exact ⟨by omega, hout, rfl⟩

variable {value : ℕ} {values : List ℕ}

theorem shiftRight_eq_zero : value >>> source = 0 ↔ value < 2 ^ source := by
  rw [Nat.shiftRight_eq_div_pow, Nat.div_eq_zero_iff]
  have := Nat.two_pow_pos source
  omega

theorem Regrouping.push_spec {s : Regrouping} (htgt : 0 < target) (hs : s.Settled target)
    (hvalue : value < 2 ^ source) :
    ∃ s', s.push source target value = some s' ∧ s'.Settled target
      ∧ s'.read target = s.read target ++ bits source value := by
  have hcount := hs.count_lt
  set pending := ((s.pending <<< source) ||| value) &&& (2 ^ (source + target - 1) - 1) with hp
  have hheld : bits (s.count + source) pending = bits s.count s.pending ++ bits source value := by
    rw [bits_add]
    congr 1
    · apply bits_congr
      intro i hi
      have hhigh : value.testBit (source + i) = false :=
        Nat.testBit_lt_two_pow (hvalue.trans_le (Nat.pow_le_pow_right (by omega) (by omega)))
      rw [Nat.testBit_shiftRight, hp, Nat.testBit_and, Nat.testBit_or, Nat.testBit_shiftLeft,
        Nat.testBit_two_pow_sub_one, hhigh]
      simp; omega
    · apply bits_congr
      intro i _
      have hbit : i < source + target - 1 := by omega
      rw [hp, Nat.testBit_and, Nat.testBit_or, Nat.testBit_shiftLeft, Nat.testBit_two_pow_sub_one]
      simp [hbit]; omega
  obtain ⟨hlt, hall, hread⟩ := drain_spec htgt pending (s.count + source) (s.count + source)
    s.out le_rfl hs.out_lt
  refine ⟨_, if_neg (not_not.mpr (shiftRight_eq_zero.mpr hvalue)), ⟨hlt, hall⟩, ?_⟩
  rw [Regrouping.read, hread, hheld, Regrouping.read, append_assoc]

theorem Regrouping.push_lt {s s' : Regrouping} (h : s.push source target value = some s') :
    value < 2 ^ source := by
  by_contra hvalue
  simp [Regrouping.push, if_pos (mt shiftRight_eq_zero.mp hvalue)] at h

theorem Regrouping.foldlM_push_spec {s : Regrouping} (htgt : 0 < target) (hs : s.Settled target)
    (hvalues : ∀ v ∈ values, v < 2 ^ source) :
    ∃ s', values.foldlM (Regrouping.push source target) s = some s' ∧ s'.Settled target
      ∧ s'.read target = s.read target ++ unpack source values := by
  induction values generalizing s with
  | nil => exact ⟨s, rfl, hs, by simp⟩
  | cons _ _ ih =>
    obtain ⟨hv, hrest⟩ := forall_mem_cons.mp hvalues
    obtain ⟨s₁, hpush, hs₁, hread₁⟩ := push_spec htgt hs hv
    obtain ⟨s₂, hfold, hs₂, hread₂⟩ := ih hs₁ hrest
    refine ⟨s₂, ?_, hs₂, ?_⟩
    · rw [foldlM_cons, hpush]
      exact hfold
    · rw [hread₂, hread₁, unpack_cons, append_assoc]

theorem Regrouping.forall_lt_of_foldlM {s s' : Regrouping}
    (h : values.foldlM (Regrouping.push source target) s = some s') :
    ∀ v ∈ values, v < 2 ^ source := by
  induction values generalizing s with
  | nil => intro v hv; cases hv
  | cons _ _ ih =>
    obtain ⟨s₁, hpush, hrest⟩ := Option.bind_eq_some_iff.mp h
    exact forall_mem_cons.mpr ⟨push_lt hpush, ih hrest⟩

theorem Regrouping.settled_start (htgt : 0 < target) : (⟨0, 0, []⟩ : Regrouping).Settled target :=
  ⟨htgt, by intro n hn; cases hn⟩

theorem bits_rest {count : ℕ} (pending : ℕ) (hcount : count < target) :
    bits target ((pending <<< (target - count)) &&& (2 ^ target - 1))
      = bits count pending ++ replicate (target - count) false := by
  rw [bits_low]
  have hsplit := bits_add count (target - count) (pending <<< (target - count))
  rw [Nat.add_sub_cancel' hcount.le] at hsplit
  rw [hsplit, Nat.shiftLeft_shiftRight]
  congr 1
  rw [← bits_zero]
  apply bits_congr
  intro i _
  simp; omega

theorem rest_eq_zero {count pending : ℕ} (hcount : count < target) :
    (pending <<< (target - count)) &&& (2 ^ target - 1) = 0
      ↔ bits count pending = replicate count false := by
  have hrest := bits_rest pending hcount
  constructor
  · intro hzero
    rw [hzero, bits_zero] at hrest
    have htake := congrArg (take count) hrest
    rw [take_left' (length_bits _ _), take_replicate, Nat.min_eq_left hcount.le] at htake
    exact htake.symm
  · intro hbits
    apply bits_inj (low_lt target _) (Nat.two_pow_pos target)
    rw [hrest, hbits, bits_zero, replicate_append_replicate, Nat.add_sub_cancel' hcount.le]

/-- With padding every input of the right width is regrouped, zeros added to its bits. -/
theorem regroup_pad (htgt : 0 < target) (hvalues : ∀ v ∈ values, v < 2 ^ source) :
    ∃ words, regroup source target true values = some words ∧ (∀ w ∈ words, w < 2 ^ target)
      ∧ ∃ k < target, unpack target words = unpack source values ++ replicate k false := by
  obtain ⟨s, hfold, hs, hread⟩ :=
    Regrouping.foldlM_push_spec htgt (Regrouping.settled_start htgt) hvalues
  have hread : unpack target s.out ++ bits s.count s.pending = unpack source values := hread
  rw [regroup, hfold]
  by_cases hcount : s.count = 0
  · refine ⟨s.out, by simp [Regrouping.finish, hcount], hs.out_lt, 0, htgt, ?_⟩
    rw [hcount] at hread
    simpa [bits] using hread
  · refine ⟨s.out ++ [(s.pending <<< (target - s.count)) &&& (2 ^ target - 1)],
      by simp [Regrouping.finish, hcount], ?_, target - s.count, by omega, ?_⟩
    · intro w hw
      rcases mem_append.mp hw with hw | hw
      · exact hs.out_lt w hw
      · rw [mem_singleton.mp hw]
        exact low_lt target _
    · rw [unpack_append, unpack_cons, unpack_nil, append_nil, bits_rest s.pending hs.count_lt,
        ← append_assoc, hread]

lemma eq_of_mul_lt (width : ℕ) (h : m * width < n * width + width)
    (h' : n * width < m * width + width) : m = n := by
  rw [← Nat.succ_mul] at h h'
  have hle := Nat.lt_of_mul_lt_mul_right h
  have hge := Nat.lt_of_mul_lt_mul_right h'
  omega

/-- Without padding, the input has the bits of the output and fewer zeros than either width. -/
theorem regroup_exact {out : List ℕ} (htgt : 0 < target) :
    regroup source target false values = some out ↔
      (∀ v ∈ values, v < 2 ^ source) ∧ (∀ n ∈ out, n < 2 ^ target)
        ∧ ∃ k < min source target,
          unpack source values = unpack target out ++ replicate k false := by
  constructor
  · intro h
    obtain ⟨s, hfold, hout⟩ := Option.bind_eq_some_iff.mp h
    have hvalues := Regrouping.forall_lt_of_foldlM hfold
    obtain ⟨s', hfold', hs, hread⟩ :=
      Regrouping.foldlM_push_spec htgt (Regrouping.settled_start htgt) hvalues
    cases hfold.symm.trans hfold'
    have hread : unpack target s.out ++ bits s.count s.pending = unpack source values := hread
    simp only [Regrouping.finish, Bool.false_eq_true, if_false, Option.ite_none_left_eq_some,
      not_or, not_le, not_not, Option.some.injEq] at hout
    obtain ⟨⟨hcount, hzero⟩, rfl⟩ := hout
    refine ⟨hvalues, hs.out_lt, s.count, lt_min hcount hs.count_lt, ?_⟩
    rw [← hread, (rest_eq_zero hs.count_lt).mp hzero]
  · rintro ⟨hvalues, hout, k, hk, hunpack⟩
    obtain ⟨s, hfold, hs, hread⟩ :=
      Regrouping.foldlM_push_spec htgt (Regrouping.settled_start htgt) hvalues
    have hread : unpack target s.out ++ bits s.count s.pending
        = unpack target out ++ replicate k false := by
      rw [← hunpack]; exact hread
    -- Both sides are target numbers followed by less than one: they are cut at the same place.
    have hlengths := congrArg length hread
    simp only [length_append, length_unpack, length_bits, length_replicate] at hlengths
    have hcount := hs.count_lt
    have hsame : s.out.length = out.length := eq_of_mul_lt target (by omega) (by omega)
    obtain ⟨hwritten, hheld⟩ := append_inj hread (by simp [hsame])
    have hcountk : s.count = k := by
      rw [hsame] at hlengths
      omega
    have hzero : (s.pending <<< (target - s.count)) &&& (2 ^ target - 1) = 0 := by
      rw [rest_eq_zero hs.count_lt, hheld, hcountk]
    have hle : ¬source ≤ s.count := by omega
    rw [regroup, hfold, ← unpack_inj hsame hs.out_lt hout hwritten]
    simp only [Option.bind_eq_bind, Option.bind_some, Regrouping.finish, Bool.false_eq_true,
      if_false, hzero, hle, ne_eq, not_true_eq_false, or_self]

theorem regroup_inj {vs vs' out : List ℕ} (htgt : 0 < target)
    (h : regroup source target false vs = some out)
    (h' : regroup source target false vs' = some out) : vs = vs' := by
  obtain ⟨hvs, -, k, hk, hunpack⟩ := (regroup_exact htgt).mp h
  obtain ⟨hvs', -, k', hk', hunpack'⟩ := (regroup_exact htgt).mp h'
  have hlengths := congrArg length hunpack
  have hlengths' := congrArg length hunpack'
  simp only [length_append, length_unpack, length_replicate] at hlengths hlengths'
  have hsame : vs.length = vs'.length := eq_of_mul_lt source (by omega) (by omega)
  rw [hsame] at hlengths
  rw [show k = k' by omega, ← hunpack'] at hunpack
  exact unpack_inj hsame hvs hvs' hunpack

/-- Numbers regrouped with padding into narrower ones are regrouped back. -/
theorem regroup_regroup (source target : ℕ) (htgt : 0 < target) (hle : target ≤ source)
    (hvalues : ∀ v ∈ values, v < 2 ^ source) :
    ∃ words, regroup source target true values = some words ∧ (∀ w ∈ words, w < 2 ^ target)
      ∧ regroup target source false words = some values := by
  obtain ⟨words, hpad, hwords, k, hk, hunpack⟩ := regroup_pad htgt hvalues
  refine ⟨words, hpad, hwords, ?_⟩
  rw [regroup_exact (by omega)]
  exact ⟨hwords, hvalues, k, by rw [Nat.min_eq_left hle]; exact hk, hunpack⟩

theorem length_regroup_pad {words : List ℕ} (htgt : 0 < target)
    (h : regroup source target true values = some words) :
    words.length * target < values.length * source + target
      ∧ values.length * source ≤ words.length * target := by
  obtain ⟨s, hfold, -⟩ := Option.bind_eq_some_iff.mp h
  obtain ⟨words', hpad, -, k, hk, hunpack⟩ :=
    regroup_pad htgt (Regrouping.forall_lt_of_foldlM hfold)
  cases h.symm.trans hpad
  have hlengths := congrArg length hunpack
  simp only [length_append, length_unpack, length_replicate] at hlengths
  omega

end

end Catomicals.Base
