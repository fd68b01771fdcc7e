import Mathlib.Data.List.Basic
import Mathlib.Data.Nat.Bitwise

/-!
# Checksums of address texts

A register of symbols of five bits, to which each symbol that leaves it adds generators. This is
linear in exclusive or, so check symbols can be read off a run over zeros.
-/
namespace Catomicals.Base

open List

/-- The number of check symbols, and the generators in the order of their bits. -/
structure Checksum where
  symbols : ℕ
  generators : List ℕ
  symbols_pos : 0 < symbols
  generators_lt : ∀ g ∈ generators, g < 2 ^ (5 * symbols)

namespace Checksum

/-- Adds the generators whose bit is set. -/
def feed (generators : List (ℕ × ℕ)) (high register : ℕ) : ℕ :=
  generators.foldl (fun c g => if (high >>> g.2) &&& 1 ≠ 0 then c ^^^ g.1 else c) register

/-- Exclusive or of symbols, each one place below the one before it. -/
def join (register : ℕ) (values : List ℕ) : ℕ :=
  values.foldl (fun r v => (r <<< 5) ^^^ v) register

/-- The `n` low symbols of a number, most significant first. -/
def symbolsOf : ℕ → ℕ → List ℕ
  | 0, _ => []
  | n + 1, p => ((p >>> (5 * n)) &&& 31) :: symbolsOf n p

variable (C : Checksum)

def step (register value : ℕ) : ℕ :=
  feed C.generators.zipIdx (register >>> (5 * (C.symbols - 1)))
    (((register &&& (2 ^ (5 * (C.symbols - 1)) - 1)) <<< 5) ^^^ value)

def run (register : ℕ) (values : List ℕ) : ℕ := values.foldl C.step register

/-- The check symbols that take a register to a wanted value. -/
def check (register target : ℕ) : List ℕ :=
  symbolsOf C.symbols (C.run register (replicate C.symbols 0) ^^^ target)

section Feed

variable (generators : List (ℕ × ℕ))

theorem shiftRight_and_one (n i : ℕ) : (n >>> i) &&& 1 ≠ 0 ↔ n.testBit i = true := by
  rw [Nat.testBit, Nat.and_comm, bne_iff_ne]

theorem feed_zero (register : ℕ) : feed generators 0 register = register := by
  simp [feed]

theorem feed_xor (h h' r r' : ℕ) :
    feed generators (h ^^^ h') (r ^^^ r') = feed generators h r ^^^ feed generators h' r' := by
  induction generators generalizing r r' with
  | nil => rfl
  | cons g _ ih =>
    simp only [feed, foldl_cons, shiftRight_and_one, Nat.testBit_xor] at ih ⊢
    rw [← ih]
    congr 1
    cases h.testBit g.2 <;> cases h'.testBit g.2 <;> simp only [Bool.xor_false, Bool.xor_true,
      Bool.not_true, Bool.not_false, Bool.false_eq_true, if_true, if_false]
    · rw [Nat.xor_assoc]
    · rw [Nat.xor_assoc, Nat.xor_assoc, Nat.xor_comm r' g.1]
    · rw [Nat.xor_comm r' g.1, Nat.xor_assoc, ← Nat.xor_assoc g.1 g.1, Nat.xor_self, Nat.zero_xor]

theorem feed_lt {n : ℕ} (hgens : ∀ g ∈ generators, g.1 < 2 ^ n) (high : ℕ) {register : ℕ}
    (hreg : register < 2 ^ n) : feed generators high register < 2 ^ n := by
  induction generators generalizing register with
  | nil => exact hreg
  | cons _ _ ih =>
    obtain ⟨hg, hrest⟩ := forall_mem_cons.mp hgens
    rw [feed, foldl_cons]
    apply ih hrest
    split
    · exact Nat.xor_lt_two_pow hreg hg
    · exact hreg

end Feed

section Symbols

theorem and_thirtyOne_lt (n : ℕ) : n &&& 31 < 32 := Nat.and_lt_two_pow n (by decide : 31 < 2 ^ 5)

@[simp] theorem length_symbolsOf (n p : ℕ) : (symbolsOf n p).length = n := by
  induction n with
  | zero => rfl
  | succ n ih => rw [symbolsOf, length_cons, ih]

theorem symbolsOf_lt (n p : ℕ) : ∀ v ∈ symbolsOf n p, v < 32 := by
  induction n with
  | zero => intro v hv; cases hv
  | succ n ih => exact forall_mem_cons.mpr ⟨and_thirtyOne_lt _, ih⟩

theorem join_symbolsOf (n p register : ℕ) :
    join register (symbolsOf n p) = (register <<< (5 * n)) ^^^ (p % 2 ^ (5 * n)) := by
  induction n generalizing register with
  | zero => simp [join, symbolsOf, Nat.mod_one]
  | succ n ih =>
    apply (ih _).trans
    apply Nat.eq_of_testBit_eq
    intro i
    have h31 : (31).testBit (i - 5 * n) = decide (i - 5 * n < 5) := Nat.testBit_two_pow_sub_one 5 _
    simp only [Nat.testBit_xor, Nat.testBit_shiftLeft, Nat.testBit_mod_two_pow, Nat.testBit_and,
      Nat.testBit_shiftRight, h31]
    by_cases hlow : i < 5 * n
    · have h₁ : ¬5 * n ≤ i := by omega
      have h₂ : ¬5 * (n + 1) ≤ i := by omega
      have h₃ : i < 5 * (n + 1) := by omega
      simp [hlow, h₁, h₂, h₃]
    · have h₁ : 5 * n ≤ i := by omega
      by_cases hmid : i < 5 * (n + 1)
      · have h₂ : ¬5 * (n + 1) ≤ i := by omega
        have h₃ : ¬5 ≤ i - 5 * n := by omega
        have h₄ : i - 5 * n < 5 := by omega
        simp [hlow, hmid, h₁, h₂, h₃, h₄]
      · have h₂ : 5 * (n + 1) ≤ i := by omega
        have h₃ : 5 ≤ i - 5 * n := by omega
        have h₄ : ¬i - 5 * n < 5 := by omega
        have h₅ : i - 5 * n - 5 = i - 5 * (n + 1) := by omega
        simp [hlow, hmid, h₁, h₂, h₃, h₄, h₅]

end Symbols

section Register

variable {C}

theorem step_xor (r r' v v' : ℕ) : C.step (r ^^^ r') (v ^^^ v') = C.step r v ^^^ C.step r' v' := by
  rw [step, step, step, ← feed_xor, Nat.shiftRight_xor_distrib, Nat.and_xor_distrib_right,
    Nat.shiftLeft_xor_distrib]
  congr 1
  ac_rfl

theorem run_xor (r r' : ℕ) (vs vs' : List ℕ) (hlen : vs.length = vs'.length) :
    C.run (r ^^^ r') (zipWith (· ^^^ ·) vs vs') = C.run r vs ^^^ C.run r' vs' := by
  induction vs generalizing r r' vs' with
  | nil =>
    obtain rfl : vs' = [] := length_eq_zero_iff.mp hlen.symm
    rfl
  | cons _ _ ih =>
    obtain _ | ⟨v', vs'⟩ := vs'
    · simp at hlen
    · simp only [run, zipWith_cons_cons, foldl_cons, step_xor] at ih ⊢
      exact ih _ _ _ (by simpa using hlen)

theorem step_of_lt {r : ℕ} (v : ℕ) (hr : r < 2 ^ (5 * (C.symbols - 1))) :
    C.step r v = (r <<< 5) ^^^ v := by
  have hhigh : r >>> (5 * (C.symbols - 1)) = 0 := by
    rw [Nat.shiftRight_eq_div_pow, Nat.div_eq_of_lt hr]
  rw [step, hhigh, feed_zero, Nat.and_two_pow_sub_one_eq_mod, Nat.mod_eq_of_lt hr]

theorem shiftLeft_xor_lt {r v k : ℕ} (hr : r < 2 ^ (5 * k)) (hv : v < 32) :
    (r <<< 5) ^^^ v < 2 ^ (5 * (k + 1)) := by
  apply Nat.xor_lt_two_pow
  · rw [Nat.shiftLeft_eq, Nat.mul_add, pow_add]
    exact Nat.mul_lt_mul_of_pos_right hr (by decide)
  · calc v < 2 ^ 5 := hv
      _ ≤ 2 ^ (5 * (k + 1)) := Nat.pow_le_pow_right (by decide) (by omega)

theorem run_eq_join {r k : ℕ} {vs : List ℕ} (hr : r < 2 ^ (5 * k)) (hvs : ∀ v ∈ vs, v < 32)
    (hk : k + vs.length ≤ C.symbols) : C.run r vs = join r vs := by
  induction vs generalizing r k with
  | nil => rfl
  | cons v _ ih =>
    obtain ⟨hv, hvs⟩ := forall_mem_cons.mp hvs
    rw [length_cons] at hk
    have hstep := step_of_lt (C := C) v
      (hr.trans_le (Nat.pow_le_pow_right (by decide) (by omega)))
    simp only [run, join, foldl_cons, hstep] at ih ⊢
    exact ih (shiftLeft_xor_lt hr hv) hvs (by omega)

theorem step_lt (r : ℕ) {v : ℕ} (hv : v < 32) : C.step r v < 2 ^ (5 * C.symbols) := by
  have hsyms := C.symbols_pos
  apply feed_lt
  · intro g hg
    exact C.generators_lt g.1 (fst_mem_of_mem_zipIdx hg)
  · have hlow : r &&& (2 ^ (5 * (C.symbols - 1)) - 1) < 2 ^ (5 * (C.symbols - 1)) := by
      rw [Nat.and_two_pow_sub_one_eq_mod]
      exact Nat.mod_lt _ (Nat.two_pow_pos _)
    have hnext := shiftLeft_xor_lt hlow hv
    rwa [Nat.sub_add_cancel hsyms] at hnext

theorem run_zeros_lt (r : ℕ) : C.run r (replicate C.symbols 0) < 2 ^ (5 * C.symbols) := by
  obtain ⟨n, hn⟩ := Nat.exists_eq_succ_of_ne_zero C.symbols_pos.ne'
  have hsnoc : replicate C.symbols 0 = replicate n 0 ++ [0] := by
    rw [hn, Nat.succ_eq_add_one, replicate_succ']
  rw [run, hsnoc, foldl_append]
  exact step_lt _ (by decide)

@[simp] theorem length_check (r target : ℕ) : (C.check r target).length = C.symbols :=
  length_symbolsOf _ _

theorem check_lt (r target : ℕ) : ∀ v ∈ C.check r target, v < 32 := symbolsOf_lt _ _

theorem zipWith_zeros_xor (vs : List ℕ) : zipWith (· ^^^ ·) (replicate vs.length 0) vs = vs := by
  induction vs with
  | nil => rfl
  | cons _ _ ih => simp [replicate_succ, ih]

/-- What a register adds to the symbols that fill it does not depend on them. -/
theorem run_eq_xor_join (r : ℕ) {vs : List ℕ} (hlen : vs.length = C.symbols)
    (hvs : ∀ v ∈ vs, v < 32) : C.run r vs = C.run r (replicate C.symbols 0) ^^^ join 0 vs := by
  have hsplit := run_xor (C := C) r 0 (replicate vs.length 0) vs (by simp)
  have hjoin : C.run 0 vs = join 0 vs := run_eq_join (k := 0) (by simp) hvs (by omega)
  rwa [zipWith_zeros_xor, Nat.xor_zero, hlen, hjoin] at hsplit

theorem run_check (r : ℕ) {target : ℕ} (htgt : target < 2 ^ (5 * C.symbols)) :
    C.run r (C.check r target) = target := by
  rw [run_eq_xor_join r (length_check r target) (check_lt r target), check, join_symbolsOf,
    Nat.zero_shiftLeft, Nat.zero_xor,
    Nat.mod_eq_of_lt (Nat.xor_lt_two_pow (run_zeros_lt r) htgt), ← Nat.xor_assoc, Nat.xor_self,
    Nat.zero_xor]

theorem join_inj {r r' : ℕ} {vs vs' : List ℕ} (hlen : vs.length = vs'.length)
    (hvs : ∀ v ∈ vs, v < 32) (hvs' : ∀ v ∈ vs', v < 32) (h : join r vs = join r' vs') :
    r = r' ∧ vs = vs' := by
  induction vs generalizing r r' vs' with
  | nil =>
    obtain rfl : vs' = [] := length_eq_zero_iff.mp hlen.symm
    exact ⟨h, rfl⟩
  | cons v vs ih =>
    obtain _ | ⟨v', vs'⟩ := vs'
    · simp at hlen
    · obtain ⟨hv, hvs⟩ := forall_mem_cons.mp hvs
      obtain ⟨hv', hvs'⟩ := forall_mem_cons.mp hvs'
      obtain ⟨hsame, rfl⟩ := ih (by simpa using hlen) hvs hvs' h
      have hshift := congrArg (· >>> 5) hsame
      simp only [Nat.shiftRight_xor_distrib, Nat.shiftLeft_shiftRight,
        Nat.shiftRight_eq_div_pow v, Nat.shiftRight_eq_div_pow v', Nat.div_eq_of_lt hv,
        Nat.div_eq_of_lt hv', Nat.xor_zero] at hshift
      subst hshift
      exact ⟨rfl, congrArg (· :: vs) (Nat.xor_right_inj.mp hsame)⟩

/-- The check symbols of a value are the only ones that reach it. -/
theorem run_inj {r : ℕ} {vs vs' : List ℕ} (hlen : vs.length = C.symbols)
    (hlen' : vs'.length = C.symbols) (hvs : ∀ v ∈ vs, v < 32) (hvs' : ∀ v ∈ vs', v < 32)
    (h : C.run r vs = C.run r vs') : vs = vs' := by
  rw [run_eq_xor_join r hlen hvs, run_eq_xor_join r hlen' hvs'] at h
  exact (join_inj (hlen.trans hlen'.symm) hvs hvs' (Nat.xor_right_inj.mp h)).2

end Register

section Last

variable {C} (hlast : ∀ high < 32, feed C.generators.zipIdx high 0 % 32 = 0 → high = 0)
include hlast

theorem eq_zero_of_step {r : ℕ} (hr : r < 2 ^ (5 * C.symbols)) (h : C.step r 0 = 0) : r = 0 := by
  have hsyms := C.symbols_pos
  set n := 5 * (C.symbols - 1) with hn
  have hhigh : r >>> n < 32 := by
    rw [Nat.shiftRight_eq_div_pow]
    apply Nat.div_lt_of_lt_mul
    rw [show 2 ^ n * 32 = 2 ^ (n + 5) from (pow_add 2 n 5).symm]
    rwa [show n + 5 = 5 * C.symbols by omega]
  -- the generators that are added end in zeros, as the shifted register does
  have hfeed : feed C.generators.zipIdx (r >>> n) 0 = (r % 2 ^ n) * 32 := by
    have hsplit := feed_xor C.generators.zipIdx (r >>> n) 0 0 (r % 2 ^ n * 32)
    rw [Nat.xor_zero, Nat.zero_xor, feed_zero] at hsplit
    rw [step, ← hn, Nat.and_two_pow_sub_one_eq_mod, Nat.shiftLeft_eq, Nat.xor_zero] at h
    exact Nat.xor_eq_zero_iff.mp (hsplit.symm.trans h)
  have hzero := hlast _ hhigh (by rw [hfeed, Nat.mul_mod_left])
  rw [hzero, feed_zero] at hfeed
  rw [Nat.shiftRight_eq_div_pow] at hzero
  rw [← Nat.div_add_mod r (2 ^ n), hzero]
  omega

theorem eq_zero_of_run_zeros {r k : ℕ} (hr : r < 2 ^ (5 * C.symbols))
    (h : C.run r (replicate k 0) = 0) : r = 0 := by
  induction k generalizing r with
  | zero => exact h
  | succ k ih => exact eq_zero_of_step hlast hr (ih (step_lt r (by decide)) h)

/-- A register that tells its last symbols apart tells every symbol apart. -/
theorem eq_of_run_eq {r v v' : ℕ} (hv : v < 32) (hv' : v' < 32) {vs : List ℕ}
    (h : C.run r (v :: vs) = C.run r (v' :: vs)) : v = v' := by
  have hdiff := run_xor (C := C) (C.step r v) (C.step r v') vs vs rfl
  have hzeros : zipWith (· ^^^ ·) vs vs = replicate vs.length 0 := by
    simp
  have hsame : C.run (C.step r v) vs = C.run (C.step r v') vs := h
  rw [hzeros, hsame, Nat.xor_self] at hdiff
  have hstep := eq_zero_of_run_zeros hlast (Nat.xor_lt_two_pow (step_lt r hv) (step_lt r hv')) hdiff
  rw [← step_xor, Nat.xor_self, step_of_lt _ (Nat.two_pow_pos _), Nat.zero_shiftLeft,
    Nat.zero_xor] at hstep
  exact Nat.xor_eq_zero_iff.mp hstep

end Last

end Checksum

end Catomicals.Base
