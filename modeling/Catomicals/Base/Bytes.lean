import Mathlib.Data.UInt

/-!
# Byte strings

Byte strings, the 32-byte arrays used for hashes and keys, and the little-endian encoding of
machine integers.
-/
namespace Catomicals.Base

/-! A bounded quantifier is decided along its list, never through all bytes or characters. -/

section

variable {α : Type*} {p : α → Prop} [DecidablePred p]

instance (priority := high) decidableForallMem (l : List α) : Decidable (∀ x ∈ l, p x) :=
  List.decidableBAll p l

instance (priority := high) decidableExistsMem (l : List α) : Decidable (∃ x ∈ l, p x) :=
  List.decidableBEx p l

instance (priority := high) decidableForallOption (o : Option α) : Decidable (∀ x ∈ o, p x) :=
  o.decidableForallMem

end

abbrev Bytes := List UInt8

structure Bytes32 where
  bytes : Bytes
  length_eq : bytes.length = 32
  deriving DecidableEq

namespace Bytes32

def zeros : Bytes32 := ⟨List.replicate 32 0, by simp⟩

/-- The array of 32 copies of one byte. -/
def replicate (b : UInt8) : Bytes32 := ⟨List.replicate 32 b, by simp⟩

def ofBytes (b : Bytes) : Option Bytes32 :=
  if h : b.length = 32 then some ⟨b, h⟩ else none

@[simp] theorem length_bytes (a : Bytes32) : a.bytes.length = 32 := a.length_eq

@[simp] theorem ofBytes_bytes (a : Bytes32) : ofBytes a.bytes = some a := by
  simp [ofBytes]

end Bytes32

structure Bytes20 where
  bytes : Bytes
  length_eq : bytes.length = 20

def Bytes20.ofBytes (b : Bytes) : Option Bytes20 :=
  if h : b.length = 20 then some ⟨b, h⟩ else none

/-- The `width` low bytes of `n`, least significant first. -/
def leBytes : ℕ → ℕ → Bytes
  | 0, _ => []
  | width + 1, n => UInt8.ofNat n :: leBytes width (n / 256)

/-- The `width` low bytes of `n`, most significant first. -/
def beBytes (width n : ℕ) : Bytes := (leBytes width n).reverse

/-- The number a little-endian byte string stands for. -/
def ofLeBytes : Bytes → ℕ
  | [] => 0
  | b :: rest => b.toNat + 256 * ofLeBytes rest

@[simp] theorem length_leBytes (width n : ℕ) : (leBytes width n).length = width := by
  induction width generalizing n with
  | zero => rfl
  | succ _ ih => simp [leBytes, ih]

theorem ofLeBytes_leBytes (width n : ℕ) : ofLeBytes (leBytes width n) = n % 256 ^ width := by
  induction width generalizing n with
  | zero => simp [leBytes, ofLeBytes, Nat.mod_one]
  | succ _ ih =>
    have hbyte : (UInt8.ofNat n).toNat = n % 256 := by simp
    rw [leBytes, ofLeBytes, ih, hbyte, pow_succ', Nat.mod_mul]

theorem leBytes_ofLeBytes (b : Bytes) : leBytes b.length (ofLeBytes b) = b := by
  induction b with
  | nil => rfl
  | cons x rest ih =>
    have hx := x.toNat_lt
    have hbyte : UInt8.ofNat (x.toNat + 256 * ofLeBytes rest) = x := by
      apply UInt8.toNat_inj.mp
      simp only [UInt8.toNat_ofNat']
      omega
    have hrest : (x.toNat + 256 * ofLeBytes rest) / 256 = ofLeBytes rest := by omega
    rw [ofLeBytes, List.length_cons, leBytes, hbyte, hrest, ih]

end Catomicals.Base
