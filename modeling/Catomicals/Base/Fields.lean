import Catomicals.Base.Bytes

/-!
# Fields of a byte string

When a byte string that was put together from fields determines them. Every lemma reads one field
off the front and leaves an equation about the rest.
-/
namespace Catomicals.Base

open List ByteArray

variable {α : Type} {e : α → Bytes} {r s : Bytes}

/-- No code word is the beginning of another one. -/
def PrefixFree (e : α → Bytes) : Prop := ∀ ⦃a b⦄, e a <+: e b → a = b

theorem PrefixFree.append_iff (h : PrefixFree e) {a b : α} :
    e a ++ r = e b ++ s ↔ a = b ∧ r = s := by
  constructor
  · intro heq
    obtain rfl : a = b := by
      obtain hab | hba := prefix_or_prefix_of_prefix ⟨r, heq⟩ (prefix_append (e b) s)
      · exact h hab
      · exact (h hba).symm
    exact ⟨rfl, append_cancel_left heq⟩
  · rintro ⟨rfl, rfl⟩
    rfl

theorem PrefixFree.inj (h : PrefixFree e) {a b : α} : e a = e b ↔ a = b :=
  ⟨fun heq => h (heq ▸ prefix_rfl), congrArg e⟩

theorem prefixFree_of_length {width : ℕ} (hlen : ∀ a, (e a).length = width)
    (hinj : Function.Injective e) : PrefixFree e :=
  fun a b h => hinj (h.eq_of_length (by rw [hlen, hlen]))

/-- Fields that can be read off the front are known, if their number is or none is empty. -/
theorem flatMap_inj {l l' : List α} (hend : (∀ a, e a ≠ []) ∨ l.length = l'.length)
    (hfield : ∀ a ∈ l, ∀ b ∈ l', ∀ r s, e a ++ r = e b ++ s → a = b ∧ r = s)
    (heq : l.flatMap e = l'.flatMap e) : l = l' := by
  induction l generalizing l' with
  | nil => cases l' <;> simp_all
  | cons a l ih =>
    obtain _ | ⟨b, l'⟩ := l'
    · simp_all
    · simp only [flatMap_cons, forall_mem_cons] at heq hfield
      obtain ⟨rfl, hrest⟩ := hfield.1.1 _ _ heq
      rw [ih (hend.imp_right Nat.succ.inj) (fun a ha b hb => (hfield.2 a ha).2 b hb) hrest]

/-- One of two optional values is absent and the other is the default for that. -/
def Confused (d : α) (o o' : Option α) : Prop := o = none ∧ o' = some d ∨ o = some d ∧ o' = none

theorem Confused.ne {d : α} {o o' : Option α} (h : Confused d o o') : o ≠ o' := by
  obtain ⟨rfl, rfl⟩ | ⟨rfl, rfl⟩ := h <;> simp

theorem getD_eq_getD_iff {d : α} {o o' : Option α} :
    o.getD d = o'.getD d ↔ o = o' ∨ Confused d o o' := by
  cases o <;> cases o' <;> simp [Confused, eq_comm]

@[simp] theorem length_beBytes (width n : ℕ) : (beBytes width n).length = width := by
  simp [beBytes]

theorem beBytes_inj {width m n : ℕ} :
    beBytes width m = beBytes width n ↔ m % 256 ^ width = n % 256 ^ width := by
  rw [← ofLeBytes_leBytes, ← ofLeBytes_leBytes, beBytes, beBytes, reverse_inj]
  refine ⟨congrArg _, fun h => ?_⟩
  rw [← leBytes_ofLeBytes (leBytes width m), ← leBytes_ofLeBytes (leBytes width n), h]
  simp only [length_leBytes]

theorem prefixFree_beBytes {f : α → ℕ} (hf : Function.Injective f) {width : ℕ}
    (hbound : ∀ a, f a < 256 ^ width) : PrefixFree fun a => beBytes width (f a) := by
  refine prefixFree_of_length (fun _ => length_beBytes _ _) fun a b h => hf ?_
  rwa [beBytes_inj, Nat.mod_eq_of_lt (hbound a), Nat.mod_eq_of_lt (hbound b)] at h

theorem prefixFree_leBytes {f : α → ℕ} (hf : Function.Injective f) {width : ℕ}
    (hbound : ∀ a, f a < 256 ^ width) : PrefixFree fun a => leBytes width (f a) := by
  refine prefixFree_of_length (fun _ => length_leBytes _ _) fun a b h => hf ?_
  have hmod := congrArg ofLeBytes h
  rwa [ofLeBytes_leBytes, ofLeBytes_leBytes, Nat.mod_eq_of_lt (hbound a),
    Nat.mod_eq_of_lt (hbound b)] at hmod

theorem prefixFree_u16 : PrefixFree fun a : UInt16 => beBytes 2 a.toNat :=
  prefixFree_beBytes (fun _ _ => UInt16.toNat_inj.mp) UInt16.toNat_lt

theorem prefixFree_u32 : PrefixFree fun a : UInt32 => beBytes 4 a.toNat :=
  prefixFree_beBytes (fun _ _ => UInt32.toNat_inj.mp) UInt32.toNat_lt

theorem prefixFree_u64 : PrefixFree fun a : UInt64 => beBytes 8 a.toNat :=
  prefixFree_beBytes (fun _ _ => UInt64.toNat_inj.mp) UInt64.toNat_lt

def IsI64 (n : ℤ) : Prop := -2 ^ 63 ≤ n ∧ n < 2 ^ 63

theorem i64_append {m n : ℤ} (hm : IsI64 m) (hn : IsI64 n) :
    beBytes 8 (m % 2 ^ 64).toNat ++ r = beBytes 8 (n % 2 ^ 64).toNat ++ s ↔ m = n ∧ r = s := by
  constructor
  · intro h
    obtain ⟨hnumber, hrest⟩ := append_inj h (by simp)
    rw [beBytes_inj] at hnumber
    obtain ⟨hmlow, hmhigh⟩ := hm
    obtain ⟨hnlow, hnhigh⟩ := hn
    exact ⟨by omega, hrest⟩
  · rintro ⟨rfl, rfl⟩
    rfl

theorem prefixFree_bytes32 : PrefixFree Bytes32.bytes :=
  prefixFree_of_length Bytes32.length_bytes fun _ _ h => Bytes32.mk.injEq .. ▸ h

theorem lengthPrefixed_append {width : ℕ} {a b : Bytes} (ha : a.length < 256 ^ width)
    (hb : b.length < 256 ^ width) :
    beBytes width a.length ++ (a ++ r) = beBytes width b.length ++ (b ++ s) ↔ a = b ∧ r = s := by
  constructor
  · intro h
    obtain ⟨hlen, hrest⟩ := append_inj h (by simp)
    rw [beBytes_inj, Nat.mod_eq_of_lt ha, Nat.mod_eq_of_lt hb] at hlen
    exact append_inj hrest hlen
  · rintro ⟨rfl, rfl⟩
    rfl

theorem toList_loop (a : ByteArray) (i : ℕ) (r : Bytes) :
    toList.loop a i r = r.reverse ++ a.data.toList.drop i := by
  fun_induction toList.loop a i r with
  | case1 i r hi ih =>
    have hlen : i < a.data.toList.length := by simpa using hi
    rw [ih, drop_eq_getElem_cons hlen]
    simp [get!, hi]
  | case2 i r hi => rw [drop_eq_nil_of_le (by simpa using hi), append_nil]

theorem utf8_inj {a b : String} : a.toUTF8.toList = b.toUTF8.toList ↔ a = b := by
  constructor
  · intro h
    simp only [toList, toList_loop, reverse_nil, nil_append, drop_zero]
      at h
    exact String.toByteArray_inj.mp (ext (Array.toList_inj.mp h))
  · rintro rfl
    rfl

end Catomicals.Base
