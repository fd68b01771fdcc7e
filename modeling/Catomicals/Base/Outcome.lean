import Mathlib.Data.List.Basic
import Mathlib.Data.UInt

/-!
# Calls that return, fail or panic

An error is a value the caller inspects, a panic unwinds through every caller. Slice accesses and
arithmetic under overflow checks can panic. The inversion rules take sequences of steps apart.
-/
namespace Catomicals.Base

open List

/-- Panics of slice accesses, checked arithmetic, allocations and assertions. -/
inductive Panic where
  | indexOutOfBounds | arithmeticOverflow | capacityOverflow | assertionFailed
  deriving DecidableEq

/-- The ways a call can end without returning a success value. -/
inductive Fault (ε : Type) where
  | error (e : ε)
  | panic (p : Panic)
  deriving DecidableEq

abbrev Outcome (ε α : Type) := Except (Fault ε) α

section Inversion

variable {ε α β : Type} {x : Except ε α} {f : α → Except ε β} {b : β} {as : List α} {bs : List β}

@[simp] lemma bind_eq_ok : (x >>= f) = .ok b ↔ ∃ a, x = .ok a ∧ f a = .ok b := by
  cases x <;> simp [bind, Except.bind]

@[simp] lemma bind_eq_error {e : ε} :
    (x >>= f) = .error e ↔ x = .error e ∨ ∃ a, x = .ok a ∧ f a = .error e := by
  cases x <;> simp [bind, Except.bind]

@[simp] lemma pure_eq_ok {a b : α} : (pure a : Except ε α) = .ok b ↔ a = b := by
  simp [pure, Except.pure]

@[simp] lemma pure_ne_error {a : α} {e : ε} : (pure a : Except ε α) ≠ .error e := by
  simp [pure, Except.pure]

theorem ok_bind (a : α) (f : α → Except ε β) : ((.ok a : Except ε α) >>= f) = f a := rfl

theorem error_bind (e : ε) (f : α → Except ε β) : ((.error e : Except ε α) >>= f) = .error e := rfl

theorem exists_ok_of_toOption {f : α → β} (h : x.toOption.map f = some b) :
    ∃ a, x = .ok a ∧ f a = b := by
  cases x with
  | error => simp [Except.toOption] at h
  | ok a => exact ⟨a, rfl, by simpa [Except.toOption] using h⟩

@[simp] lemma exists_unit {p : Unit → Prop} : (∃ u, p u) ↔ p () :=
  ⟨fun ⟨_, h⟩ => h, fun h => ⟨(), h⟩⟩

theorem mapM_eq_ok : as.mapM f = .ok bs ↔ List.Forall₂ (fun a b => f a = .ok b) as bs := by
  induction as generalizing bs with
  | nil => rw [mapM_nil, pure_eq_ok, forall₂_nil_left_iff, eq_comm]
  | cons _ _ ih =>
    rw [mapM_cons]
    simp only [bind_eq_ok, pure_eq_ok]
    constructor
    · rintro ⟨b, hb, bs', hbs, hcons⟩
      subst hcons
      exact .cons hb (ih.mp hbs)
    · intro h
      cases h with
      | cons hb hbs => exact ⟨_, hb, _, ih.mpr hbs, rfl⟩

theorem mem_of_mapM (h : as.mapM f = .ok bs) : b ∈ bs ↔ ∃ a ∈ as, f a = .ok b := by
  induction mapM_eq_ok.mp h with
  | nil => simp
  | cons hb hbs ih => simp [hb, ih (mapM_eq_ok.mpr hbs), eq_comm]

theorem exists_mapM_iff : (∃ bs, as.mapM f = .ok bs) ↔ ∀ a ∈ as, ∃ b, f a = .ok b := by
  simp only [mapM_eq_ok]
  induction as with
  | nil => simp
  | cons _ _ ih => simp only [forall₂_cons_left_iff, forall_mem_cons, ← ih]; tauto

end Inversion

section Require

variable {ε α : Type}

/-- A check of a call that never panics. -/
def require (c : Prop) [Decidable c] (e : ε) : Except ε Unit := if c then .ok () else .error e

variable {c : Prop} {e : ε}

@[simp] lemma require_eq_ok [Decidable c] {u : Unit} : require c e = .ok u ↔ c := by
  simp [require]

theorem require_pos [Decidable c] (h : c) : require c e = .ok () := if_pos h

theorem require_neg [Decidable c] (h : ¬c) : require c e = .error e := if_neg h

/-- An optional value that a call cannot do without. -/
def orError (x : Option α) (e : ε) : Except ε α :=
  match x with
  | some a => .ok a
  | none => .error e

@[simp] lemma orError_eq_ok {x : Option α} {a : α} : orError x e = .ok a ↔ x = some a := by
  cases x <;> simp [orError]

end Require

namespace Outcome

variable {ε α : Type}

/-- A check that returns the error `e` when it fails. -/
def ensure (c : Prop) [Decidable c] (e : ε) : Outcome ε Unit :=
  if c then .ok () else .error (.error e)

variable {e : ε} {f : Fault ε}

@[simp] lemma ensure_eq_ok {c : Prop} [Decidable c] {u : Unit} : ensure c e = .ok u ↔ c := by
  simp [ensure]

@[simp] lemma ensure_eq_error {c : Prop} [Decidable c] :
    ensure c e = .error f ↔ ¬c ∧ f = .error e := by
  by_cases hc : c <;> simp [ensure, hc, eq_comm]

/-- An optional value whose absence is the error `e`. -/
def okOr (x : Option α) (e : ε) : Outcome ε α :=
  match x with
  | some a => .ok a
  | none => .error (.error e)

@[simp] lemma okOr_eq_ok {x : Option α} {a : α} : okOr x e = .ok a ↔ x = some a := by
  cases x <;> simp [okOr]

@[simp] lemma okOr_eq_error {x : Option α} : okOr x e = .error f ↔ x = none ∧ f = .error e := by
  cases x <;> simp [okOr, eq_comm]

/-- A computation that can only panic, used inside one that can also fail. -/
def ofPanic (x : Except Panic α) : Outcome ε α :=
  match x with
  | .ok a => .ok a
  | .error p => .error (.panic p)

@[simp] lemma ofPanic_eq_ok {x : Except Panic α} {a : α} :
    (ofPanic x : Outcome ε α) = .ok a ↔ x = .ok a := by
  cases x <;> simp [ofPanic]

@[simp] lemma ofPanic_eq_error {x : Except Panic α} :
    (ofPanic x : Outcome ε α) = .error f ↔ ∃ p, x = .error p ∧ f = .panic p := by
  cases x <;> simp [ofPanic, eq_comm]

def Panics (x : Outcome ε α) : Prop := ∃ p, x = .error (.panic p)

section Panics

variable {β : Type}

@[simp] lemma not_panics_ok (a : α) : ¬Panics (.ok a : Outcome ε α) := by simp [Panics]

@[simp] lemma not_panics_pure (a : α) : ¬Panics (pure a : Outcome ε α) := not_panics_ok a

@[simp] lemma not_panics_error (e : ε) : ¬Panics (.error (.error e) : Outcome ε α) := by
  simp [Panics]

@[simp] lemma panics_panic (p : Panic) : Panics (.error (.panic p) : Outcome ε α) := ⟨p, rfl⟩

@[simp] lemma not_panics_ensure (c : Prop) [Decidable c] (e : ε) : ¬Panics (ensure c e) := by
  simp [Panics]

@[simp] lemma not_panics_okOr (x : Option α) (e : ε) : ¬Panics (okOr x e) := by
  simp [Panics]

@[simp] lemma panics_ofPanic (x : Except Panic α) :
    Panics (ofPanic x : Outcome ε α) ↔ ∃ p, x = .error p := by
  simp [Panics]

theorem panics_bind {x : Outcome ε α} {f : α → Outcome ε β} :
    Panics (x >>= f) ↔ Panics x ∨ ∃ a, x = .ok a ∧ Panics (f a) := by
  simp only [Panics, bind_eq_error]
  constructor
  · rintro ⟨p, hp | ⟨a, ha, hp⟩⟩
    · exact .inl ⟨p, hp⟩
    · exact .inr ⟨a, ha, p, hp⟩
  · rintro (⟨p, hp⟩ | ⟨a, ha, p, hp⟩)
    · exact ⟨p, .inl hp⟩
    · exact ⟨p, .inr ⟨a, ha, hp⟩⟩

end Panics

end Outcome

/-- `x.expect(..)`. -/
def expect {ε α : Type} (x : Except ε α) : Except Panic α :=
  match x with
  | .ok a => .ok a
  | .error _ => .error .assertionFailed

section Slices

variable {α : Type} (xs : List α)

/-- `xs[i]`. -/
def index (i : ℕ) : Except Panic α :=
  match xs[i]? with
  | some a => .ok a
  | none => .error .indexOutOfBounds

/-- `xs[..n]`. -/
def sliceTo (n : ℕ) : Except Panic (List α) :=
  if n ≤ xs.length then .ok (xs.take n) else .error .indexOutOfBounds

/-- `xs[n..]`. -/
def sliceFrom (n : ℕ) : Except Panic (List α) :=
  if n ≤ xs.length then .ok (xs.drop n) else .error .indexOutOfBounds

/-- `xs[a..b]`. -/
def slice (a b : ℕ) : Except Panic (List α) :=
  if a ≤ b ∧ b ≤ xs.length then .ok ((xs.take b).drop a) else .error .indexOutOfBounds

variable {xs : List α} {i : ℕ}

@[simp] lemma index_eq_ok {a : α} : index xs i = .ok a ↔ xs[i]? = some a := by
  unfold index
  cases xs[i]? <;> simp

@[simp] lemma index_eq_error {p : Panic} :
    index xs i = .error p ↔ xs.length ≤ i ∧ p = .indexOutOfBounds := by
  unfold index
  cases h : xs[i]? with
  | none => simp [getElem?_eq_none_iff.mp h, eq_comm]
  | some =>
    have hlt : i < xs.length := (List.getElem?_eq_some_iff.mp h).1
    simp; omega

@[simp] lemma exists_index_eq_error : (∃ p, index xs i = .error p) ↔ xs.length ≤ i := by
  simp

lemma index_of_lt (h : i < xs.length) : index xs i = .ok xs[i] := by
  simp [h]

lemma sliceTo_of_le {n : ℕ} (h : n ≤ xs.length) : sliceTo xs n = .ok (xs.take n) := if_pos h

lemma sliceFrom_of_le {n : ℕ} (h : n ≤ xs.length) : sliceFrom xs n = .ok (xs.drop n) := if_pos h

lemma slice_of_le {a b : ℕ} (hab : a ≤ b) (hb : b ≤ xs.length) :
    slice xs a b = .ok ((xs.take b).drop a) := if_pos ⟨hab, hb⟩

lemma slice_append (front middle rest : List α) :
    slice (front ++ middle ++ rest) front.length (front.length + middle.length) = .ok middle := by
  rw [slice_of_le (by omega) (by simp), take_left' (by simp), drop_left]

end Slices

/-- What it takes for fallible steps to return: the inversion rules as one. -/
theorem ok_iff :
    (∀ {ε α β : Type} {x : Except ε α} {f : α → Except ε β} {b : β},
      (x >>= f) = .ok b ↔ ∃ a, x = .ok a ∧ f a = .ok b) ∧
    (∀ {ε α : Type} {a b : α}, (pure a : Except ε α) = .ok b ↔ a = b) ∧
    (∀ {p : Unit → Prop}, (∃ u, p u) ↔ p ()) ∧
    (∀ {ε : Type} {e : ε} {c : Prop} [Decidable c] {u : Unit}, require c e = .ok u ↔ c) ∧
    (∀ {ε α : Type} {e : ε} {x : Option α} {a : α}, orError x e = .ok a ↔ x = some a) ∧
    (∀ {ε : Type} {e : ε} {c : Prop} [Decidable c] {u : Unit}, Outcome.ensure c e = .ok u ↔ c) ∧
    (∀ {ε α : Type} {e : ε} {x : Option α} {a : α}, Outcome.okOr x e = .ok a ↔ x = some a) ∧
    (∀ {ε α : Type} {x : Except Panic α} {a : α},
      (Outcome.ofPanic x : Outcome ε α) = .ok a ↔ x = .ok a) ∧
    ∀ {α : Type} {xs : List α} {i : ℕ} {a : α}, index xs i = .ok a ↔ xs[i]? = some a :=
  ⟨bind_eq_ok, pure_eq_ok, exists_unit, require_eq_ok, orError_eq_ok, Outcome.ensure_eq_ok,
    Outcome.okOr_eq_ok, Outcome.ofPanic_eq_ok, index_eq_ok⟩

/-- `a + b` on `u32`: a panic on overflow if the build checks for it, else a wrap. -/
def addU32 (overflowChecks : Bool) (a b : UInt32) : Except Panic UInt32 :=
  if overflowChecks ∧ 2 ^ 32 ≤ a.toNat + b.toNat then .error .arithmeticOverflow else .ok (a + b)

/-- `a + b` on `u64`. -/
def addU64 (overflowChecks : Bool) (a b : UInt64) : Except Panic UInt64 :=
  if overflowChecks ∧ 2 ^ 64 ≤ a.toNat + b.toNat then .error .arithmeticOverflow else .ok (a + b)

/-- `u32::saturating_add(1)`. -/
def saturatingSucc (a : UInt32) : UInt32 :=
  if a.toNat + 1 < 2 ^ 32 then a + 1 else a

lemma addU32_of_lt {checks : Bool} {a b : UInt32} (h : a.toNat + b.toNat < 2 ^ 32) :
    addU32 checks a b = .ok (a + b) := if_neg (fun hc => by omega)

lemma toNat_add_of_lt {a b : UInt32} (h : a.toNat + b.toNat < 2 ^ 32) :
    (a + b).toNat = a.toNat + b.toNat := by
  rw [UInt32.toNat_add, Nat.mod_eq_of_lt h]

lemma toNat_saturatingSucc (a : UInt32) :
    (saturatingSucc a).toNat = min (a.toNat + 1) (2 ^ 32 - 1) := by
  have ha := a.toNat_lt
  unfold saturatingSucc
  split_ifs with h
  · rw [toNat_add_of_lt (by simpa using h), UInt32.toNat_one]; omega
  · omega

end Catomicals.Base
