import Mathlib.Data.List.Nodup
import Mathlib.Data.List.Perm.Subperm
import Mathlib.Data.List.Sort

/-!
# Tables of rows with a primary key

A table is a list of rows, in the order of insertion, whose keys are pairwise distinct, with the
operations of a relational store.
-/
namespace Catomicals.Base

open List

variable {κ ρ : Type}

structure Rows (key : ρ → κ) where
  rows : List ρ
  nodup : (rows.map key).Nodup

namespace Rows

variable {key : ρ → κ}

instance [DecidableEq ρ] : DecidableEq (Rows key) := fun s t =>
  decidable_of_iff (s.rows = t.rows) ⟨fun h => by cases s; cases t; cases h; rfl, fun h => h ▸ rfl⟩

def empty : Rows key := ⟨[], nodup_nil⟩

/-- `SELECT … WHERE key = k`. -/
def get [DecidableEq κ] (t : Rows key) (k : κ) : Option ρ := t.rows.find? (key · = k)

variable (t : Rows key) (p : ρ → Bool)

/-- `SELECT EXISTS(… WHERE p)`. -/
def any : Bool := t.rows.any p

/-- The first row with a property; the order matters only if there are several. -/
def find? : Option ρ := t.rows.find? p

/-- `SELECT COUNT(*) … WHERE p`. -/
def count : ℕ := t.rows.countP p

/-- `UPDATE … SET f WHERE p`, for a change that keeps the key. -/
def update (f : ρ → ρ) (hf : ∀ r, key (f r) = key r) : Rows key where
  rows := t.rows.map fun r => if p r then f r else r
  nodup := by
    have hkeys : (t.rows.map fun r => if p r then f r else r).map key = t.rows.map key := by
      rw [map_map]
      refine map_congr_left fun r _ => ?_
      simp only [Function.comp_apply]
      split_ifs
      · exact hf r
      · rfl
    rw [hkeys]
    exact t.nodup

/-- `DELETE … WHERE p`. -/
def deleteWhere : Rows key where
  rows := t.rows.filter fun r => !p r
  nodup := t.nodup.sublist (filter_sublist.map key)

def orderBy (le : ρ → ρ → Bool) : Rows key where
  rows := t.rows.insertionSort fun r r' => le r r' = true
  nodup := ((perm_insertionSort _ t.rows).map key).nodup_iff.mpr t.nodup

/-- `UPDATE … SET f WHERE key = k AND p`, refused if that changes no row. -/
def updateAt [DecidableEq κ] (t : Rows key) (k : κ) (p : ρ → Bool) (f : ρ → ρ)
    (hf : ∀ r, key (f r) = key r) : Option (Rows key) :=
  if (t.get k).any p then some (t.update (fun r => key r = k ∧ p r) f hf) else none

section Lookup

variable [DecidableEq κ] {t : Rows key} {k : κ} {r : ρ}

lemma get_eq_some_iff : t.get k = some r ↔ r ∈ t.rows ∧ key r = k := by
  constructor
  · intro h
    exact ⟨mem_of_find?_eq_some h, by simpa using find?_some h⟩
  · rintro ⟨hmem, rfl⟩
    obtain ⟨r', hr'⟩ : ∃ r', t.get (key r) = some r' := by
      rw [get, ← Option.isSome_iff_exists, find?_isSome]
      exact ⟨r, hmem, by simp⟩
    have hmem' := mem_of_find?_eq_some hr'
    have hkey' : key r' = key r := by simpa using find?_some hr'
    rw [hr', inj_on_of_nodup_map t.nodup hmem' hmem hkey']

lemma get_eq_none_iff : t.get k = none ↔ ∀ r ∈ t.rows, key r ≠ k := by
  simp [get]

lemma mem_of_get (h : t.get k = some r) : r ∈ t.rows := (get_eq_some_iff.mp h).1

lemma key_of_get (h : t.get k = some r) : key r = k := (get_eq_some_iff.mp h).2

lemma get_of_mem (h : r ∈ t.rows) : t.get (key r) = some r := get_eq_some_iff.mpr ⟨h, rfl⟩

@[simp] lemma get_empty : (empty : Rows key).get k = none := rfl

@[simp] lemma get_orderBy (le : ρ → ρ → Bool) : (t.orderBy le).get k = t.get k := by
  ext r
  rw [get_eq_some_iff, get_eq_some_iff]
  simp [orderBy]

@[simp] lemma get_update (p : ρ → Bool) (f : ρ → ρ) (hf : ∀ r, key (f r) = key r) :
    (t.update p f hf).get k = (t.get k).map fun r => if p r then f r else r := by
  have hkey : ∀ r, key (if p r then f r else r) = key r := fun r => by
    split_ifs
    · exact hf r
    · rfl
  have hcomp : (fun r => decide (key r = k)) ∘ (fun r => if p r then f r else r) =
      fun r => decide (key r = k) := by
    funext r
    simp [hkey]
  simp only [get, update, find?_map, hcomp]

@[simp] lemma get_deleteWhere (p : ρ → Bool) :
    (t.deleteWhere p).get k = (t.get k).filter fun r => !p r := by
  ext r
  simp only [Option.filter_eq_some_iff, get_eq_some_iff, deleteWhere, mem_filter]
  tauto

end Lookup

variable {p : ρ → Bool} {t : Rows key}

@[simp] lemma any_eq_true : t.any p = true ↔ ∃ r ∈ t.rows, p r = true := by
  simp [any]

lemma find?_eq_some {r : ρ} (h : t.find? p = some r) :
    r ∈ t.rows ∧ p r = true := ⟨mem_of_find?_eq_some h, find?_some h⟩

lemma two_le_count {r₁ r₂ : ρ} (h₁ : r₁ ∈ t.rows) (h₂ : r₂ ∈ t.rows) (hne : r₁ ≠ r₂)
    (hp₁ : p r₁ = true) (hp₂ : p r₂ = true) : 2 ≤ t.count p := by
  have hsub : [r₁, r₂] ⊆ t.rows.filter p := by
    simp [mem_filter, h₁, h₂, hp₁, hp₂]
  have hlen := (subperm_of_subset (by simp [hne]) hsub).length_le
  rwa [count, countP_eq_length_filter]

@[simp] lemma rows_deleteWhere : (t.deleteWhere p).rows = t.rows.filter fun r => !p r := rfl

section Insert

variable [DecidableEq κ]

/-- `INSERT` under a key that is not in use. -/
def insert (t : Rows key) (r : ρ) (h : t.get (key r) = none) : Rows key where
  rows := t.rows ++ [r]
  nodup := by
    rw [map_append, map_singleton, nodup_append_comm]
    refine nodup_cons.mpr ⟨fun hmem => ?_, t.nodup⟩
    obtain ⟨r', hr', hkey⟩ := mem_map.mp hmem
    exact get_eq_none_iff.mp h r' hr' hkey

/-- `INSERT`, refused if the key is in use. -/
def insert? (t : Rows key) (r : ρ) : Option (Rows key) :=
  if h : t.get (key r) = none then some (t.insert r h) else none

/-- Write a row under its key, in the place of the one that stands there. -/
def put (t : Rows key) (r : ρ) : Rows key :=
  if h : t.get (key r) = none then t.insert r h
  else t.update (fun _ => true) (fun r' => if key r' = key r then r else r') fun r' => by
    split_ifs with hkey
    · exact hkey.symm
    · rfl

variable {t t' : Rows key} {r : ρ}

lemma insert?_eq_some : t.insert? r = some t' ↔ t.get (key r) = none ∧ t'.rows = t.rows ++ [r] := by
  unfold insert?
  split_ifs with h
  · simp only [Option.some.injEq, h, true_and]
    constructor
    · rintro rfl
      rfl
    · intro hrows
      cases t'
      subst hrows
      rfl
  · simp [h]

lemma get_of_rows_append (h : t.get (key r) = none) (hrows : t'.rows = t.rows ++ [r]) (k : κ) :
    t'.get k = if k = key r then some r else t.get k := by
  rw [get, hrows, find?_append, ← get]
  split_ifs with hk
  · subst hk
    simp [h]
  · have hne : key r ≠ k := fun heq => hk heq.symm
    cases t.get k <;> simp [hne]

@[simp] lemma get_put (k : κ) : (t.put r).get k = if k = key r then some r else t.get k := by
  by_cases hfree : t.get (key r) = none
  · rw [put, dif_pos hfree]
    exact get_of_rows_append hfree rfl k
  rw [put, dif_neg hfree, get_update]
  by_cases hk : k = key r
  · obtain ⟨r', hr'⟩ := Option.ne_none_iff_exists'.mp hfree
    subst hk
    simp [hr', key_of_get hr']
  · cases hget : t.get k with
    | none => simp [hk]
    | some => simp [key_of_get hget, hk]

end Insert

def Ordered (le : ρ → ρ → Bool) (t : Rows key) : Prop :=
  t.rows.Pairwise fun r r' => le r r' = true

section Order

variable {le : ρ → ρ → Bool} {s t : Rows key}

lemma ordered_orderBy (htotal : ∀ r r', le r r' = true ∨ le r' r = true)
    (htrans : ∀ r r' r'', le r r' = true → le r' r'' = true → le r r'' = true) :
    (t.orderBy le).Ordered le := by
  have : Std.Total fun r r' => le r r' = true := ⟨htotal⟩
  have : IsTrans ρ fun r r' => le r r' = true := ⟨htrans⟩
  exact pairwise_insertionSort _ t.rows

lemma Ordered.update {f : ρ → ρ} {hf : ∀ r, key (f r) = key r}
    (h : t.Ordered le) (hle : ∀ r ∈ t.rows, ∀ r' ∈ t.rows,
      le (if p r then f r else r) (if p r' then f r' else r') = le r r') :
    (t.update p f hf).Ordered le := by
  refine pairwise_map.mpr (h.imp_of_mem ?_)
  intro r r' hr hr' hrr
  rw [hle r hr r' hr']
  exact hrr

lemma Ordered.put [DecidableEq κ] {r old : ρ} (h : t.Ordered le) (hold : t.get (key r) = some old)
    (hle : ∀ r', le r r' = le old r' ∧ le r' r = le r' old) : (t.put r).Ordered le := by
  have hplace : ∀ r₁ ∈ t.rows, ∀ r₂, le (if key r₁ = key r then r else r₁) r₂ = le r₁ r₂ ∧
      le r₂ (if key r₁ = key r then r else r₁) = le r₂ r₁ := by
    intro r₁ hr₁ r₂
    split_ifs with hkey
    · have hsame : r₁ = old := Option.some.inj ((get_of_mem hr₁).symm.trans (hkey ▸ hold))
      rw [hsame]
      exact hle r₂
    · exact ⟨rfl, rfl⟩
  rw [Rows.put, dif_neg (by simp [hold])]
  refine Ordered.update h fun r₁ h₁ r₂ h₂ => ?_
  rw [if_pos rfl, if_pos rfl, (hplace r₁ h₁ _).1, (hplace r₂ h₂ _).2]

end Order

section Changes

variable [DecidableEq κ]

/-- The table gained one row under a new key. -/
def Inserted (t : Rows key) (r : ρ) (t' : Rows key) : Prop :=
  t.get (key r) = none ∧ ∀ k, t'.get k = if k = key r then some r else t.get k

/-- One row of the table was replaced by another under the same key. -/
def Changed (t : Rows key) (r r' : ρ) (t' : Rows key) : Prop :=
  t.get (key r) = some r ∧ key r' = key r ∧
    ∀ k, t'.get k = if k = key r then some r' else t.get k

/-- Every row is kept up to `R`, and a row under a new key meets `N`. -/
structure Evolves (R : ρ → ρ → Prop) (N : ρ → Prop) (t t' : Rows key) : Prop where
  keeps : ∀ k r, t.get k = some r → ∃ r', t'.get k = some r' ∧ R r r'
  origin : ∀ k r', t'.get k = some r' →
    (∃ r, t.get k = some r ∧ R r r') ∨ t.get k = none ∧ N r'

variable {t t' : Rows key} {r r' : ρ} {R : ρ → ρ → Prop} {N : ρ → Prop}

lemma inserted_of_insert? (h : t.insert? r = some t') : Inserted t r t' := by
  obtain ⟨hnone, hrows⟩ := insert?_eq_some.mp h
  exact ⟨hnone, get_of_rows_append hnone hrows⟩

variable {p : ρ → Bool} {f : ρ → ρ}

lemma changed_of_updateAt {P : ρ → Prop} [DecidablePred P] {k : κ} {hf : ∀ r, key (f r) = key r}
    (h : t.updateAt k (fun r => P r) f hf = some t') :
    ∃ r, t.get k = some r ∧ P r ∧ Changed t r (f r) t' := by
  unfold updateAt at h
  split_ifs at h with hany
  obtain ⟨r, hr, hp⟩ := (Option.any_eq_true _ _).mp hany
  rw [decide_eq_true_eq] at hp
  have hkey := key_of_get hr
  cases h
  refine ⟨r, hr, hp, hkey ▸ hr, hf r, fun k' => ?_⟩
  rw [get_update, hkey]
  split_ifs with hk
  · subst hk
    simp [hr, hkey, hp]
  · cases hget : t.get k' with
    | none => rfl
    | some => simp [key_of_get hget, hk]

lemma exists_insert? (h : t.get (key r) = none) : ∃ t', t.insert? r = some t' :=
  ⟨t.insert r h, dif_pos h⟩

lemma exists_updateAt {k : κ} (hf : ∀ r, key (f r) = key r) (h : t.get k = some r)
    (hp : p r = true) : ∃ t', t.updateAt k p f hf = some t' :=
  ⟨_, if_pos (by rw [h]; exact hp)⟩

lemma evolves_refl (hR : ∀ r, R r r) : Evolves R N t t where
  keeps := fun _ r h => ⟨r, h, hR r⟩
  origin := fun _ r' h => .inl ⟨r', h, hR r'⟩

lemma Evolves.mono {R' : ρ → ρ → Prop} {N' : ρ → Prop} (h : Evolves R N t t')
    (hR : ∀ r r', R r r' → R' r r') (hN : ∀ r, N r → N' r) : Evolves R' N' t t' where
  keeps := by
    intro k r hr
    obtain ⟨r', hr', hrel⟩ := h.keeps k r hr
    exact ⟨r', hr', hR r r' hrel⟩
  origin := by
    intro k r' hr'
    rcases h.origin k r' hr' with ⟨r, hr, hrel⟩ | ⟨hnone, hnew⟩
    · exact .inl ⟨r, hr, hR r r' hrel⟩
    · exact .inr ⟨hnone, hN r' hnew⟩

lemma Inserted.evolves (h : Inserted t r t') (hR : ∀ r, R r r) (hN : N r) : Evolves R N t t' where
  keeps := by
    intro k r₁ h₁
    have hk : k ≠ key r := fun hk => by simp [hk, h.1] at h₁
    exact ⟨r₁, by rw [h.2, if_neg hk, h₁], hR r₁⟩
  origin := by
    intro k r₁ h₁
    rw [h.2] at h₁
    split_ifs at h₁ with hk
    · cases h₁
      exact .inr ⟨hk ▸ h.1, hN⟩
    · exact .inl ⟨r₁, h₁, hR r₁⟩

lemma Changed.evolves (h : Changed t r r' t') (hR : ∀ r, R r r) (hr : R r r') :
    Evolves R N t t' where
  keeps := by
    intro k r₁ h₁
    by_cases hk : k = key r
    · subst hk
      cases h.1.symm.trans h₁
      exact ⟨r', by rw [h.2.2, if_pos rfl], hr⟩
    · exact ⟨r₁, by rw [h.2.2, if_neg hk, h₁], hR r₁⟩
  origin := by
    intro k r₁ h₁
    rw [h.2.2] at h₁
    split_ifs at h₁ with hk
    · cases h₁
      exact .inl ⟨r, hk ▸ h.1, hr⟩
    · exact .inl ⟨r₁, h₁, hR r₁⟩

lemma update_evolves (hf : ∀ r, key (f r) = key r) (hR : ∀ r, R r r) (h : ∀ r, R r (f r)) :
    Evolves R N t (t.update p f hf) := by
  have hstep : ∀ r, R r (if p r then f r else r) := fun r => by
    split_ifs
    · exact h r
    · exact hR r
  constructor
  · intro k r hr
    exact ⟨_, by rw [get_update, hr]; rfl, hstep r⟩
  · intro k _ hr'
    rw [get_update, Option.map_eq_some_iff] at hr'
    obtain ⟨r, hr, rfl⟩ := hr'
    exact .inl ⟨r, hr, hstep r⟩

/-- A unique index: no two rows agree on `attr`. -/
def Unique {β : Type} (attr : ρ → β) (t : Rows key) : Prop :=
  ∀ k r k' r', t.get k = some r → t.get k' = some r' → attr r = attr r' → k = k'

@[simp] lemma unique_empty {β : Type} {attr : ρ → β} : Unique attr (empty : Rows key) := by
  intro k r _ _ hr
  simp at hr

/-- A unique index is kept by insertions that respect it and by changes outside its column. -/
theorem Unique.step {β : Type} {attr : ρ → β} (h : Unique attr t)
    (hstep : (∃ n, Inserted t n t' ∧ ∀ k r, t.get k = some r → attr r ≠ attr n) ∨
      Evolves (fun r r' => attr r' = attr r) (fun _ => False) t t') : Unique attr t' := by
  intro k r k' r' hr hr' heq
  rcases hstep with ⟨n, hins, honly⟩ | hevolves
  · rw [hins.2] at hr hr'
    split_ifs at hr hr' with h₁ h₂ h₂
    · rw [h₁, h₂]
    · cases hr
      exact absurd heq.symm (honly k' r' hr')
    · cases hr'
      exact absurd heq (honly k r hr)
    · exact h k r k' r' hr hr' heq
  · rcases hevolves.origin k r hr with ⟨r₀, hr₀, hsame⟩ | ⟨-, hfalse⟩
    · rcases hevolves.origin k' r' hr' with ⟨r₀', hr₀', hsame'⟩ | ⟨-, hfalse⟩
      · exact h k r₀ k' r₀' hr₀ hr₀' (hsame.symm.trans (heq.trans hsame'))
      · exact hfalse.elim
    · exact hfalse.elim

end Changes

end Rows

end Catomicals.Base
