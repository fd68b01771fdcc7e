import Mathlib.Data.Finmap

/-!
# Finite tables and atomic batches of edits

A table is a finite map, compared by its contents. What a batch does to a key is decided by its last
edit of the key (`effect`), and a batch undoes another one if it writes back what stood there.
-/
namespace Catomicals.Base

open Option List

structure Table (κ ν : Type) where
  entries : Finmap (fun _ : κ => ν)

inductive Edit (κ ν : Type) where
  | put (k : κ) (v : ν)
  | delete (k : κ)

namespace Edit

variable {κ ν : Type}

def key : Edit κ ν → κ
  | put k _ => k
  | delete k => k

def value : Edit κ ν → Option ν
  | put _ v => some v
  | delete _ => none

@[simp] lemma key_put (k : κ) (v : ν) : (put k v).key = k := rfl
@[simp] lemma key_delete (k : κ) : (delete k : Edit κ ν).key = k := rfl
@[simp] lemma value_put (k : κ) (v : ν) : (put k v).value = some v := rfl
@[simp] lemma value_delete (k : κ) : (delete k : Edit κ ν).value = none := rfl

end Edit

namespace Table

variable {κ ν : Type} [DecidableEq κ]

omit [DecidableEq κ] in
lemma entries_injective {s t : Table κ ν} (h : s.entries = t.entries) : s = t := by
  cases s
  cases t
  exact congrArg mk h

def empty : Table κ ν := ⟨∅⟩

variable (t : Table κ ν)

def get (k : κ) : Option ν := t.entries.lookup k

def put (k : κ) (v : ν) : Table κ ν := ⟨t.entries.insert k v⟩

def delete (k : κ) : Table κ ν := ⟨t.entries.erase k⟩

def card : ℕ := t.entries.keys.card

@[ext] theorem ext {s t : Table κ ν} (h : ∀ k, s.get k = t.get k) : s = t :=
  entries_injective (Finmap.ext_lookup h)

@[simp] lemma get_empty (k : κ) : (empty : Table κ ν).get k = none := Finmap.lookup_empty k

@[simp] lemma get_put (k k' : κ) (v : ν) :
    (t.put k v).get k' = if k' = k then some v else t.get k' := by
  by_cases h : k' = k
  · subst h
    rw [if_pos rfl]
    exact Finmap.lookup_insert t.entries
  · rw [if_neg h]
    exact Finmap.lookup_insert_of_ne t.entries h

@[simp] lemma get_delete (k k' : κ) :
    (t.delete k).get k' = if k' = k then none else t.get k' := by
  by_cases h : k' = k
  · subst h
    rw [if_pos rfl]
    exact Finmap.lookup_erase k' t.entries
  · rw [if_neg h]
    exact Finmap.lookup_erase_ne h

lemma get_delete_eq_some {t : Table κ ν} {k k' : κ} {v : ν} :
    (t.delete k).get k' = some v ↔ k' ≠ k ∧ t.get k' = some v := by
  by_cases h : k' = k <;> simp [h]

omit [DecidableEq κ] in
@[simp] lemma card_empty : (empty : Table κ ν).card = 0 := by
  simp [card, empty]

variable {t : Table κ ν} {k : κ} {es : List (Edit κ ν)}

lemma mem_keys_iff : k ∈ t.entries.keys ↔ (t.get k).isSome := by
  exact Finmap.lookup_isSome.symm

lemma get_eq_none_of_card_eq_zero (h : t.card = 0) (k : κ) : t.get k = none := by
  have hkeys : t.entries.keys = ∅ := Finset.card_eq_zero.mp h
  have hk : k ∉ t.entries.keys := by rw [hkeys]; exact Finset.notMem_empty k
  rw [mem_keys_iff] at hk
  simpa using hk

lemma card_le_one (h : ∀ {k k' v v'}, t.get k = some v → t.get k' = some v' → k = k') :
    t.card ≤ 1 := by
  apply Finset.card_le_one.mpr
  intro k hk _ hk'
  obtain ⟨v, hv⟩ := isSome_iff_exists.mp (mem_keys_iff.mp hk)
  obtain ⟨v', hv'⟩ := isSome_iff_exists.mp (mem_keys_iff.mp hk')
  exact h hv hv'

lemma card_le_card {ν' : Type} {t' : Table κ ν'}
    (h : ∀ k, (t.get k).isSome = true → (t'.get k).isSome = true) : t.card ≤ t'.card :=
  Finset.card_le_card fun k hk => mem_keys_iff.mpr (h k (mem_keys_iff.mp hk))

lemma card_put_of_get_eq_none (v : ν) (h : t.get k = none) : (t.put k v).card = t.card + 1 := by
  have hk : k ∉ t.entries.keys := by simp [mem_keys_iff, h]
  have hkeys : (t.put k v).entries.keys = insert k t.entries.keys := by
    ext k'
    rw [mem_keys_iff, Finset.mem_insert, mem_keys_iff, get_put]
    by_cases hkk : k' = k <;> simp [hkk]
  rw [card, hkeys, Finset.card_insert_of_notMem hk, card]

lemma delete_put (t : Table κ ν) (k : κ) (v : ν) : (t.put k v).delete k = t.delete k := by
  ext k' : 1
  by_cases hk : k' = k <;> simp [hk]

lemma delete_of_get_eq_none (h : t.get k = none) : t.delete k = t := by
  ext k' : 1
  by_cases hk : k' = k <;> simp [hk, h]

lemma put_put (t : Table κ ν) (k : κ) (v w : ν) : (t.put k v).put k w = t.put k w := by
  ext k' : 1
  by_cases hk : k' = k <;> simp [hk]

lemma put_of_get_eq_some {v : ν} (h : t.get k = some v) : t.put k v = t := by
  ext k' : 1
  by_cases hk : k' = k <;> simp [hk, h]

variable (t)

def All (p : κ → ν → Prop) : Prop := ∀ k ∈ t.entries.keys, ∀ v ∈ t.get k, p k v

instance (t : Table κ ν) (p : κ → ν → Prop) [∀ k v, Decidable (p k v)] : Decidable (t.All p) :=
  inferInstanceAs (Decidable (∀ k ∈ t.entries.keys, ∀ v ∈ t.get k, p k v))

def apply : Edit κ ν → Table κ ν
  | .put k v => t.put k v
  | .delete k => t.delete k

variable (es)

def applyAll : Table κ ν := es.foldl apply t

@[simp] lemma applyAll_nil : t.applyAll [] = t := rfl

@[simp] lemma applyAll_cons (e : Edit κ ν) (es : List (Edit κ ν)) :
    t.applyAll (e :: es) = (t.apply e).applyAll es := rfl

@[simp] lemma applyAll_append (fs : List (Edit κ ν)) :
    t.applyAll (es ++ fs) = (t.applyAll es).applyAll fs := foldl_append

@[simp] lemma apply_put (k : κ) (v : ν) : t.apply (.put k v) = t.put k v := rfl

@[simp] lemma apply_delete (k : κ) : t.apply (.delete k) = t.delete k := rfl

lemma get_apply (e : Edit κ ν) (k : κ) :
    (t.apply e).get k = if k = e.key then e.value else t.get k := by
  cases e with
  | put k' v => exact get_put t k' k v
  | delete k' => exact get_delete t k' k

/-- `none` if the edits leave the key alone, else the value of its last edit. -/
def effect : List (Edit κ ν) → κ → Option (Option ν)
  | [], _ => none
  | e :: es, k => (effect es k).or (if k = e.key then some e.value else none)

@[simp] lemma effect_nil (k : κ) : effect ([] : List (Edit κ ν)) k = none := rfl

@[simp] lemma effect_cons (e : Edit κ ν) (es : List (Edit κ ν)) (k : κ) :
    effect (e :: es) k = (effect es k).or (if k = e.key then some e.value else none) := rfl

@[simp] lemma effect_append (fs : List (Edit κ ν)) (k : κ) :
    effect (es ++ fs) k = (effect fs k).or (effect es k) := by
  induction es with
  | nil => simp
  | cons _ _ ih => simp [ih, Option.or_assoc]

theorem get_applyAll (k : κ) : (t.applyAll es).get k = (effect es k).getD (t.get k) := by
  induction es generalizing t with
  | nil => simp
  | cons e es ih =>
    rw [applyAll_cons, ih, get_apply, effect_cons]
    cases effect es k with
    | none => by_cases hk : k = e.key <;> simp [hk]
    | some => simp

variable {es t}

lemma put_mem_or_get_of_applyAll {v : ν} (h : (t.applyAll es).get k = some v) :
    .put k v ∈ es ∨ t.get k = some v := by
  induction es generalizing t with
  | nil => exact .inr h
  | cons e _ ih =>
    rcases ih (t := t.apply e) h with hmem | hget
    · exact .inl (mem_cons_of_mem _ hmem)
    · rw [get_apply] at hget
      split_ifs at hget with hk
      · cases e with
        | put =>
          simp only [Edit.key_put, Edit.value_put, some.injEq] at hk hget
          rw [hk, hget]
          exact .inl mem_cons_self
        | delete => simp at hget
      · exact .inr hget

lemma effect_eq_none_iff : effect es k = none ↔ ∀ e ∈ es, e.key ≠ k := by
  induction es with
  | nil => simp
  | cons e _ ih =>
    have hflip : k = e.key ↔ e.key = k := eq_comm
    simp [ih, and_comm, hflip]

@[simp] lemma effect_map_delete (ks : List κ) (k : κ) :
    effect (ks.map (Edit.delete : κ → Edit κ ν)) k = if k ∈ ks then some none else none := by
  induction ks with
  | nil => simp
  | cons a ks ih =>
    rw [map_cons, effect_cons, ih]
    by_cases hk : k ∈ ks
    · simp [hk]
    · by_cases ha : k = a
      · subst ha
        simp [hk]
      · simp [hk, ha]

lemma effect_map_put {ρ : Type} {rs : List ρ} {key : ρ → κ} {val : ρ → ν} {v : Option ν}
    (h : effect (rs.map fun r => Edit.put (key r) (val r)) k = some v) :
    ∃ r ∈ rs, key r = k ∧ v = some (val r) := by
  induction rs with
  | nil => simp at h
  | cons a _ ih =>
    rcases or_eq_some_iff.mp h with hr | ⟨-, ha⟩
    · obtain ⟨r, hmem, hkey, hval⟩ := ih hr
      exact ⟨r, mem_cons_of_mem _ hmem, hkey, hval⟩
    · by_cases hk : k = key a
      · simp only [Edit.key_put, hk, if_true, Edit.value_put, some.injEq] at ha
        exact ⟨a, mem_cons_self, hk.symm, ha.symm⟩
      · simp [hk] at ha

lemma isSome_get_applyAll_put {ρ : Type} (t : Table κ ν) (rs : List ρ) (key : ρ → κ)
    (val : ρ → ν) (k : κ) :
    ((t.applyAll (rs.map fun r => .put (key r) (val r))).get k).isSome ↔
      k ∈ rs.map key ∨ (t.get k).isSome := by
  induction rs generalizing t with
  | nil => simp
  | cons a _ ih =>
    rw [map_cons, applyAll_cons, apply_put, ih, get_put, map_cons, mem_cons]
    by_cases hk : k = key a <;> simp [hk]

/-- A batch that writes back what stood at the keys of another one undoes it. -/
theorem applyAll_undo {us : List (Edit κ ν)}
    (hcover : ∀ k, effect us k = none → (t.applyAll es).get k = t.get k)
    (hval : ∀ k v, effect us k = some v → v = t.get k) :
    (t.applyAll es).applyAll us = t := by
  ext k : 1
  rw [get_applyAll]
  cases hu : effect us k with
  | none => exact hcover k hu
  | some v => exact hval k v hu

/-- Deleting keys that were absent undoes a batch that only writes those. -/
theorem applyAll_delete_fresh {ks : List κ} (hkeys : ∀ e ∈ es, e.key ∈ ks)
    (hfresh : ∀ k ∈ ks, t.get k = none) :
    (t.applyAll es).applyAll (ks.map .delete) = t := by
  refine applyAll_undo (fun k hk => ?_) (fun k v hv => ?_)
  · have hks : k ∉ ks := by simpa using hk
    have hes : effect es k = none := effect_eq_none_iff.mpr fun e he hek => hks (hek ▸ hkeys e he)
    rw [get_applyAll, hes, getD_none]
  · rw [effect_map_delete] at hv
    split_ifs at hv with hks
    rw [hfresh k hks, ← some.inj hv]

end Table

end Catomicals.Base
