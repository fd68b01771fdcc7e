import Catomicals.Base.Table
import Mathlib.Data.List.Nodup

/-!
# Ledgers of single-use outputs

A history of transfers, each of which consumes entries that are present and creates entries under
new keys. The table holds what was created and not consumed, and no key is consumed twice or too
early.
-/
namespace Catomicals.Base

/-- Consume the entries at `spends`, then create the entries of `creates`. -/
structure Transfer (κ ν : Type) where
  spends : List κ
  creates : List (κ × ν)

namespace Transfer

variable {κ ν : Type} (x : Transfer κ ν)

def edits : List (Edit κ ν) :=
  x.spends.map .delete ++ x.creates.map fun p => .put p.1 p.2

def createdKeys : List κ := x.creates.map Prod.fst

/-- A transfer may run on a table when it consumes distinct present entries. -/
structure Admissible [DecidableEq κ] (t : Table κ ν) (x : Transfer κ ν) : Prop where
  nodup : x.spends.Nodup
  present : ∀ k ∈ x.spends, (t.get k).isSome

/-- A sequence of transfers may run on a table. -/
def AdmissibleAll [DecidableEq κ] : Table κ ν → List (Transfer κ ν) → Prop
  | _, [] => True
  | t, x :: xs => x.Admissible t ∧ AdmissibleAll (t.applyAll x.edits) xs

def created (xs : List (Transfer κ ν)) : List (κ × ν) := xs.flatMap creates

def spent (xs : List (Transfer κ ν)) : List κ := xs.flatMap spends

@[simp] lemma created_nil : created ([] : List (Transfer κ ν)) = [] := rfl

@[simp] lemma spent_nil : spent ([] : List (Transfer κ ν)) = [] := rfl

@[simp] lemma created_append (xs ys : List (Transfer κ ν)) :
    created (xs ++ ys) = created xs ++ created ys := List.flatMap_append

@[simp] lemma spent_append (xs ys : List (Transfer κ ν)) :
    spent (xs ++ ys) = spent xs ++ spent ys := List.flatMap_append

@[simp] lemma created_singleton : created [x] = x.creates := by
  simp [created]

@[simp] lemma spent_singleton : spent [x] = x.spends := by
  simp [spent]

end Transfer

open Transfer Table List

variable {κ ν : Type} [DecidableEq κ]

lemma Table.get_applyAll_put {ps : List (κ × ν)} (hps : (ps.map Prod.fst).Nodup)
    (t : Table κ ν) (k : κ) (v : ν) :
    (t.applyAll (ps.map fun p => .put p.1 p.2)).get k = some v ↔
      (k, v) ∈ ps ∨ k ∉ ps.map Prod.fst ∧ t.get k = some v := by
  induction ps generalizing t with
  | nil => simp
  | cons p ps ih =>
    obtain ⟨a, w⟩ := p
    simp only [map_cons, nodup_cons] at hps
    simp only [map_cons, applyAll_cons, apply_put, ih hps.2, get_put,
      mem_cons, Prod.mk.injEq, not_or]
    by_cases hk : k = a
    · subst hk
      have hv : (k, v) ∉ ps := fun h => hps.1 (mem_map_of_mem h)
      simp [hps.1, hv, eq_comm]
    · simp [hk]

lemma Table.get_applyAll_edits {x : Transfer κ ν} (hx : x.createdKeys.Nodup) (t : Table κ ν)
    (k : κ) (v : ν) :
    (t.applyAll x.edits).get k = some v ↔
      (k, v) ∈ x.creates ∨ k ∉ x.createdKeys ∧ k ∉ x.spends ∧ t.get k = some v := by
  rw [edits, applyAll_append, get_applyAll_put hx, get_applyAll, effect_map_delete]
  by_cases hk : k ∈ x.spends <;> simp [hk, createdKeys]

/-- The tables reached from the empty one by admissible transfers with fresh keys, and these
transfers. -/
inductive History : Table κ ν → List (Transfer κ ν) → Prop where
  | nil : History .empty []
  | snoc {t xs x} (prev : History t xs)
      (admissible : x.Admissible t) (distinct : x.createdKeys.Nodup)
      (fresh : ∀ k ∈ x.createdKeys, k ∉ (created xs).map Prod.fst) :
      History (t.applyAll x.edits) (xs ++ [x])

namespace History

variable {t : Table κ ν} {xs : List (Transfer κ ν)} (h : History t xs)
include h

lemma contents :
    (∀ k v, t.get k = some v ↔ (k, v) ∈ created xs ∧ k ∉ spent xs) ∧
      ∀ k ∈ spent xs, k ∈ (created xs).map Prod.fst := by
  induction h with
  | nil => simp
  | @snoc t xs x _ hadm hdist hfresh ih =>
    obtain ⟨hget, hspent⟩ := ih
    have hpresent : ∀ k ∈ x.spends, k ∈ (created xs).map Prod.fst := by
      intro k hk
      obtain ⟨v, hv⟩ := Option.isSome_iff_exists.mp (hadm.present k hk)
      exact mem_map_of_mem ((hget k v).mp hv).1
    have hmem : ∀ {k v}, (k, v) ∈ x.creates → k ∈ x.createdKeys := fun h =>
      mem_map_of_mem h
    refine ⟨fun k v => ?_, fun k hk => ?_⟩
    · rw [get_applyAll_edits hdist, hget, created_append, spent_append,
        created_singleton, spent_singleton, mem_append, mem_append, not_or]
      constructor
      · rintro (hc | ⟨-, hns, hcr, hsp⟩)
        · have hnew := hfresh k (hmem hc)
          exact ⟨.inr hc, fun hs => hnew (hspent k hs), fun hs => hnew (hpresent k hs)⟩
        · exact ⟨.inl hcr, hsp, hns⟩
      · rintro ⟨hcr | hc, hsp, hns⟩
        · refine .inr ⟨fun hk => hfresh k hk ?_, hns, hcr, hsp⟩
          exact mem_map_of_mem hcr
        · exact .inl hc
    · rw [spent_append, spent_singleton, mem_append] at hk
      rw [created_append, map_append, mem_append]
      exact .inl (hk.elim (hspent k) (hpresent k))

theorem get_eq_some_iff (k : κ) (v : ν) :
    t.get k = some v ↔ (k, v) ∈ created xs ∧ k ∉ spent xs := h.contents.1 k v

theorem spent_nodup : (spent xs).Nodup := by
  induction h with
  | nil => simp
  | @snoc _ _ _ hprev hadm _ _ ih =>
    rw [spent_append, spent_singleton]
    refine ih.append hadm.nodup fun k hk hkx => ?_
    obtain ⟨v, hv⟩ := Option.isSome_iff_exists.mp (hadm.present k hkx)
    exact ((hprev.get_eq_some_iff k v).mp hv).2 hk

theorem spent_after_created {pre post : List (Transfer κ ν)}
    {x : Transfer κ ν} (hxs : xs = pre ++ x :: post) {k : κ} (hk : k ∈ x.spends) :
    k ∈ (created pre).map Prod.fst := by
  induction h generalizing post with
  | nil => simp at hxs
  | @snoc _ _ y hprev hadm _ _ ih =>
    rcases eq_nil_or_concat post with rfl | ⟨post', z, rfl⟩
    · obtain ⟨rfl, hyx⟩ := append_inj' hxs rfl
      obtain rfl : y = x := by simpa using hyx
      obtain ⟨v, hv⟩ := Option.isSome_iff_exists.mp (hadm.present k hk)
      exact mem_map_of_mem ((hprev.get_eq_some_iff k v).mp hv).1
    · rw [concat_eq_append, ← cons_append, ← append_assoc] at hxs
      exact ih (append_inj' hxs rfl).1

end History

end Catomicals.Base
