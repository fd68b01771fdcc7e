import Catomicals.Base.Outcome
import Catomicals.Base.Table
import Mathlib.Data.List.Pairwise

/-!
# Replaying a log into a table

A step files the entry of a row in a table, and refuses a row whose key is taken. A table that is
written next to its log, entry by entry, is the one a replay of the log gives.
-/
namespace Catomicals.Base

open Table List

variable {σ ρ κ ν ε ι : Type}

def UniqueEntry (Entry : ρ → κ → ν → Prop) : Prop :=
  ∀ {r k k' v v'}, Entry r k v → Entry r k' v' → k = k' ∧ v = v'

def KeysDiffer (Entry : ρ → κ → ν → Prop) (r r' : ρ) : Prop :=
  ∀ k v v', Entry r k v → ¬Entry r' k v'

instance (Entry : ρ → κ → ν → Prop) : Std.Symm (KeysDiffer Entry) where
  symm := fun _ _ h k v v' hentry' hentry => h k v' v hentry hentry'

variable [DecidableEq κ] (log : ι → Option ρ)

/-- Every row of a log has an entry in the table, and no two rows have the same key. -/
structure Logged (Entry : ρ → κ → ν → Prop) (table : Table κ ν) : Prop where
  filed : ∀ {i r}, log i = some r → ∃ k v, Entry r k v ∧ table.get k = some v
  distinct : ∀ {i j r r' k v v'}, log i = some r → log j = some r' → Entry r k v →
    Entry r' k v' → i = j

/-- Every entry of the table is that of a row of the log. -/
def Covers (Entry : ρ → κ → ν → Prop) (table : Table κ ν) : Prop :=
  ∀ k v, table.get k = some v → ∃ i r, log i = some r ∧ Entry r k v

def addRow [DecidableEq ι] (i : ι) (r : ρ) : ι → Option ρ :=
  fun j => if j = i then some r else log j

section Logged

variable {log : ι → Option ρ} {Entry : ρ → κ → ν → Prop} {table table' : Table κ ν} {k : κ} {v : ν}

lemma Logged.of_empty (h : ∀ i, log i = none) : Logged log Entry table := by
  constructor
  · intro i r hi
    simp [h] at hi
  · intro i j r _ k v _ hi
    simp [h] at hi

variable {r : ρ}

section

variable (h : Logged log Entry table)
include h

lemma Logged.get_of_entry (hunique : UniqueEntry Entry) {i : ι}
    (hi : log i = some r) (hentry : Entry r k v) : table.get k = some v := by
  obtain ⟨_, _, hentry', hget⟩ := h.filed hi
  obtain ⟨rfl, rfl⟩ := hunique hentry hentry'
  exact hget

lemma Logged.put (hnew : table.get k = none) (v : ν) : Logged log Entry (table.put k v) := by
  refine ⟨?_, h.distinct⟩
  intro i r hi
  obtain ⟨k', v', hentry, hget⟩ := h.filed hi
  refine ⟨k', v', hentry, ?_⟩
  rw [get_put, if_neg, hget]
  rintro rfl
  simp [hnew] at hget

lemma Logged.add [DecidableEq ι] (hunique : UniqueEntry Entry)
    (hentry : Entry r k v) (hnew : table.get k = none) (i : ι) :
    Logged (addRow log i r) Entry (table.put k v) := by
  -- the key of the new row is not that of a row already logged
  have hother : ∀ {j r' v'}, log j = some r' → ¬Entry r' k v' := by
    intro j r' _ hj hentry'
    simp [h.get_of_entry hunique hj hentry'] at hnew
  constructor
  · intro j _ hj
    simp only [addRow] at hj
    split_ifs at hj
    · cases hj
      exact ⟨k, v, hentry, by rw [get_put, if_pos rfl]⟩
    · exact (h.put hnew v).filed hj
  · intro j _ _ _ _ _ _ hj hj' hentry₁ hentry₂
    simp only [addRow] at hj hj'
    split_ifs at hj hj' with hi hi'
    · rw [hi, hi']
    · cases hj
      obtain ⟨rfl, -⟩ := hunique hentry₁ hentry
      exact absurd hentry₂ (hother hj')
    · cases hj'
      obtain ⟨rfl, -⟩ := hunique hentry₂ hentry
      exact absurd hentry₁ (hother hj)
    · exact h.distinct hj hj' hentry₁ hentry₂

end

lemma Covers.add [DecidableEq ι] (h : Covers log Entry table) {i : ι} (hfree : log i = none)
    (hentry : Entry r k v) : Covers (addRow log i r) Entry (table.put k v) := by
  intro k' v' hget
  rw [get_put] at hget
  split_ifs at hget with hk
  · cases hget
    exact ⟨i, r, if_pos rfl, hk ▸ hentry⟩
  · obtain ⟨j, r', hj, hentry'⟩ := h k' v' hget
    refine ⟨j, r', ?_, hentry'⟩
    rw [addRow, if_neg, hj]
    rintro rfl
    simp [hfree] at hj

lemma Logged.eq_of_covers (h : Logged log Entry table) (h' : Logged log Entry table')
    (hunique : UniqueEntry Entry) (hcovers : Covers log Entry table)
    (hcovers' : Covers log Entry table') : table = table' := by
  ext k v
  constructor
  · intro hget
    obtain ⟨i, r, hi, hentry⟩ := hcovers k v hget
    exact h'.get_of_entry hunique hi hentry
  · intro hget
    obtain ⟨_, _, hi, hentry⟩ := hcovers' k v hget
    exact h.get_of_entry hunique hi hentry

end Logged

/-- A step on states with an invariant `I` that files the entry of a row under its free key. -/
structure Files (step : σ → ρ → Except ε σ) (table : σ → Table κ ν) (I : σ → Prop)
    (Entry : ρ → κ → ν → Prop) : Prop where
  unique : UniqueEntry Entry
  filed : ∀ {s r s'}, I s → step s r = .ok s' →
    ∃ k v, Entry r k v ∧ (table s).get k = none ∧ table s' = (table s).put k v ∧ I s'
  total : ∀ {s r k v}, I s → Entry r k v → (table s).get k = none → ∃ s', step s r = .ok s'

variable {rows : List ρ}

namespace Files

variable {step : σ → ρ → Except ε σ} {table : σ → Table κ ν} {I : σ → Prop}
  {Entry : ρ → κ → ν → Prop}

section

variable (h : Files step table I Entry)
include h

/-- A replay that succeeds keeps the invariant and files exactly the rows' entries. -/
theorem of_replay {s s' : σ} (hreplay : rows.foldlM step s = .ok s') (hI : I s) :
    I s' ∧ (∀ r ∈ rows, ∃ k v, Entry r k v) ∧
      ∀ k v, (table s').get k = some v ↔ (table s).get k = some v ∨ ∃ r ∈ rows, Entry r k v := by
  induction rows generalizing s with
  | nil =>
    obtain rfl : s = s' := Except.ok.inj hreplay
    exact ⟨hI, by simp, by simp⟩
  | cons r _ ih =>
    rw [foldlM_cons, bind_eq_ok] at hreplay
    obtain ⟨_, hstep, hrest⟩ := hreplay
    obtain ⟨k₁, v₁, hentry, hfree, htable, hI₁⟩ := h.filed hI hstep
    obtain ⟨hI', hents, hget⟩ := ih hrest hI₁
    refine ⟨hI', ?_, ?_⟩
    · intro r' hr'
      rcases mem_cons.mp hr' with rfl | hr'
      · exact ⟨k₁, v₁, hentry⟩
      · exact hents r' hr'
    · intro k v
      rw [hget, htable, get_put]
      constructor
      · rintro (hput | ⟨r', hr', he⟩)
        · split_ifs at hput with hk
          · cases hput
            exact .inr ⟨r, mem_cons_self, hk ▸ hentry⟩
          · exact .inl hput
        · exact .inr ⟨r', mem_cons_of_mem _ hr', he⟩
      · rintro (hold | ⟨r', hr', he⟩)
        · left
          rw [if_neg, hold]
          rintro rfl
          simp [hfree] at hold
        · rcases mem_cons.mp hr' with rfl | hr'
          · obtain ⟨rfl, rfl⟩ := h.unique hentry he
            exact .inl (if_pos rfl)
          · exact .inr ⟨r', hr', he⟩

lemma free_of_replay {s s' : σ} (hreplay : rows.foldlM step s = .ok s') (hI : I s) :
    rows.Pairwise (KeysDiffer Entry) ∧ ∀ r ∈ rows, ∀ k v, Entry r k v → (table s).get k = none := by
  induction rows generalizing s with
  | nil => exact ⟨.nil, by simp⟩
  | cons _ _ ih =>
    rw [foldlM_cons, bind_eq_ok] at hreplay
    obtain ⟨_, hstep, hrest⟩ := hreplay
    obtain ⟨_, _, hentry, hfree, htable, hI₁⟩ := h.filed hI hstep
    obtain ⟨hpairs, hoth⟩ := ih hrest hI₁
    rw [htable] at hoth
    refine ⟨pairwise_cons.mpr ⟨?_, hpairs⟩, ?_⟩
    · intro r' hr' k v _ he he'
      obtain ⟨rfl, -⟩ := h.unique hentry he
      have hnone := hoth r' hr' _ _ he'
      simp at hnone
    · intro r' hr' k v he
      rcases mem_cons.mp hr' with rfl | hr'
      · obtain ⟨rfl, -⟩ := h.unique hentry he
        exact hfree
      · have hnone := hoth r' hr' _ _ he
        rw [get_put] at hnone
        split_ifs at hnone
        exact hnone

/-- A replay succeeds if every row has an entry and the keys are distinct and free. -/
theorem exists_replay {s : σ} (hI : I s)
    (hents : ∀ r ∈ rows, ∃ k v, Entry r k v ∧ (table s).get k = none)
    (hdist : rows.Pairwise (KeysDiffer Entry)) : ∃ s', rows.foldlM step s = .ok s' := by
  induction rows generalizing s with
  | nil => exact ⟨s, rfl⟩
  | cons r rest ih =>
    obtain ⟨hr, hrest⟩ := pairwise_cons.mp hdist
    obtain ⟨_, _, hentry₀, hfree₀⟩ := hents r mem_cons_self
    obtain ⟨s₁, hstep⟩ := h.total hI hentry₀ hfree₀
    obtain ⟨_, v₁, hentry, -, htable, hI₁⟩ := h.filed hI hstep
    have hents₁ : ∀ r' ∈ rest, ∃ k v, Entry r' k v ∧ (table s₁).get k = none := by
      intro r' hr'
      obtain ⟨k, v, he, hfree⟩ := hents r' (mem_cons_of_mem _ hr')
      refine ⟨k, v, he, ?_⟩
      rw [htable, get_put, if_neg, hfree]
      rintro rfl
      exact hr r' hr' k v₁ v hentry he
    obtain ⟨s', hreplay⟩ := ih hI₁ hents₁ hrest
    refine ⟨s', ?_⟩
    rw [foldlM_cons, bind_eq_ok]
    exact ⟨s₁, hstep, hreplay⟩

end

section Rows

variable {log : ι → Option ρ} (index : ρ → ι) {s s' : σ} (h : Files step table I Entry) (hI : I s)
  (hempty : table s = .empty) (hindex : ∀ {i r}, log i = some r → index r = i)
  (hrows : ∀ r, r ∈ rows ↔ ∃ i, log i = some r)
include h hI hempty hindex hrows

/-- The table that a replay of a log gives has exactly the entries of the log. -/
theorem logged_of_replay (hreplay : rows.foldlM step s = .ok s') :
    I s' ∧ Logged log Entry (table s') ∧ Covers log Entry (table s') := by
  obtain ⟨hI', hents, hget⟩ := h.of_replay hreplay hI
  obtain ⟨hpairs, -⟩ := h.free_of_replay hreplay hI
  simp only [hempty, get_empty, reduceCtorEq, false_or] at hget
  refine ⟨hI', ⟨?_, ?_⟩, ?_⟩
  · intro i r hi
    have hr : r ∈ rows := (hrows r).mpr ⟨i, hi⟩
    obtain ⟨k, v, hentry⟩ := hents r hr
    exact ⟨k, v, hentry, (hget k v).mpr ⟨r, hr, hentry⟩⟩
  · intro i j r r' k v v' hi hj hentry hentry'
    by_cases hr : r = r'
    · rw [← hindex hi, ← hindex hj, hr]
    · have hdiffer := hpairs.forall ((hrows r).mpr ⟨i, hi⟩) ((hrows r').mpr ⟨j, hj⟩) hr
      exact absurd hentry' (hdiffer k v v' hentry)
  · intro k v hk
    obtain ⟨r, hr, hentry⟩ := (hget k v).mp hk
    obtain ⟨i, hi⟩ := (hrows r).mp hr
    exact ⟨i, r, hi, hentry⟩

/-- If a table has exactly the entries of a log, the replay gives the table. -/
theorem replay_of_logged (hnodup : (rows.map index).Nodup)
    {t : Table κ ν} (hlogged : Logged log Entry t) (hcovers : Covers log Entry t) :
    ∃ s', rows.foldlM step s = .ok s' ∧ I s' ∧ table s' = t := by
  have hents : ∀ r ∈ rows, ∃ k v, Entry r k v ∧ (table s).get k = none := by
    intro r hr
    obtain ⟨i, hi⟩ := (hrows r).mp hr
    obtain ⟨k, v, hentry, -⟩ := hlogged.filed hi
    exact ⟨k, v, hentry, by rw [hempty, get_empty]⟩
  have hdist : rows.Pairwise (KeysDiffer Entry) := by
    apply (pairwise_map.mp hnodup).imp_of_mem
    intro r r' hr hr' hne k v _ hentry hentry'
    obtain ⟨_, hi⟩ := (hrows r).mp hr
    obtain ⟨_, hj⟩ := (hrows r').mp hr'
    apply hne
    rw [hindex hi, hindex hj]
    exact hlogged.distinct hi hj hentry hentry'
  obtain ⟨s', hreplay⟩ := h.exists_replay hI hents hdist
  obtain ⟨hI', hlogged', hcovers'⟩ := h.logged_of_replay index hI hempty hindex hrows hreplay
  exact ⟨s', hreplay, hI', hlogged'.eq_of_covers hlogged h.unique hcovers' hcovers⟩

end Rows

end Files

end Catomicals.Base
