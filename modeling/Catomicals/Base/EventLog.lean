import Mathlib.Data.List.MinMax
import Mathlib.Data.List.Nodup

/-!
# Append-only logs with sequence numbers

A log whose rows get increasing numbers, as an `AUTOINCREMENT` key gives them. Of the rows with some
property, the one with the largest number was appended last.
-/
namespace Catomicals.Base

open List

variable {ρ : Type}

/-- Rows in the order of their sequence numbers, and the largest ever given. -/
structure EventLog (sequence : ρ → ℕ) where
  rows : List ρ
  last : ℕ
  increasing : rows.Pairwise fun a b => sequence a < sequence b
  bounded : ∀ r ∈ rows, sequence r ≤ last

namespace EventLog

variable {sequence : ρ → ℕ}

def empty : EventLog sequence := ⟨[], 0, .nil, by simp⟩

variable (log : EventLog sequence)

/-- `INSERT` of a row that gets the next sequence number. -/
def append (row : ℕ → ρ) (h : ∀ n, sequence (row n) = n) : EventLog sequence where
  rows := log.rows ++ [row (log.last + 1)]
  last := log.last + 1
  increasing := by
    refine pairwise_append.mpr ⟨log.increasing, pairwise_singleton _ _, ?_⟩
    intro a ha b hb
    rw [mem_singleton.mp hb, h]
    have hle := log.bounded a ha
    omega
  bounded := by
    intro r hr
    rcases mem_append.mp hr with hold | hnew
    · have hle := log.bounded r hold
      omega
    · rw [mem_singleton.mp hnew, h]

def history (p : ρ → Bool) : List ρ := log.rows.filter p

/-- `SELECT … WHERE p ORDER BY sequence DESC LIMIT 1`. -/
def latest (p : ρ → Bool) : Option ρ :=
  (log.rows.filter p).argmax sequence

lemma history_append (row : ℕ → ρ) (h : ∀ n, sequence (row n) = n)
    (p : ρ → Bool) : (log.append row h).history p =
      log.history p ++ if p (row (log.last + 1)) then [row (log.last + 1)] else [] := by
  simp only [history, append, filter_append]
  by_cases hp : p (row (log.last + 1)) = true <;> simp [hp]

lemma mem_history {log : EventLog sequence} {p : ρ → Bool} {r : ρ} :
    r ∈ log.history p ↔ r ∈ log.rows ∧ p r = true := mem_filter

lemma nodup_sequences : (log.rows.map sequence).Nodup :=
  pairwise_map.mpr (log.increasing.imp Nat.ne_of_lt)

lemma argmax_eq_getLast? (l : List ρ) (hl : l.Pairwise fun a b => sequence a < sequence b) :
    l.argmax sequence = l.getLast? := by
  induction l using reverseRecOn with
  | nil => rfl
  | append_singleton l a ih =>
    obtain ⟨hl, -, hlt⟩ := pairwise_append.mp hl
    rw [argmax_concat, ih hl, getLast?_concat]
    cases hlast : l.getLast? with
    | none => rfl
    | some b =>
      have hb : sequence b < sequence a := hlt b (mem_of_getLast? hlast) a (mem_singleton_self a)
      simp [hb]

theorem latest_eq_getLast? (p : ρ → Bool) : log.latest p = (log.history p).getLast? :=
  argmax_eq_getLast? _ (log.increasing.sublist filter_sublist)

end EventLog

end Catomicals.Base
