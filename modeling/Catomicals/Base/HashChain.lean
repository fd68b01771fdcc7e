import Mathlib.Data.List.Basic

/-!
# Hash chains

A log in which every entry repeats the digest of the entry before it and carries a digest of its own
that covers the previous one.
-/
namespace Catomicals.Base

structure Linking (α δ : Type) where
  /-- the digest the entry repeats -/
  previous : α → δ
  /-- the digest the entry carries -/
  digest : α → δ
  /-- the digest the entry ought to carry after a given one -/
  expected : δ → α → δ

namespace Linking

variable {α δ : Type} (L : Linking α δ)

/-- The entry may stand after the digest. -/
def Follows (previous : δ) (e : α) : Prop :=
  L.previous e = previous ∧ L.digest e = L.expected previous e

instance [DecidableEq δ] (previous : δ) (e : α) : Decidable (L.Follows previous e) :=
  inferInstanceAs (Decidable (_ ∧ _))

def verify [DecidableEq δ] (start : δ) : List α → Bool
  | [] => true
  | e :: rest => if L.Follows start e then verify (L.digest e) rest else false

def head (start : δ) (log : List α) : δ := (log.getLast?.map L.digest).getD start

@[simp] theorem head_cons (start : δ) (e : α) (log : List α) :
    L.head start (e :: log) = L.head (L.digest e) log := by
  cases log with
  | nil => rfl
  | cons e' rest =>
    simp only [head, List.getLast?_cons_cons]
    cases h : (e' :: rest).getLast? with
    | none => simp at h
    | some => rfl

theorem verify_concat [DecidableEq δ] {start : δ} {log : List α} {e : α}
    (hlog : L.verify start log = true) (he : L.Follows (L.head start log) e) :
    L.verify start (log ++ [e]) = true := by
  induction log generalizing start with
  | nil =>
    have hfoll : L.Follows start e := he
    simp [verify, hfoll]
  | cons _ _ ih =>
    rw [head_cons] at he
    rw [List.cons_append]
    unfold verify at hlog ⊢
    split_ifs at hlog ⊢
    exact ih hlog he

/-- An entry that replaces another one under the same head carries the same digest. -/
theorem follows_of_replaced [DecidableEq δ] {start : δ} {before after : List α} {e e' : α}
    (hlog : L.verify start (before ++ e :: after) = true)
    (hlog' : L.verify start (before ++ e' :: after) = true)
    (hhead : L.head start (before ++ e :: after) = L.head start (before ++ e' :: after)) :
    L.digest e = L.digest e' ∧ ∃ d, L.Follows d e ∧ L.Follows d e' := by
  induction before generalizing start with
  | nil =>
    simp only [List.nil_append, verify, Bool.if_false_right, Bool.and_eq_true, decide_eq_true_eq,
      head_cons] at hlog hlog' hhead
    refine ⟨?_, start, hlog.1, hlog'.1⟩
    cases after with
    | nil => exact hhead
    | cons =>
      simp only [verify, Bool.if_false_right, Bool.and_eq_true, decide_eq_true_eq] at hlog hlog'
      exact hlog.2.1.1.symm.trans hlog'.2.1.1
  | cons _ _ ih =>
    simp only [List.cons_append, verify, Bool.if_false_right, Bool.and_eq_true,
      decide_eq_true_eq, head_cons] at hlog hlog' hhead
    exact ih hlog.2 hlog'.2 hhead

end Linking

end Catomicals.Base
