import Mathlib.Data.List.Basic
import Mathlib.Tactic.SplitIfs

/-!
# Terminated records

A sequence read as records that each end with a separator, and a remainder behind the last
separator. Records written behind whole records are read back after them.
-/
namespace Catomicals.Base

open List

section Writing

variable {α : Type} (sep : α)

/-- The sequence that consists of the given records. -/
def joinRecords (rs : List (List α)) : List α := rs.flatMap (· ++ [sep])

@[simp] lemma joinRecords_nil : joinRecords sep ([] : List (List α)) = [] := rfl

@[simp] lemma joinRecords_cons (r : List α) (rs : List (List α)) :
    joinRecords sep (r :: rs) = r ++ sep :: joinRecords sep rs := by
  simp [joinRecords]

@[simp] lemma joinRecords_append (rs ss : List (List α)) :
    joinRecords sep (rs ++ ss) = joinRecords sep rs ++ joinRecords sep ss := by
  simp [joinRecords]

end Writing

section Reading

variable {α : Type} [DecidableEq α]

/-- The records of a sequence, without their separators. -/
def records (sep : α) (as : List α) : List (List α) := (as.splitOn sep).dropLast

/-- What follows the last separator. -/
def remainder (sep : α) (as : List α) : List α := (as.splitOn sep).getLast (splitOn_ne_nil _ _)

variable {sep : α}

@[simp] lemma records_nil : records sep [] = [] := rfl

@[simp] lemma remainder_nil : remainder sep [] = [] := rfl

lemma records_record {r : List α} (hr : sep ∉ r) (as : List α) :
    records sep (r ++ sep :: as) = r :: records sep as := by
  rw [records, splitOn_append_cons_self_of_not_mem hr,
    dropLast_cons_of_ne_nil (splitOn_ne_nil _ _), records]

lemma notMem_of_mem_splitOn (as : List α) : ∀ r ∈ as.splitOn sep, sep ∉ r := by
  induction as with
  | nil => simp
  | cons a as ih =>
    rw [splitOn_cons_eq_if_modifyHead]
    split_ifs with ha
    · simpa using ih
    · have hne : ¬sep = a := by
        rintro rfl
        exact ha (beq_self_eq_true sep)
      obtain ⟨s, ss, hs⟩ := exists_cons_of_ne_nil (splitOn_ne_nil sep as)
      rw [hs] at ih ⊢
      simpa [hne] using ih

lemma notMem_of_mem_records {as r : List α} (hr : r ∈ records sep as) : sep ∉ r :=
  notMem_of_mem_splitOn as r (dropLast_subset _ hr)

theorem records_joinRecords_append {rs : List (List α)} (hrs : ∀ r ∈ rs, sep ∉ r) (as : List α) :
    records sep (joinRecords sep rs ++ as) = rs ++ records sep as := by
  induction rs with
  | nil => simp
  | cons r _ ih =>
    rw [joinRecords_cons, append_assoc, cons_append,
      records_record (hrs r (by simp)), ih fun r' hr' => hrs r' (by simp [hr']), cons_append]

theorem joinRecords_records_append (as : List α) :
    joinRecords sep (records sep as) ++ remainder sep as = as := by
  have hall : ∀ (rs : List (List α)) (t : List α),
      [sep].intercalate (rs ++ [t]) = joinRecords sep rs ++ t := by
    intro rs t
    induction rs with
    | nil => simp [intercalate]
    | cons _ _ ih =>
      rw [cons_append, intercalate_cons_of_ne_nil (by simp), ih, joinRecords_cons]
      simp
  calc joinRecords sep (records sep as) ++ remainder sep as
      = [sep].intercalate ((as.splitOn sep).dropLast ++ [(as.splitOn sep).getLast _]) :=
        (hall _ _).symm
    _ = [sep].intercalate (as.splitOn sep) := by rw [dropLast_concat_getLast]
    _ = as := intercalate_splitOn sep

end Reading

end Catomicals.Base
