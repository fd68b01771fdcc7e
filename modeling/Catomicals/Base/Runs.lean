import Mathlib.Data.Nat.Notation
import Mathlib.Logic.Relation

/-!
# Runs of a fallible step function

A step that fails leaves the state as it was, so a run is a fold that skips the failures, and what
it reaches is what the successful steps reach.
-/
namespace Catomicals.Base

variable {σ α ε : Type} (step : σ → α → Except ε σ)

/-- The state after one step, the old one if the step fails. -/
def attempt (s : σ) (a : α) : σ :=
  match step s a with
  | .ok s' => s'
  | .error _ => s

def run (s : σ) (as : List α) : σ := as.foldl (attempt step) s

def Steps (s s' : σ) : Prop := ∃ a, step s a = .ok s'

abbrev Reaches : σ → σ → Prop := Relation.ReflTransGen (Steps step)

section Attempt

variable {step} {a : α} {s : σ}

lemma attempt_of_ok {s' : σ} (h : step s a = .ok s') : attempt step s a = s' := by
  simp [attempt, h]

lemma attempt_of_error {e : ε} (h : step s a = .error e) : attempt step s a = s := by
  simp [attempt, h]

lemma eq_ok_attempt (h : (step s a).isOk = true) : step s a = .ok (attempt step s a) := by
  cases hs : step s a with
  | ok => rw [attempt_of_ok hs]
  | error => simp [hs, Except.isOk, Except.toBool] at h

lemma steps_attempt (h : (step s a).isOk = true) : Steps step s (attempt step s a) :=
  ⟨a, eq_ok_attempt h⟩

lemma run_append (s : σ) (as bs : List α) : run step s (as ++ bs) = run step (run step s as) bs :=
  List.foldl_append

@[simp] lemma run_cons (s : σ) (a : α) (as : List α) :
    run step s (a :: as) = run step (attempt step s a) as := rfl

lemma run_take_succ {as : List α} {n : ℕ} (h : as[n]? = some a) :
    run step s (as.take (n + 1)) = attempt step (run step s (as.take n)) a := by
  rw [List.take_add_one, h, run_append]
  rfl

theorem reaches_run (s : σ) (as : List α) : Reaches step s (run step s as) := by
  induction as generalizing s with
  | nil => exact .refl
  | cons a _ ih =>
    rw [run_cons]
    cases h : step s a with
    | ok s' =>
      rw [attempt_of_ok h]
      exact .head ⟨a, h⟩ (ih s')
    | error =>
      rw [attempt_of_error h]
      exact ih s

/-- An invariant of the successful steps holds wherever they lead. -/
theorem Reaches.invariant {I : σ → Prop} {s' : σ} (h : Reaches step s s') (hinit : I s)
    (hstep : ∀ t a u, I t → step t a = .ok u → I u) : I s' := by
  induction h with
  | refl => exact hinit
  | @tail t u _ htu ih =>
    obtain ⟨a, ha⟩ := htu
    exact hstep t a u ih ha

end Attempt

end Catomicals.Base
