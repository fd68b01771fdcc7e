import Mathlib.Data.List.Basic

/-!
# Child processes

The processes a program has started, in the order of their starts; the position in the list is the
process's identity. A live process is one that runs and has not been signalled.
-/
namespace Catomicals.Base

structure Process (α : Type) where
  tag : α
  (exited signalled : Bool)
deriving DecidableEq

abbrev Processes (α : Type) := List (Process α)

namespace Processes

variable {α : Type} (ps : Processes α) (pid q : ℕ)

def start (a : α) : Processes α := ps ++ [⟨a, false, false⟩]

def signal : Processes α := ps.modify pid fun p => { p with signalled := true }

def exit : Processes α := ps.modify pid fun p => { p with exited := true }

/-- Whether a process was started and has not exited. -/
def Running : Prop := ∃ p, ps[pid]? = some p ∧ p.exited = false

/-- Whether a process that was started for something has not exited. -/
def RunsFor (a : α) : Prop := ∃ p, ps[pid]? = some p ∧ p.exited = false ∧ p.tag = a

def Exited : Prop := ∃ p, ps[pid]? = some p ∧ p.exited = true

def Live : Prop := ∃ p, ps[pid]? = some p ∧ p.exited = false ∧ p.signalled = false

instance : Decidable (ps.Running pid) :=
  decidable_of_iff (ps[pid]?.any fun p => !p.exited) (by
    cases h : ps[pid]? <;> simp [Running, h])

instance : Decidable (ps.Exited pid) :=
  decidable_of_iff (ps[pid]?.any fun p => p.exited) (by
    cases h : ps[pid]? <;> simp [Exited, h])

instance : Decidable (ps.Live pid) :=
  decidable_of_iff (ps[pid]?.any fun p => !p.exited && !p.signalled) (by
    cases h : ps[pid]? <;> simp [Live, h])

variable {ps pid q}

@[simp] lemma length_start (a : α) : (ps.start a).length = ps.length + 1 := by simp [start]

@[simp] lemma length_signal : (ps.signal pid).length = ps.length := by simp [signal]

@[simp] lemma length_exit : (ps.exit pid).length = ps.length := by simp [exit]

lemma Running.lt (h : ps.Running pid) : pid < ps.length := by
  obtain ⟨p, hp, _⟩ := h
  exact (List.getElem?_eq_some_iff.mp hp).1

lemma Live.running (h : ps.Live pid) : ps.Running pid := by
  obtain ⟨p, hp, hexited, _⟩ := h
  exact ⟨p, hp, hexited⟩

lemma not_running_of_exited (h : ps.Exited pid) : ¬ps.Running pid := by
  rintro ⟨p, hp, hexited⟩
  obtain ⟨p', hp', hexited'⟩ := h
  rw [hp] at hp'
  cases hp'
  simp [hexited] at hexited'

lemma not_live_of_exited (h : ps.Exited pid) : ¬ps.Live pid := fun hlive =>
  not_running_of_exited h hlive.running

lemma getElem?_start_of_ne {a : α} (h : q ≠ ps.length) : (ps.start a)[q]? = ps[q]? := by
  rw [start, List.getElem?_append]
  grind

theorem live_start {a : α} : (ps.start a).Live q ↔ ps.Live q ∨ q = ps.length := by
  by_cases h : q = ps.length
  · subst h
    simp [Live, start]
  · simp [Live, getElem?_start_of_ne h, h]

theorem live_signal : (ps.signal pid).Live q ↔ ps.Live q ∧ q ≠ pid := by
  by_cases h : pid = q
  · subst h
    cases hp : ps[pid]? <;> simp [Live, signal, hp]
  · have hne : q ≠ pid := Ne.symm h
    simp [Live, signal, h, hne]

theorem live_exit : (ps.exit pid).Live q ↔ ps.Live q ∧ q ≠ pid := by
  by_cases h : pid = q
  · subst h
    cases hp : ps[pid]? <;> simp [Live, exit, hp]
  · have hne : q ≠ pid := Ne.symm h
    simp [Live, exit, h, hne]

lemma not_runsFor_of_exited {a : α} (h : ps.Exited pid) : ¬ps.RunsFor pid a := by
  rintro ⟨p, hp, hexited, -⟩
  exact not_running_of_exited h ⟨p, hp, hexited⟩

theorem runsFor_start {a b : α} :
    (ps.start a).RunsFor q b ↔ ps.RunsFor q b ∨ q = ps.length ∧ b = a := by
  by_cases h : q = ps.length
  · subst h
    simp [RunsFor, start, @eq_comm _ b]
  · simp [RunsFor, getElem?_start_of_ne h, h]

/-- The second list has the processes of the first, some signalled or exited since. -/
def Later (ps ps' : Processes α) : Prop :=
  ∀ (q : ℕ) (p' : Process α), ps'[q]? = some p' →
    ∃ p, ps[q]? = some p ∧ p'.tag = p.tag ∧ (p'.exited = false → p.exited = false)

lemma Later.refl (ps : Processes α) : Later ps ps := fun _ p hp => ⟨p, hp, rfl, id⟩

lemma Later.trans {ps₁ ps₂ : Processes α} (h : Later ps ps₁) (h' : Later ps₁ ps₂) :
    Later ps ps₂ := by
  intro q p₂ hp₂
  obtain ⟨p₁, hp₁, htag₁, hexited₁⟩ := h' q p₂ hp₂
  obtain ⟨p, hp, htag, hexited⟩ := h q p₁ hp₁
  exact ⟨p, hp, htag₁.trans htag, hexited ∘ hexited₁⟩

lemma Later.runsFor {ps' : Processes α} {a : α} (h : Later ps ps') (hruns : ps'.RunsFor q a) :
    ps.RunsFor q a := by
  obtain ⟨p', hp', hexited, htag⟩ := hruns
  obtain ⟨p, hp, hsame, hrun⟩ := h q p' hp'
  exact ⟨p, hp, hrun hexited, hsame ▸ htag⟩

lemma later_modify {f : Process α → Process α} (htag : ∀ p, (f p).tag = p.tag)
    (hexited : ∀ p, (f p).exited = false → p.exited = false) : Later ps (ps.modify pid f) := by
  intro q _ hp'
  rw [List.getElem?_modify] at hp'
  obtain ⟨p, hp, rfl⟩ := Option.map_eq_some_iff.mp hp'
  refine ⟨p, hp, ?_⟩
  split_ifs
  · exact ⟨htag p, hexited p⟩
  · exact ⟨rfl, id⟩

lemma later_signal : Later ps (ps.signal pid) := later_modify (fun _ => rfl) fun _ => id

lemma later_exit : Later ps (ps.exit pid) := later_modify (fun _ => rfl) fun _ h => by cases h

lemma Later.signals {ps' : Processes α} (h : Later ps ps') (pids : List ℕ) :
    Later ps (pids.foldl (fun ps pid => ps.signal pid) ps') := by
  induction pids generalizing ps' with
  | nil => exact h
  | cons _ _ ih => exact ih (h.trans later_signal)

end Processes

end Catomicals.Base
