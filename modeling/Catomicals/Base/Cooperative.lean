import Mathlib.Data.List.Basic
import Mathlib.Data.List.Perm.Basic

/-!
# Cooperative tasks

One thread runs tasks in turn. A task that awaits something leaves a continuation: where it goes on,
and its local variables. Which one goes on next, and with what result, is up to the environment.
-/
namespace Catomicals.Base

open List

/-- Cooperative tasks over a shared state: what a call does until it awaits, and a continuation with
the result, `none` if that cannot arrive. Both leave the state and what waits. -/
structure Program (σ γ κ ω : Type) where
  call : γ → σ → σ × List κ
  resume : κ → ω → σ → Option (σ × List κ)

structure Config (σ κ : Type) where
  shared : σ
  waiting : List κ

/-- A new call, or the continuation at a position goes on. -/
inductive Event (γ ω : Type) where
  | call (c : γ)
  | resume (i : ℕ) (result : ω)

namespace Config

variable {σ κ : Type}

def after (c : Config σ κ) (r : σ × List κ) : Config σ κ := ⟨r.1, c.waiting ++ r.2⟩

def without (c : Config σ κ) (i : ℕ) : Config σ κ := ⟨c.shared, c.waiting.eraseIdx i⟩

lemma perm_without (c : Config σ κ) {i : ℕ} {k : κ} (hi : c.waiting[i]? = some k) :
    c.waiting.Perm (k :: (c.without i).waiting) := by
  obtain ⟨hlt, hk⟩ := List.getElem?_eq_some_iff.mp hi
  rw [← hk]
  exact (getElem_cons_eraseIdx_perm hlt).symm

end Config

/-- Of continuations with different labels, only one has a given label. -/
theorem eq_of_nodup_labels {κ β : Type} {label : κ → Option β} {ks : List κ}
    (h : (ks.filterMap label).Nodup) {k k' : κ} {b : β} (hk : k ∈ ks) (hk' : k' ∈ ks)
    (hb : label k = some b) (hb' : label k' = some b) : k = k' := by
  induction ks with
  | nil => cases hk
  | cons x ks ih =>
    have hrest : (ks.filterMap label).Nodup := h.sublist ((sublist_cons_self x ks).filterMap label)
    have hfirst : ∀ {y : κ}, y ∈ ks → label y = some b → label x ≠ some b := by
      intro y hy hyb hxb
      rw [filterMap_cons_some hxb] at h
      exact (nodup_cons.mp h).1 (mem_filterMap.mpr ⟨y, hy, hyb⟩)
    rcases mem_cons.mp hk with heq | hmem
    · rcases mem_cons.mp hk' with heq' | hmem'
      · rw [heq, heq']
      · exact absurd (heq ▸ hb) (hfirst hmem' hb')
    · rcases mem_cons.mp hk' with heq' | hmem'
      · exact absurd (heq' ▸ hb') (hfirst hmem hb)
      · exact ih hrest hmem hmem'

namespace Program

variable {σ γ κ ω : Type} (P : Program σ γ κ ω)

/-- One event. A continuation that cannot go on stays. -/
def step (c : Config σ κ) : Event γ ω → Config σ κ
  | .call x => c.after (P.call x c.shared)
  | .resume i result =>
    match c.waiting[i]? with
    | none => c
    | some k =>
      match P.resume k result c.shared with
      | none => c
      | some r => (c.without i).after r

def run (c : Config σ κ) (events : List (Event γ ω)) : Config σ κ := events.foldl P.step c

variable {P} {c : Config σ κ} {es : List (Event γ ω)}

theorem run_take_succ {n : ℕ} {e : Event γ ω} (h : es[n]? = some e) :
    P.run c (es.take (n + 1)) = P.step (P.run c (es.take n)) e := by
  simp only [run]
  rw [take_add_one, h, foldl_append]
  rfl

theorem run_take_of_none {n : ℕ} (h : es[n]? = none) :
    P.run c (es.take (n + 1)) = P.run c (es.take n) := by
  have hlen : es.length ≤ n := getElem?_eq_none_iff.mp h
  rw [take_of_length_le hlen, take_of_length_le (by omega)]

variable {C : Config σ κ → Event γ ω → Prop}

/-- What a step keeps, from what calls and continuations keep under a condition on the events. -/
theorem step_keeps {I : Config σ κ → Prop}
    (hcall : ∀ c x, I c → C c (.call x) → I (c.after (P.call x c.shared)))
    (hresume : ∀ c i k w r, c.waiting[i]? = some k → P.resume k w c.shared = some r → I c →
      C c (.resume i w) → I ((c.without i).after r)) (c : Config σ κ) (e : Event γ ω) (hI : I c)
    (hC : C c e) : I (P.step c e) := by
  cases e with
  | call x => exact hcall c x hI hC
  | resume i w =>
    cases hk : c.waiting[i]? with
    | none =>
      simp only [step, hk]
      exact hI
    | some k =>
      cases hr : P.resume k w c.shared with
      | none =>
        simp only [step, hk, hr]
        exact hI
      | some r =>
        simp only [step, hk, hr]
        exact hresume c i k w r hk hr hI hC

/-- How a step changes the shared state, from how calls and continuations do. -/
theorem step_relates {R : σ → σ → Prop} (hrefl : ∀ s, R s s) (hcall : ∀ x s, R s (P.call x s).1)
    (hresume : ∀ k w s r, P.resume k w s = some r → R s r.1) (c : Config σ κ) (e : Event γ ω) :
    R c.shared (P.step c e).shared := by
  refine step_keeps (I := fun c' => R c.shared c'.shared) (C := fun c' _ => c' = c) ?_ ?_ c e
    (hrefl _) rfl
  · rintro _ x - rfl
    exact hcall x _
  · rintro _ _ k w r - hr - rfl
    exact hresume k w _ r hr

/-- What every step that meets a condition keeps holds throughout runs of such steps. -/
theorem run_keeps {I : Config σ κ → Prop} (hinit : I c)
    (hstep : ∀ c e, I c → C c e → I (P.step c e))
    (hC : ∀ n e, es[n]? = some e → C (P.run c (es.take n)) e) (n : ℕ) :
    I (P.run c (es.take n)) := by
  induction n with
  | zero => exact hinit
  | succ n ih =>
    cases he : es[n]? with
    | none =>
      rw [run_take_of_none he]
      exact ih
    | some e =>
      rw [run_take_succ he]
      exact hstep _ _ ih (hC n e he)

end Program

end Catomicals.Base
