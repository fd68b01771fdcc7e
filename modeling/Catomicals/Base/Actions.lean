import Mathlib.Data.List.Basic

/-!
# Sequences of actions under faults and crashes

A program is a list of actions, each of which the environment can make fail, unless it has no name.
A crash can strike before and after every action, so it leaves one of the states the execution
visits.
-/
namespace Catomicals.Base

variable {ν ε σ : Type}

structure Action (ν ε σ : Type) where
  /-- the action's name for the environment, and its error on a fault -/
  fault : Option (ν × ε)
  run : σ → Except ε σ

variable {I : σ → Prop}

namespace Action

def io (name : ν) (e : ε) (run : σ → Except ε σ) : Action ν ε σ := ⟨some (name, e), run⟩

def inspect (name : ν) (e : ε) : Action ν ε σ := io name e .ok

def change (name : ν) (e : ε) (f : σ → σ) : Action ν ε σ := io name e fun s => .ok (f s)

variable (run : σ → Except ε σ)

def pure : Action ν ε σ := ⟨none, run⟩

/-- What an action does under a fault schedule. -/
def perform (faults : ν → Bool) (a : Action ν ε σ) (s : σ) : Except ε σ :=
  match a.fault with
  | some (name, e) => if faults name then .error e else a.run s
  | none => a.run s

variable (faults : ν → Bool) (name : ν) (e : ε) (s : σ)

@[simp] lemma perform_io :
    (io name e run).perform faults s = if faults name then .error e else run s := rfl

@[simp] lemma perform_inspect :
    (inspect name e).perform faults s = if faults name then .error e else .ok s := rfl

@[simp] lemma perform_change (f : σ → σ) :
    (change name e f).perform faults s = if faults name then .error e else .ok (f s) := rfl

@[simp] lemma perform_pure : (pure run : Action ν ε σ).perform faults s = run s := rfl

/-- An action that leads from states with a property to such states. -/
def Keeps (a : Action ν ε σ) (I : σ → Prop) : Prop := ∀ s s', I s → a.run s = .ok s' → I s'

@[simp] lemma keeps_inspect (I : σ → Prop) : (inspect name e).Keeps I := by
  intro s _ hs h
  cases h
  exact hs

@[simp] lemma keeps_change {f : σ → σ} : (change name e f).Keeps I ↔ ∀ s, I s → I (f s) := by
  simp [Keeps, change, io]

lemma keeps_io {run : σ → Except ε σ} :
    (io name e run).Keeps I ↔ ∀ s s', I s → run s = .ok s' → I s' := Iff.rfl

lemma keeps_pure {run : σ → Except ε σ} :
    (pure run : Action ν ε σ).Keeps I ↔ ∀ s s', I s → run s = .ok s' → I s' := Iff.rfl

lemma run_of_perform {faults : ν → Bool} {a : Action ν ε σ} {s s' : σ}
    (h : a.perform faults s = .ok s') : a.run s = .ok s' := by
  unfold perform at h
  split at h
  · split_ifs at h
    exact h
  · exact h

end Action

open Base.Action List

variable {a : Action ν ε σ} {as bs : List (Action ν ε σ)} {s s' t : σ} (faults : ν → Bool)

/-- The result of a sequence of actions, and the state it ends in. -/
def exec : List (Action ν ε σ) → σ → Except ε Unit × σ
  | [], s => (.ok (), s)
  | a :: as, s =>
    match a.perform faults s with
    | .error e => (.error e, s)
    | .ok s' => exec as s'

/-- The states a crash can leave behind. -/
def visited : List (Action ν ε σ) → σ → List σ
  | [], s => [s]
  | a :: as, s =>
    s :: match a.perform faults s with
    | .error _ => []
    | .ok s' => visited as s'

def Clear (names : List ν) : Prop := ∀ n ∈ names, faults n = false

instance (names : List ν) : Decidable (Clear faults names) :=
  inferInstanceAs (Decidable (∀ n ∈ names, faults n = false))

def names (as : List (Action ν ε σ)) : List ν := as.filterMap fun a => a.fault.map Prod.fst

section Clear

variable {faults}

@[simp] lemma clear_nil : Clear faults [] := by simp [Clear]

@[simp] lemma clear_cons {n : ν} {ns : List ν} :
    Clear faults (n :: ns) ↔ faults n = false ∧ Clear faults ns := by
  simp [Clear]

@[simp] lemma clear_append {ns ms : List ν} :
    Clear faults (ns ++ ms) ↔ Clear faults ns ∧ Clear faults ms := by
  simp [Clear, or_imp, forall_and]

end Clear

section Exec

variable {faults}

@[simp] lemma exec_nil : exec faults ([] : List (Action ν ε σ)) s = (.ok (), s) := rfl

lemma exec_cons : exec faults (a :: as) s = match a.perform faults s with
    | .error e => (.error e, s)
    | .ok s' => exec faults as s' := rfl

lemma exec_cons_of_ok (h : a.perform faults s = .ok s') :
    exec faults (a :: as) s = exec faults as s' := by
  rw [exec_cons, h]

lemma exec_cons_of_error {e : ε} (h : a.perform faults s = .error e) :
    exec faults (a :: as) s = (.error e, s) := by
  rw [exec_cons, h]

lemma exec_inspect_snd (n : ν) (e : ε) : (exec faults (inspect n e :: as) s).2 =
    if faults n = false then (exec faults as s).2 else s := by
  cases h : faults n <;> simp [exec_cons, h]

lemma exec_change_snd (n : ν) (e : ε) (f : σ → σ) : (exec faults (change n e f :: as) s).2 =
    if faults n = false then (exec faults as (f s)).2 else s := by
  cases h : faults n <;> simp [exec_cons, h]

lemma exec_cons_eq_ok : exec faults (a :: as) s = (.ok (), t) ↔
    ∃ s', a.perform faults s = .ok s' ∧ exec faults as s' = (.ok (), t) := by
  cases h : a.perform faults s with
  | ok => simp [exec_cons_of_ok h]
  | error => simp [exec_cons_of_error h]

theorem exec_append : exec faults (as ++ bs) s = match exec faults as s with
    | (.ok _, s') => exec faults bs s'
    | (.error e, s') => (.error e, s') := by
  induction as generalizing s with
  | nil => rfl
  | cons a _ ih =>
    rw [cons_append]
    cases h : a.perform faults s with
    | ok => rw [exec_cons_of_ok h, exec_cons_of_ok h, ih]
    | error => rw [exec_cons_of_error h, exec_cons_of_error h]

lemma exec_append_of_ok (h : exec faults as s = (.ok (), s')) :
    exec faults (as ++ bs) s = exec faults bs s' := by
  rw [exec_append, h]

lemma exec_append_of_error {e : ε} (h : exec faults as s = (.error e, s')) :
    exec faults (as ++ bs) s = (.error e, s') := by
  rw [exec_append, h]

theorem exec_invariant (hs : I s) (hstep : ∀ a ∈ as, a.Keeps I) : I (exec faults as s).2 := by
  induction as generalizing s with
  | nil => exact hs
  | cons a _ ih =>
    cases h : a.perform faults s with
    | error =>
      rw [exec_cons_of_error h]
      exact hs
    | ok s' =>
      rw [exec_cons_of_ok h]
      have hs' : I s' := hstep a mem_cons_self s s' hs (run_of_perform h)
      exact ih hs' fun b hb => hstep b (mem_cons_of_mem a hb)

theorem clear_of_exec_ok (h : exec faults as s = (.ok (), s')) : Clear faults (names as) := by
  induction as generalizing s with
  | nil => exact clear_nil
  | cons a as ih =>
    cases hp : a.perform faults s with
    | error =>
      simp [exec_cons_of_error hp] at h
    | ok =>
      rw [exec_cons_of_ok hp] at h
      have hrest : Clear faults (names as) := ih h
      cases hf : a.fault with
      | none => simpa [names, hf] using hrest
      | some f =>
        obtain ⟨n, e⟩ := f
        have hn : faults n = false := by
          by_contra hne
          rw [Bool.not_eq_false] at hne
          simp [perform, hf, hne] at hp
        simpa [names, hf, hn] using hrest

end Exec

section Visited

variable {faults}

@[simp] lemma mem_visited_nil : t ∈ visited faults ([] : List (Action ν ε σ)) s ↔ t = s := by
  simp [visited]

lemma mem_visited_cons : t ∈ visited faults (a :: as) s ↔
    t = s ∨ ∃ s', a.perform faults s = .ok s' ∧ t ∈ visited faults as s' := by
  rw [visited]
  cases h : a.perform faults s <;> simp

lemma mem_visited_self (faults : ν → Bool) (as : List (Action ν ε σ)) (s : σ) :
    s ∈ visited faults as s := by
  cases as <;> simp [visited]

/-- A crash strikes in the first part, or in the second after the first has succeeded. -/
theorem mem_visited_append : t ∈ visited faults (as ++ bs) s ↔
    t ∈ visited faults as s ∨ ∃ s', exec faults as s = (.ok (), s') ∧ t ∈ visited faults bs s' := by
  induction as generalizing s with
  | nil =>
    have hs := mem_visited_self faults bs s
    simp only [nil_append, mem_visited_nil, exec_nil, Prod.mk.injEq, true_and]
    constructor
    · intro ht
      exact .inr ⟨s, rfl, ht⟩
    · rintro (rfl | ⟨s', rfl, ht⟩)
      · exact hs
      · exact ht
  | cons a _ ih =>
    rw [cons_append, mem_visited_cons, mem_visited_cons]
    cases h : a.perform faults s with
    | ok =>
      rw [exec_cons_of_ok h]
      simp [ih, or_assoc]
    | error =>
      rw [exec_cons_of_error h]
      simp

theorem visited_invariant (hs : I s) (hstep : ∀ a ∈ as, a.Keeps I) :
    ∀ t ∈ visited faults as s, I t := by
  induction as generalizing s with
  | nil =>
    intro t ht
    rw [mem_visited_nil] at ht
    exact ht ▸ hs
  | cons a _ ih =>
    intro t ht
    obtain rfl | ⟨s', hp, ht⟩ := mem_visited_cons.mp ht
    · exact hs
    · have hs' : I s' := hstep a mem_cons_self s s' hs (run_of_perform hp)
      exact ih hs' (fun b hb => hstep b (mem_cons_of_mem a hb)) t ht

theorem visited_before_last (hs : I s) (hstep : ∀ a ∈ as, a.Keeps I) :
    ∀ t ∈ visited faults (as ++ [a]) s, I t ∨ exec faults (as ++ [a]) s = (.ok (), t) := by
  intro t ht
  obtain ht | ⟨u, hu, ht⟩ := mem_visited_append.mp ht
  · exact .inl (visited_invariant hs hstep t ht)
  · have hinv : I (exec faults as s).2 := exec_invariant hs hstep
    rw [hu] at hinv
    obtain rfl | ⟨v, hv, ht⟩ := mem_visited_cons.mp ht
    · exact .inl hinv
    · rw [mem_visited_nil] at ht
      subst ht
      exact .inr (by rw [exec_append_of_ok hu, exec_cons_of_ok hv, exec_nil])

theorem exec_mem_visited (faults : ν → Bool) (as : List (Action ν ε σ)) (s : σ) :
    (exec faults as s).2 ∈ visited faults as s := by
  induction as generalizing s with
  | nil => simp
  | cons a _ ih =>
    rw [mem_visited_cons]
    cases h : a.perform faults s with
    | error =>
      rw [exec_cons_of_error h]
      exact .inl rfl
    | ok s' =>
      rw [exec_cons_of_ok h]
      exact .inr ⟨s', rfl, ih s'⟩

end Visited

section Quiet

variable {faults}

lemma perform_quiet (a : Action ν ε σ) (s : σ) : a.perform (fun _ => false) s = a.run s := by
  unfold perform
  split <;> rfl

theorem exec_quiet_of_ok (h : exec faults as s = (.ok (), t)) :
    exec (fun _ => false) as s = (.ok (), t) := by
  induction as generalizing s with
  | nil => exact h
  | cons _ _ ih =>
    obtain ⟨u, hu, hrest⟩ := exec_cons_eq_ok.mp h
    exact exec_cons_eq_ok.mpr ⟨u, by rw [perform_quiet, run_of_perform hu], ih hrest⟩

theorem exec_of_clear (h : Clear faults (names as)) :
    exec faults as s = exec (fun _ => false) as s := by
  induction as generalizing s with
  | nil => rfl
  | cons a as ih =>
    have hp : a.perform faults s = a.run s ∧ Clear faults (names as) := by
      cases hf : a.fault with
      | none => exact ⟨by simp [perform, hf], by simpa [names, hf] using h⟩
      | some f =>
        obtain ⟨n, e⟩ := f
        have hn : faults n = false ∧ Clear faults (names as) := by simpa [names, hf] using h
        exact ⟨by simp [perform, hf, hn.1], hn.2⟩
    rw [exec_cons, exec_cons, hp.1, perform_quiet]
    cases a.run s with
    | error => rfl
    | ok => exact ih hp.2

theorem visited_quiet (h : t ∈ visited faults as s) : t ∈ visited (fun _ => false) as s := by
  induction as generalizing s with
  | nil => exact h
  | cons _ _ ih =>
    rw [mem_visited_cons] at h ⊢
    obtain hs | ⟨u, hu, ht⟩ := h
    · exact .inl hs
    · exact .inr ⟨u, by rw [perform_quiet, run_of_perform hu], ih ht⟩

lemma mem_visited_inspect (n : ν) (e : ε) :
    t ∈ visited (fun _ => false) (inspect n e :: as) s ↔ t ∈ visited (fun _ => false) as s := by
  have hs := mem_visited_self (fun _ => false) as s
  simp only [mem_visited_cons, perform_inspect, Bool.false_eq_true, if_false, Except.ok.injEq,
    exists_eq_left']
  constructor
  · intro h
    obtain rfl | h := h
    · exact hs
    · exact h
  · exact .inr

lemma mem_visited_change (n : ν) (e : ε) (f : σ → σ) :
    t ∈ visited (fun _ => false) (change n e f :: as) s ↔
      t = s ∨ t ∈ visited (fun _ => false) as (f s) := by
  simp [mem_visited_cons]

end Quiet

/-- A stage of a program: actions that lead from one state to another if a condition holds, and what
the states in between share. -/
structure Stage (faults : ν → Bool) (as : List (Action ν ε σ)) (entry exit : σ) (clear : Prop)
    (I : σ → Prop) : Prop where
  run : clear → exec faults as entry = (.ok (), exit)
  stop : ∀ t, exec faults as entry = (.ok (), t) → clear
  visit : ∀ t ∈ visited faults as entry, I t ∨ exec faults as entry = (.ok (), t)

section Stages

variable {faults} {κ : Type} {clear : Prop}

lemma Stage.error (h : Stage faults as s t clear I) (hc : ¬clear) :
    ∃ e u, exec faults as s = (.error e, u) ∧ I u := by
  cases hx : exec faults as s with
  | mk r u =>
    cases r with
    | ok => exact absurd (h.stop u hx) hc
    | error e =>
      have hu : u ∈ visited faults as s := by
        have hmem := exec_mem_visited faults as s
        rwa [hx] at hmem
      obtain hI | hok := h.visit u hu
      · exact ⟨e, u, rfl, hI⟩
      · simp [hx] at hok

lemma Stage.of_quiet {ns : List ν} (hs : I s) (hns : names (as ++ [a]) = ns)
    (hstep : ∀ a ∈ as, a.Keeps I) (hrun : exec (fun _ => false) (as ++ [a]) s = (.ok (), t)) :
    Stage faults (as ++ [a]) s t (Clear faults ns) I where
  run hc := (exec_of_clear (hns ▸ hc)).trans hrun
  stop _ hu := hns ▸ clear_of_exec_ok hu
  visit := visited_before_last hs hstep

variable {actions : κ → List (Action ν ε σ)} {entry exit : κ → σ} {clears : κ → Prop}
  {Is : κ → σ → Prop} {k : κ} {ks : List κ}
  (hstage : ∀ k, Stage faults (actions k) (entry k) (exit k) (clears k) (Is k))
  (hchain : (k :: ks).IsChain fun k k' => exit k = entry k')

include hstage hchain

/-- A program whose stages are all clear runs to the exit of the last one. -/
theorem exec_stages_ok (hclear : ∀ k' ∈ k :: ks, clears k') :
    exec faults ((k :: ks).flatMap actions) (entry k) =
      (.ok (), exit ((k :: ks).getLast (cons_ne_nil k ks))) := by
  induction ks generalizing k with
  | nil => simpa using (hstage k).run (hclear k mem_cons_self)
  | cons _ _ ih =>
    have hrest := isChain_cons_cons.mp hchain
    have hk := (hstage k).run (hclear k mem_cons_self)
    rw [flatMap_cons, exec_append_of_ok hk, hrest.1]
    simpa using ih hrest.2 fun j hj => hclear j (mem_cons_of_mem k hj)

theorem exec_stages_error {stops : κ → Bool}
    (hstops : ∀ k, stops k = true ↔ ¬clears k) {k' : κ} (hfind : (k :: ks).find? stops = some k') :
    ∃ e t, exec faults ((k :: ks).flatMap actions) (entry k) = (.error e, t) ∧ Is k' t := by
  induction ks generalizing k with
  | nil =>
    have hk : stops k = true ∧ k = k' := by simpa [find?_cons_eq_some] using hfind
    rw [← hk.2]
    simpa using (hstage k).error ((hstops k).mp hk.1)
  | cons _ _ ih =>
    have hrest := isChain_cons_cons.mp hchain
    rw [flatMap_cons]
    by_cases hk : clears k
    · have hstop : stops k = false := by simpa [hk] using hstops k
      rw [find?_cons, hstop] at hfind
      rw [exec_append_of_ok ((hstage k).run hk), hrest.1]
      exact ih hrest.2 hfind
    · obtain ⟨e, t, hx, hI⟩ := (hstage k).error hk
      rw [find?_cons, (hstops k).mpr hk] at hfind
      cases hfind
      exact ⟨e, t, exec_append_of_error hx, hI⟩

theorem clear_of_exec_stages (h : exec faults ((k :: ks).flatMap actions) (entry k) = (.ok (), t)) :
    ∀ k' ∈ k :: ks, clears k' := by
  induction ks generalizing k with
  | nil =>
    rw [flatMap_singleton] at h
    have hk : clears k := (hstage k).stop t h
    simpa using hk
  | cons _ _ ih =>
    have hrest := isChain_cons_cons.mp hchain
    rw [flatMap_cons] at h
    have hk : clears k := by
      by_contra hk
      obtain ⟨e, u, hx, -⟩ := (hstage k).error hk
      simp [exec_append_of_error hx] at h
    rw [exec_append_of_ok ((hstage k).run hk), hrest.1] at h
    exact forall_mem_cons.mpr ⟨hk, ih hrest.2 h⟩

/-- A crash strikes in a stage, or at the end; the stages before it are clear. -/
theorem visited_stages :
    ∀ t ∈ visited faults ((k :: ks).flatMap actions) (entry k),
      (∃ pre k' post, k :: ks = pre ++ k' :: post ∧ (∀ j ∈ pre, clears j) ∧ Is k' t) ∨
        (∀ j ∈ k :: ks, clears j) ∧ t = exit ((k :: ks).getLast (cons_ne_nil k ks)) := by
  induction ks generalizing k with
  | nil =>
    intro t ht
    rw [flatMap_singleton] at ht
    obtain hI | hx := (hstage k).visit t ht
    · exact .inl ⟨[], k, [], rfl, by simp, hI⟩
    · right
      have hclear := (hstage k).stop t hx
      have hrun := (hstage k).run hclear
      rw [hx] at hrun
      exact ⟨by simpa using hclear, (Prod.mk.inj hrun).2⟩
  | cons k₂ ks ih =>
    intro t ht
    have hrest := isChain_cons_cons.mp hchain
    -- the exit of a stage is the entry of the next one, whose states it belongs to
    have hnext : ∀ u, exec faults (actions k) (entry k) = (.ok (), u) →
        clears k ∧ u = entry k₂ := by
      intro u hx
      have hclear := (hstage k).stop u hx
      have hrun := (hstage k).run hclear
      rw [hx] at hrun
      exact ⟨hclear, (Prod.mk.inj hrun).2.trans hrest.1⟩
    have htail : clears k → ∀ t ∈ visited faults ((k₂ :: ks).flatMap actions) (entry k₂),
        (∃ pre k' post, k :: k₂ :: ks = pre ++ k' :: post ∧ (∀ j ∈ pre, clears j) ∧ Is k' t) ∨
          (∀ j ∈ k :: k₂ :: ks, clears j) ∧
            t = exit ((k :: k₂ :: ks).getLast (cons_ne_nil k _)) := by
      intro hk t ht
      obtain ⟨pre, k', post, heq, hpre, hI⟩ | ⟨hall, hlast⟩ := ih hrest.2 t ht
      · exact .inl ⟨k :: pre, k', post, by rw [heq]; rfl, forall_mem_cons.mpr ⟨hk, hpre⟩, hI⟩
      · exact .inr ⟨forall_mem_cons.mpr ⟨hk, hall⟩, by simpa using hlast⟩
    obtain ht | ⟨u, hu, ht⟩ := mem_visited_append.mp ht
    · obtain hI | hx := (hstage k).visit t ht
      · exact .inl ⟨[], k, k₂ :: ks, rfl, by simp, hI⟩
      · obtain ⟨hk, rfl⟩ := hnext t hx
        exact htail hk _ (mem_visited_self faults _ _)
    · obtain ⟨hk, rfl⟩ := hnext u hu
      exact htail hk t ht

end Stages

end Catomicals.Base
