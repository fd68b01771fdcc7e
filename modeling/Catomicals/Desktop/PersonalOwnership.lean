import Catomicals.Desktop.PersonalSupervisor

/-!
# The personal signer supervisor and its children

A spawned child is recorded only after the configuration file has been closed. As long as nothing
stops the recorded child in that time, there is one live child at most, and none after a dispose.
-/
namespace Catomicals.Desktop.PersonalSignerSupervisor

open Base Processes List

def Pending.unrecorded : Pending → Option ℕ
  | .closing _ _ child => some child
  | _ => none

/-- The generation a stop belongs to, if a spawn may follow it. -/
def Purpose.activates : Purpose → Option ℕ
  | .activation _ generation => some generation
  | _ => none

/-- The generation of an activation that stopped the old child and may still spawn. -/
def Pending.stoppedFor : Pending → Option ℕ
  | .stopTerm purpose _ => purpose.activates
  | .stopKill purpose => purpose.activates
  | .stopped purpose => purpose.activates
  | .writingConfig _ generation => some generation
  | .configOpened _ generation => some generation
  | _ => none

/-- The generation of an activation that may still spawn. -/
def Pending.beforeSpawn : Pending → Option ℕ
  | .provisioning _ generation => some generation
  | k => k.stoppedFor

def Pending.disposes : Pending → Bool
  | .stopTerm purpose _ => purpose = .disposal
  | .stopKill purpose => purpose = .disposal
  | .stopped purpose => purpose = .disposal
  | _ => false

/-- A task that neither spawns nor records a child, and is not of a dispose. -/
def Pending.Idle (k : Pending) : Prop :=
  k.unrecorded = none ∧ k.beforeSpawn = none ∧ k.disposes = false

def unrecorded (ks : List Pending) : List ℕ := ks.filterMap Pending.unrecorded

def beforeSpawn (ks : List Pending) : List ℕ := ks.filterMap Pending.beforeSpawn

@[simp] lemma unrecorded_append (ks ks' : List Pending) :
    unrecorded (ks ++ ks') = unrecorded ks ++ unrecorded ks' := filterMap_append

@[simp] lemma beforeSpawn_append (ks ks' : List Pending) :
    beforeSpawn (ks ++ ks') = beforeSpawn ks ++ beforeSpawn ks' := filterMap_append

lemma beforeSpawn_of_stoppedFor {k : Pending} {g : ℕ} (h : k.stoppedFor = some g) :
    k.beforeSpawn = some g := by
  cases k with
  | provisioning => cases h
  | _ => exact h

lemma mem_beforeSpawn {k : Pending} {ks : List Pending} {g : ℕ} (hk : k ∈ ks)
    (h : k.stoppedFor = some g) : g ∈ beforeSpawn ks :=
  mem_filterMap.mpr ⟨k, hk, beforeSpawn_of_stoppedFor h⟩

/-- As long as no stop misses a child, a live child is recorded or about to be, never both, and an
activation that may spawn after its stop finds neither. -/
structure Guarded (s : PersonalSignerSupervisor) (ks : List Pending) : Prop where
  live : ∀ pid, s.processes.Live pid → s.child = some pid ∨ pid ∈ unrecorded ks
  alone : unrecorded ks ≠ [] → s.child = none
  one : (unrecorded ks).length ≤ 1
  quiet : ∀ k ∈ ks, k.stoppedFor = some s.generation → s.disposed = false →
    s.child = none ∧ unrecorded ks = []
  late : s.disposed = true → s.child = none ∧ unrecorded ks = []
  fresh : ∀ g ∈ beforeSpawn ks, g ≤ s.generation
  distinct : (beforeSpawn ks).Nodup
  stopping : ∀ k ∈ ks, k.disposes = true → s.disposed = true
  resolved : s.disposeResolved = true → s.disposed = true

variable {s s' : PersonalSignerSupervisor} {ks ks' rest : List Pending} {k : Pending}

lemma Guarded.perm (h : Guarded s ks) (hperm : ks.Perm ks') : Guarded s ks' := by
  have hunrec : (unrecorded ks).Perm (unrecorded ks') := hperm.filterMap _
  have hpre : (beforeSpawn ks).Perm (beforeSpawn ks') := hperm.filterMap _
  have hnil : unrecorded ks = [] ↔ unrecorded ks' = [] :=
    ⟨fun hks => (hks ▸ hunrec).nil_eq.symm, fun hks => (hks ▸ hunrec).eq_nil⟩
  refine ⟨?_, ?_, ?_, ?_, ?_, ?_, ?_, ?_, h.resolved⟩
  · intro pid hlive
    rw [← hunrec.mem_iff]
    exact h.live pid hlive
  · intro hne
    exact h.alone fun hks => hne (hnil.mp hks)
  · rw [← hunrec.length_eq]
    exact h.one
  · intro k hk hstop hopen
    rw [← hnil]
    exact h.quiet k (hperm.mem_iff.mpr hk) hstop hopen
  · rw [← hnil]
    exact h.late
  · intro g hg
    exact h.fresh g (hpre.mem_iff.mpr hg)
  · exact hpre.nodup_iff.mp h.distinct
  · intro k hk hdisps
    exact h.stopping k (hperm.mem_iff.mpr hk) hdisps

/-- A part of a task without a new generation or child: processes only end or are signalled, and
only a child that is not live is dropped. -/
structure Settles (s s' : PersonalSignerSupervisor) : Prop where
  generation : s'.generation = s.generation
  disposed : s'.disposed = s.disposed
  resolved : s'.disposeResolved = true → s.disposeResolved = true ∨ s.disposed = true
  live : ∀ pid, s'.processes.Live pid → s.processes.Live pid
  child : s'.child = s.child ∨
    s'.child = none ∧ ∀ pid, s.child = some pid → ¬s'.processes.Live pid

lemma Settles.refl (s : PersonalSignerSupervisor) : Settles s s :=
  ⟨rfl, rfl, .inl, fun _ h => h, .inl rfl⟩

lemma Settles.child_none (h : Settles s s') (hnone : s.child = none) : s'.child = none := by
  rcases h.child with hsame | ⟨hdrop, _⟩
  · rw [hsame, hnone]
  · exact hdrop

/-- The tasks that wait after a part of a task: none has an unrecorded child or another generation,
and one that has stopped the old child had before, or that child is gone. -/
structure Continues (s' : PersonalSignerSupervisor) (before rest ks' : List Pending) : Prop where
  unrecorded_before : unrecorded before = []
  unrecorded_after : unrecorded ks' = []
  sublist : (beforeSpawn ks').Sublist (beforeSpawn before)
  stopped : ∀ k ∈ ks', ∀ g, k.stoppedFor = some g →
    (∃ k' ∈ before, k'.stoppedFor = some g) ∨ s'.child = none ∧ unrecorded rest = []
  stopping : ∀ k ∈ ks', k.disposes = true → ∃ k' ∈ before, k'.disposes = true

theorem Guarded.settles (before : List Pending) (h : Guarded s (before ++ rest))
    (hs : Settles s s') (hks : Continues s' before rest ks') : Guarded s' (rest ++ ks') := by
  have hold : unrecorded (before ++ rest) = unrecorded rest := by
    rw [unrecorded_append, hks.unrecorded_before, nil_append]
  have hnew : unrecorded (rest ++ ks') = unrecorded rest := by
    rw [unrecorded_append, hks.unrecorded_after, append_nil]
  have hsub : (beforeSpawn (rest ++ ks')).Sublist (beforeSpawn (rest ++ before)) := by
    rw [beforeSpawn_append, beforeSpawn_append]
    exact List.Sublist.append_left hks.sublist _
  have hswap : (beforeSpawn (rest ++ before)).Perm (beforeSpawn (before ++ rest)) :=
    perm_append_comm.filterMap _
  refine ⟨?_, ?_, ?_, ?_, ?_, ?_, ?_, ?_, ?_⟩
  · intro pid hlive
    rw [hnew]
    rcases h.live pid (hs.live pid hlive) with hchild | hmem
    · rcases hs.child with hsame | ⟨_, hgone⟩
      · left
        rw [hsame, hchild]
      · exact absurd hlive (hgone pid hchild)
    · right
      rwa [hold] at hmem
  · intro hne
    rw [hnew, ← hold] at hne
    exact hs.child_none (h.alone hne)
  · rw [hnew, ← hold]
    exact h.one
  · intro k hk hstop hopen
    rw [hs.generation] at hstop
    rw [hs.disposed] at hopen
    rw [hnew, ← hold]
    have hearlier : ∀ k' ∈ before ++ rest, k'.stoppedFor = some s.generation →
        s'.child = none ∧ unrecorded (before ++ rest) = [] := by
      intro k' hk' hstop'
      obtain ⟨hnone, hnil⟩ := h.quiet k' hk' hstop' hopen
      exact ⟨hs.child_none hnone, hnil⟩
    rcases mem_append.mp hk with hk | hk
    · exact hearlier k (mem_append_right _ hk) hstop
    · rcases hks.stopped k hk _ hstop with ⟨k', hk', hstop'⟩ | ⟨hnone, hnil⟩
      · exact hearlier k' (mem_append_left _ hk') hstop'
      · exact ⟨hnone, by rw [hold, hnil]⟩
  · intro hdisp
    rw [hs.disposed] at hdisp
    obtain ⟨hnone, hnil⟩ := h.late hdisp
    rw [hnew, ← hold]
    exact ⟨hs.child_none hnone, hnil⟩
  · intro g hg
    rw [hs.generation]
    exact h.fresh g (hswap.mem_iff.mp (hsub.subset hg))
  · exact (hswap.nodup_iff.mpr h.distinct).sublist hsub
  · intro k hk hdisps
    rw [hs.disposed]
    rcases mem_append.mp hk with hk | hk
    · exact h.stopping k (mem_append_right _ hk) hdisps
    · obtain ⟨k', hk', hdisps'⟩ := hks.stopping k hk hdisps
      exact h.stopping k' (mem_append_left _ hk') hdisps'
  · intro hres
    rw [hs.disposed]
    rcases hs.resolved hres with hpre | hdisp
    · exact h.resolved hpre
    · exact hdisp

variable {key : PersonalSignerRuntimeSettings} {generation child : ℕ} {ready completed : Bool}

theorem Guarded.configures (h : Guarded s rest) :
    Guarded { s with generation := s.generation + 1 }
      (rest ++ [.provisioning key (s.generation + 1)]) := by
  have hnew : unrecorded (rest ++ [.provisioning key (s.generation + 1)]) = unrecorded rest := by
    rw [unrecorded_append]
    exact append_nil _
  have hpre : beforeSpawn (rest ++ [.provisioning key (s.generation + 1)]) =
      beforeSpawn rest ++ [s.generation + 1] := beforeSpawn_append _ _
  refine ⟨?_, ?_, ?_, ?_, ?_, ?_, ?_,
    forall_mem_append.mpr ⟨h.stopping, forall_mem_singleton.mpr nofun⟩, h.resolved⟩
  · rw [hnew]
    exact h.live
  · rw [hnew]
    exact h.alone
  · rw [hnew]
    exact h.one
  · -- no earlier task belongs to the new generation
    refine forall_mem_append.mpr ⟨?_, forall_mem_singleton.mpr nofun⟩
    intro k hk hstop _
    have hle := h.fresh _ (mem_beforeSpawn hk hstop)
    dsimp only at hle
    omega
  · rw [hnew]
    exact h.late
  · rw [hpre]
    exact forall_mem_append.mpr
      ⟨fun g hg => (h.fresh g hg).trans (Nat.le_succ _), forall_mem_singleton.mpr le_rfl⟩
  · rw [hpre]
    refine h.distinct.append (nodup_singleton _) (disjoint_singleton.mpr fun hg => ?_)
    have hle := h.fresh _ hg
    omega

/-- A spawn of the current generation keeps the guard: its stop came after the last recording. -/
theorem Guarded.spawns (h : Guarded s (.configOpened key s.generation :: rest))
    (hopen : s.disposed = false) : Guarded { s with processes := s.processes.start key }
      (rest ++ [.closing key s.generation s.processes.length]) := by
  obtain ⟨hnone, hnil⟩ := h.quiet _ mem_cons_self rfl hopen
  have hnil' : unrecorded rest = [] := hnil
  have hnew : unrecorded (rest ++ [.closing key s.generation s.processes.length]) =
      [s.processes.length] := by
    rw [unrecorded_append, hnil']
    rfl
  have hpre : beforeSpawn (rest ++ [.closing key s.generation s.processes.length]) =
      beforeSpawn rest := by
    rw [beforeSpawn_append]
    exact append_nil _
  have hcons : beforeSpawn (.configOpened key s.generation :: rest) =
      s.generation :: beforeSpawn rest := rfl
  have hfresh := h.fresh
  have hdist := h.distinct
  refine ⟨?_, fun _ => hnone, by rw [hnew]; exact le_rfl, ?_, ?_, ?_, ?_, forall_mem_append.mpr
    ⟨(forall_mem_cons.mp h.stopping).2, forall_mem_singleton.mpr nofun⟩, h.resolved⟩
  · intro pid hlive
    rw [hnew]
    rcases live_start.mp hlive with hlive | hlast
    · rcases h.live pid hlive with hrecd | hmem
      · simp [hnone] at hrecd
      · simp [hnil] at hmem
    · right
      rw [hlast]
      exact mem_singleton_self _
  · -- another task of this generation would have the same number
    refine forall_mem_append.mpr ⟨?_, forall_mem_singleton.mpr nofun⟩
    intro k hk hstop _
    exact absurd (mem_beforeSpawn hk hstop) (nodup_cons.mp hdist).1
  · intro hlate
    exact absurd (hopen.symm.trans hlate) (by decide)
  · rw [hpre]
    exact (forall_mem_cons.mp hfresh).2
  · rw [hpre]
    exact (nodup_cons.mp hdist).2

theorem Guarded.records (h : Guarded s (.closing key generation child :: rest)) :
    Guarded { s with child := some child }
      (rest ++ [.listening key generation child ready completed]) := by
  have hcons : unrecorded (.closing key generation child :: rest) = child :: unrecorded rest := rfl
  have hone := h.one
  rw [hcons, length_cons] at hone
  have hnil : unrecorded rest = [] := length_eq_zero_iff.mp (by omega)
  have hne : unrecorded (.closing key generation child :: rest) ≠ [] := by
    exact cons_ne_nil _ _
  have hnone := h.alone hne
  have hnew : unrecorded (rest ++ [.listening key generation child ready completed]) = [] := by
    rw [unrecorded_append, hnil]
    rfl
  have hpre : beforeSpawn (rest ++ [.listening key generation child ready completed]) =
      beforeSpawn rest := by
    rw [beforeSpawn_append]
    exact append_nil _
  refine ⟨?_, ?_, ?_, ?_, ?_, ?_, ?_, ?_, h.resolved⟩
  · intro pid hlive
    left
    rcases h.live pid hlive with hrecd | hmem
    · simp [hnone] at hrecd
    · rw [hcons, hnil, mem_singleton] at hmem
      rw [hmem]
  · intro hne'
    exact absurd hnew hne'
  · rw [hnew]
    exact Nat.zero_le _
  · refine forall_mem_append.mpr ⟨?_, forall_mem_singleton.mpr nofun⟩
    intro k hk hstop hopen
    exact absurd (h.quiet k (mem_cons_of_mem _ hk) hstop hopen).2 hne
  · intro hlate
    exact absurd (h.late hlate).2 hne
  · rw [hpre]
    exact h.fresh
  · rw [hpre]
    exact h.distinct
  · exact forall_mem_append.mpr
      ⟨(forall_mem_cons.mp h.stopping).2, forall_mem_singleton.mpr nofun⟩

theorem Guarded.disposes (h : Guarded s rest) (hnil : unrecorded rest = [])
    (hgen : s'.generation = s.generation + 1) (hdisp : s'.disposed = true)
    (hchild : s'.child = none)
    (hlive : ∀ pid, s'.processes.Live pid → s.processes.Live pid ∧ s.child ≠ some pid)
    (hks : ∀ k ∈ ks', k.unrecorded = none ∧ k.beforeSpawn = none) : Guarded s' (rest ++ ks') := by
  have hnew : unrecorded (rest ++ ks') = [] := by
    rw [unrecorded_append, hnil]
    exact filterMap_eq_nil_iff.mpr fun k hk => (hks k hk).1
  have hpre : beforeSpawn (rest ++ ks') = beforeSpawn rest := by
    have hnone : beforeSpawn ks' = [] := filterMap_eq_nil_iff.mpr fun k hk => (hks k hk).2
    rw [beforeSpawn_append, hnone, append_nil]
  refine ⟨?_, ?_, ?_, ?_, ?_, ?_, ?_, fun _ _ _ => hdisp, fun _ => hdisp⟩
  · intro pid hlive'
    obtain ⟨hold, hother⟩ := hlive pid hlive'
    rcases h.live pid hold with hrecd | hmem
    · exact absurd hrecd hother
    · simp [hnil] at hmem
  · intro _
    exact hchild
  · rw [hnew]
    exact Nat.zero_le _
  · intro k _ _ hopen
    simp [hdisp] at hopen
  · intro _
    exact ⟨hchild, hnew⟩
  · intro g hg
    rw [hpre] at hg
    have hle := h.fresh g hg
    omega
  · rw [hpre]
    exact h.distinct

lemma Continues.ends (hk : k.unrecorded = none)
    (hks : ∀ k' ∈ ks', k'.Idle) : Continues s' [k] rest ks' := by
  have hnone : beforeSpawn ks' = [] := filterMap_eq_nil_iff.mpr fun k hk => (hks k hk).2.1
  refine ⟨?_, ?_, ?_, ?_, ?_⟩
  · exact filterMap_eq_nil_iff.mpr fun k' hk' => by rw [mem_singleton.mp hk', hk]
  · exact filterMap_eq_nil_iff.mpr fun k hk => (hks k hk).1
  · rw [hnone]
    exact nil_sublist _
  · intro k' hk' g hstop
    have hspawn := beforeSpawn_of_stoppedFor hstop
    simp [(hks k' hk').2.1] at hspawn
  · intro k' hk' hdisps
    simp [(hks k' hk').2.2] at hdisps

lemma Continues.advances {k' : Pending} (hk : k.unrecorded = none) (hk' : k'.unrecorded = none)
    (hspawn : k'.beforeSpawn = k.beforeSpawn) (hdisps : k'.disposes = k.disposes)
    (hstop : k'.stoppedFor = k.stoppedFor ∨ s'.child = none ∧ unrecorded rest = []) :
    Continues s' [k] rest [k'] := by
  refine ⟨?_, ?_, ?_, ?_, ?_⟩
  · simp [unrecorded, hk]
  · simp [unrecorded, hk']
  · rw [show beforeSpawn [k'] = beforeSpawn [k] by simp [beforeSpawn, filterMap_cons, hspawn]]
  · intro k'' hk'' g hg
    rw [mem_singleton.mp hk''] at hg
    rcases hstop with hsame | hgone
    · left
      exact ⟨k, mem_singleton_self k, by rw [← hsame, hg]⟩
    · right
      exact hgone
  · intro _ hk'' hk''disposes
    rw [mem_singleton.mp hk'', hdisps] at hk''disposes
    exact ⟨k, mem_singleton_self k, hk''disposes⟩

lemma Settles.trans {s'' : PersonalSignerSupervisor} (h : Settles s s') (h' : Settles s' s'') :
    Settles s s'' := by
  refine ⟨h'.generation.trans h.generation, h'.disposed.trans h.disposed, ?_,
    fun pid hlive => h.live pid (h'.live pid hlive), ?_⟩
  · intro hres
    rcases h'.resolved hres with hpre | hdisp
    · exact h.resolved hpre
    · right
      rw [← h.disposed, hdisp]
  rcases h'.child with hsame' | ⟨hdrop', hgone'⟩
  · rcases h.child with hsame | ⟨hdrop, hgone⟩
    · left
      rw [hsame', hsame]
    · right
      exact ⟨by rw [hsame', hdrop], fun pid hpid hlive => hgone pid hpid (h'.live pid hlive)⟩
  · right
    refine ⟨hdrop', fun pid hpid hlive => ?_⟩
    rcases h.child with hsame | ⟨_, hgone⟩
    · exact hgone' pid (by rw [hsame, hpid]) hlive
    · exact hgone pid hpid (h'.live pid hlive)

lemma finishFailure_settles (generation : ℕ) (errorCode : PersonalSignerErrorCode) :
    Settles s (finishFailure generation errorCode s) := by
  unfold finishFailure
  split_ifs
  · exact { Settles.refl s with }
  · exact .refl s

lemma settles_drop (child : ℕ) (hgen : s'.generation = s.generation)
    (hdisp : s'.disposed = s.disposed) (hres : s'.disposeResolved = s.disposeResolved)
    (hchild : s'.child = if s.child = some child then none else s.child)
    (hlive : ∀ pid, s'.processes.Live pid → s.processes.Live pid ∧ pid ≠ child) :
    Settles s s' := by
  refine ⟨hgen, hdisp, fun h => .inl (hres ▸ h), fun pid h => (hlive pid h).1, ?_⟩
  by_cases hsame : s.child = some child
  · right
    refine ⟨by rw [hchild, if_pos hsame], ?_⟩
    intro pid hpid h
    rw [hsame] at hpid
    exact (hlive pid h).2 (Option.some.inj hpid).symm
  · left
    rw [hchild, if_neg hsame]

lemma stopChild_settles (purpose : Purpose) : Settles s (stopChild purpose s).1 ∧
    (stopChild purpose s).1.child = none ∧ ∃ k, (stopChild purpose s).2 = [k] ∧
      k.unrecorded = none ∧ k.beforeSpawn = purpose.activates ∧
      k.disposes = decide (purpose = .disposal) := by
  unfold stopChild
  cases hchild : s.child with
  | none => exact ⟨.refl s, hchild, .stopped purpose, rfl, rfl, rfl, rfl⟩
  | some child =>
    refine ⟨⟨rfl, rfl, .inl, ?_, .inr ⟨rfl, ?_⟩⟩, rfl, .stopTerm purpose child, rfl, rfl, rfl, rfl⟩
    · intro pid hlive
      exact (live_signal.mp hlive).1
    · intro _ hpid hlive
      rw [hchild] at hpid
      exact (live_signal.mp hlive).2 (Option.some.inj hpid).symm

variable (key)

lemma failReady_settles (generation child : ℕ) (completed : Bool)
    (errorCode : PersonalSignerErrorCode) :
    Settles s (failReady key generation child completed errorCode s).1 := by
  cases completed with
  | true => exact .refl s
  | false =>
    simp only [failReady, finishFailure, Bool.false_eq_true, if_false]
    split_ifs <;> exact settles_drop child rfl rfl rfl rfl fun _ => live_signal.mp

lemma childClosed_settles {code : Option ℕ} {stderr : String} (hexited : s.processes.Exited child) :
    Settles s (childClosed key generation child ready completed code stderr s).1 := by
  have hdrop : Settles s (dropChild child s) := by
    refine settles_drop child rfl rfl rfl rfl fun pid hlive => ⟨hlive, ?_⟩
    intro heq
    rw [heq] at hlive
    exact not_live_of_exited hexited hlive
  cases ready with
  | false => exact hdrop.trans (failReady_settles _ _ _ _ _)
  | true =>
    simp only [childClosed, Bool.true_eq_false, if_false]
    split_ifs
    · exact hdrop.trans { Settles.refl _ with }
    · exact hdrop

lemma failReady_pending (generation child : ℕ) (completed : Bool)
    (errorCode : PersonalSignerErrorCode) :
    ∀ k ∈ (failReady key generation child completed errorCode s).2, k.Idle := by
  cases completed with
  | true => exact forall_mem_nil _
  | false => exact forall_mem_singleton.mpr ⟨rfl, rfl, rfl⟩

lemma childClosed_pending (generation child : ℕ) (ready completed : Bool) (code : Option ℕ)
    (stderr : String) :
    ∀ k ∈ (childClosed key generation child ready completed code stderr s).2, k.Idle := by
  cases ready with
  | false => exact failReady_pending _ _ _ _ _
  | true =>
    simp only [childClosed, Bool.true_eq_false, if_false]
    split_ifs <;> exact forall_mem_nil _

variable {key}

lemma Guarded.listens (h : Guarded s (.listening key generation child ready completed :: rest))
    {reply : Reply} {r : Segment}
    (hr : listening key generation child ready completed reply s = some r) :
    Guarded r.1 (rest ++ r.2) := by
  have hkept : ∀ {ready' : Bool} {r' : Segment}, Settles s r'.1 → (∀ k ∈ r'.2, k.Idle) →
      keepListening (.listening key generation child ready' true) r' = some r →
      Guarded r.1 (rest ++ r.2) := by
    intro _ _ hs hks hr
    cases hr
    exact Guarded.settles [_] h hs (.ends rfl (forall_mem_cons.mpr ⟨⟨rfl, rfl, rfl⟩, hks⟩))
  unfold listening at hr
  split at hr
  · split_ifs at hr
    · refine hkept ?_ ?_ hr
      · unfold acceptReady
        dsimp only
        split_ifs
        · exact { Settles.refl s with }
        · exact .refl s
      · unfold acceptReady
        dsimp only
        split_ifs
        · exact forall_mem_nil _
        · exact forall_mem_singleton.mpr ⟨rfl, rfl, rfl⟩
    · exact hkept (failReady_settles _ _ _ _ _) (failReady_pending _ _ _ _ _) hr
  · split_ifs at hr
    exact hkept (failReady_settles _ _ _ _ _) (failReady_pending _ _ _ _ _) hr
  · exact hkept (failReady_settles _ _ _ _ _) (failReady_pending _ _ _ _ _) hr
  · split_ifs at hr with hexited
    cases hr
    exact Guarded.settles [_] h (childClosed_settles key hexited)
      (.ends rfl (childClosed_pending _ _ _ _ _ _ _))
  · cases hr

/-- A dispose, or the activation of the current generation on its way to a spawn. -/
def stopsChild (c : Config PersonalSignerSupervisor Pending) : Event Call Reply → Bool
  | .call .dispose => !c.shared.disposed
  | .resume i (.provisioned .found) => !c.shared.disposed &&
    match c.waiting[i]? with
    | some (.provisioning _ generation) => generation == c.shared.generation
    | _ => false
  | _ => false

lemma Guarded.calls {x : Call} (h : Guarded s ks)
    (hstop : x = .dispose → s.disposed = false → unrecorded ks = []) :
    Guarded (call x s).1 (ks ++ (call x s).2) := by
  have hstays : ∀ {s' : PersonalSignerSupervisor}, Settles s s' → Guarded s' (ks ++ []) := by
    intro _ hs
    exact Guarded.settles [] h hs ⟨rfl, rfl, .refl _, forall_mem_nil _, forall_mem_nil _⟩
  cases x with
  | configure =>
    simp only [call, configure]
    split_ifs
    · exact hstays (.refl s)
    · split
      · exact hstays (.refl s)
      · split_ifs
        · exact hstays (.refl s)
        · exact hstays (.refl s)
        · exact { h.configures with }
  | dispose =>
    simp only [call, dispose]
    split_ifs with hdisp
    · exact hstays { Settles.refl s with resolved := fun _ => .inr hdisp }
    · obtain ⟨hs, hchild, k, hk, hkfields⟩ := stopChild_settles (s := { s with
        disposed := true, generation := s.generation + 1, activeKey := none }) .disposal
      refine h.disposes (hstop rfl (by simpa using hdisp)) hs.generation hs.disposed hchild ?_ ?_
      · intro pid hlive
        refine ⟨hs.live pid hlive, fun hpid => ?_⟩
        rcases hs.child with hsame | ⟨_, hgone⟩
        · rw [hchild] at hsame
          rw [← hsame] at hpid
          cases hpid
        · exact hgone pid hpid hlive
      · intro _ hk'
        rw [hk, mem_singleton] at hk'
        rw [hk']
        exact ⟨hkfields.1, hkfields.2.1⟩
  | exit =>
    exact hstays ⟨rfl, rfl, .inl, fun q hlive => (live_exit.mp hlive).1, .inl rfl⟩

lemma Guarded.reads {result : Provisioning} (h : Guarded s (.provisioning key generation :: rest))
    (hstop : result = .found → s.disposed = false → generation = s.generation →
      unrecorded rest = []) :
    Guarded (provisioned key generation result s).1
      (rest ++ (provisioned key generation result s).2) := by
  have hfin : ∀ {s' : PersonalSignerSupervisor}, Settles s s' →
      Guarded s' (rest ++ [.finished generation]) := by
    intro _ hs
    exact Guarded.settles [_] h hs (.ends rfl (forall_mem_singleton.mpr ⟨rfl, rfl, rfl⟩))
  cases result with
  | permissions | invalid => exact hfin (finishFailure_settles _ _)
  | missing =>
    obtain ⟨hs, _, k, hk, hunrec, hspawn, hdisps⟩ :=
      stopChild_settles (s := s) (.unconfigured generation)
    refine Guarded.settles [_] h hs (.ends rfl ?_)
    intro k' hk'
    have hmem : k' ∈ (stopChild (.unconfigured generation) s).2 := hk'
    rw [hk, mem_singleton] at hmem
    rw [hmem]
    exact ⟨hunrec, hspawn, hdisps⟩
  | found =>
    simp only [provisioned]
    split_ifs with hstale
    · exact hfin (.refl s)
    · have hopen : s.disposed = false := by
        simpa using fun hd => hstale (.inl hd)
      have hcur : generation = s.generation := by
        by_contra hne
        exact hstale (.inr hne)
      obtain ⟨hs, hnone, k, hk, hunrec, hspawn, hdisps⟩ :=
        stopChild_settles (s := s) (.activation key generation)
      rw [hk]
      exact Guarded.settles [_] h hs
        (.advances rfl hunrec hspawn hdisps (.inr ⟨hnone, hstop rfl hopen hcur⟩))

/-- A continuation keeps the guard, if it stops no child while another is unrecorded. -/
lemma Guarded.resumes {reply : Reply} {r : Segment} (h : Guarded s (k :: rest))
    (hr : resume k reply s = some r)
    (hstop : ∀ key, k = .provisioning key s.generation → reply = .provisioned .found →
      s.disposed = false → unrecorded rest = []) :
    Guarded r.1 (rest ++ r.2) := by
  have hends : ∀ {s' : PersonalSignerSupervisor} {ks' : List Pending}, k.unrecorded = none →
      Settles s s' → (∀ k' ∈ ks', k'.Idle) → Guarded s' (rest ++ ks') :=
    fun hk hs hks => Guarded.settles [_] h hs (.ends hk hks)
  have hfin : ∀ {g : ℕ}, ∀ k' ∈ [Pending.finished g], k'.Idle :=
    forall_mem_singleton.mpr ⟨rfl, rfl, rfl⟩
  have hidle : ∀ {g : ℕ}, ∀ k' ∈ [Pending.closingIdle g], k'.Idle :=
    forall_mem_singleton.mpr ⟨rfl, rfl, rfl⟩
  have hadvances : ∀ {s' : PersonalSignerSupervisor} {k' : Pending}, k.unrecorded = none →
      Settles s s' → k'.unrecorded = none → k'.beforeSpawn = k.beforeSpawn →
      k'.disposes = k.disposes → k'.stoppedFor = k.stoppedFor → Guarded s' (rest ++ [k']) :=
    fun hk hs hk' hspawn hdisps hsame =>
      Guarded.settles [_] h hs (.advances hk hk' hspawn hdisps (.inl hsame))
  unfold resume at hr
  split at hr
  · cases hr
    rename_i key generation result
    refine h.reads fun hfound hopen hcur => ?_
    exact hstop key (by rw [hcur]) (by rw [hfound]) hopen
  · split_ifs at hr <;> cases hr
    · exact hadvances rfl (.refl s) rfl rfl rfl rfl
    · refine hadvances rfl ?_ rfl rfl rfl rfl
      exact ⟨rfl, rfl, .inl, fun pid hlive => (live_signal.mp hlive).1, .inl rfl⟩
  · cases hr
    exact hadvances rfl (.refl s) rfl rfl rfl rfl
  · cases hr
    rename_i purpose
    cases purpose with
    | unconfigured =>
      exact hends rfl { Settles.refl s with } hfin
    | activation => exact hadvances rfl (.refl s) rfl rfl rfl rfl
    | disposal =>
      have hdisp := h.stopping _ mem_cons_self rfl
      exact hends rfl { Settles.refl s with resolved := fun _ => .inr hdisp }
        (forall_mem_nil _)
  · split_ifs at hr <;> cases hr
    · exact hadvances rfl (.refl s) rfl rfl rfl rfl
    · exact hends rfl (finishFailure_settles _ _) hfin
  · cases hr
    rename_i key generation succeeded spawns
    unfold configOpened
    split_ifs with hstale
    · exact hends rfl (.refl s) hidle
    · have hcur : generation = s.generation := by
        by_contra hne
        exact hstale (.inr (.inr hne))
      have hopen : s.disposed = false := by
        simpa using fun hd => hstale (.inr (.inl hd))
      subst hcur
      exact { h.spawns hopen with }
    · have hstarting : Settles s { s with statusValue := .starting generation } :=
        { Settles.refl s with }
      exact hends rfl (hstarting.trans (finishFailure_settles _ _)) hidle
  · cases hr
    exact hends rfl (.refl s) hfin
  · cases hr
    exact h.records
  · exact h.listens hr
  · cases hr
    exact hends rfl { Settles.refl s with } hfin
  · split_ifs at hr <;> cases hr
    · exact hends rfl { Settles.refl s with } (forall_mem_nil _)
    · exact hends rfl (.refl s) (forall_mem_nil _)
  · cases hr

/-- An event keeps the guard, if it stops no child while another is unrecorded. -/
theorem Guarded.step {c : Config PersonalSignerSupervisor Pending} {e : Event Call Reply}
    (h : Guarded c.shared c.waiting)
    (hstop : stopsChild c e = true → unrecorded c.waiting = []) :
    Guarded (program.step c e).shared (program.step c e).waiting := by
  refine Program.step_keeps (P := program) (I := fun c => Guarded c.shared c.waiting)
    (C := fun c e => stopsChild c e = true → unrecorded c.waiting = []) ?_ ?_ c e h hstop
  · intro c x h hstop
    refine h.calls fun hx hopen => hstop ?_
    rw [hx]
    simp [stopsChild, hopen]
  · intro c i k _ r hi hr h hstop
    have hperm : c.waiting.Perm (k :: (c.without i).waiting) := c.perm_without hi
    refine (h.perm hperm).resumes hr fun key hk hreply hopen => ?_
    have hnil : unrecorded c.waiting = [] := by
      apply hstop
      rw [hk] at hi
      simp [stopsChild, hreply, hopen, hi]
    have hsplit : (unrecorded c.waiting).Perm (unrecorded (k :: (c.without i).waiting)) :=
      hperm.filterMap _
    rw [hnil, hk] at hsplit
    exact hsplit.nil_eq.symm

variable (events : List (Event Call Reply))

def after (n : ℕ) : Config PersonalSignerSupervisor Pending :=
  program.run ⟨.fresh, []⟩ (events.take n)

/-- At any time of a run, one live process at most, and none once a dispose has resolved. -/
structure SingleSigner : Prop where
  one : ∀ n p q, (after events n).shared.processes.Live p →
    (after events n).shared.processes.Live q → p = q
  none_left : ∀ n, (after events n).shared.disposeResolved = true →
    ∀ p, ¬(after events n).shared.processes.Live p

lemma guarded_fresh : Guarded .fresh [] := by
  refine ⟨?_, fun _ => rfl, Nat.zero_le _, forall_mem_nil _, fun _ => ⟨rfl, rfl⟩, forall_mem_nil _,
    nodup_nil, forall_mem_nil _, nofun⟩
  rintro pid ⟨p, hp, _⟩
  cases hp

/-- If no dispose and no activation on its way to a spawn stops the recorded child while another is
unrecorded, one child at most is live, and none once a dispose has resolved. -/
theorem singleSigner_of_recorded (events : List (Event Call Reply))
    (h : ∀ n e, events[n]? = some e → stopsChild (after events n) e = true →
      unrecorded (after events n).waiting = []) : SingleSigner events := by
  have hguarded : ∀ n, Guarded (after events n).shared (after events n).waiting := by
    apply Program.run_keeps (P := program) (I := fun c => Guarded c.shared c.waiting)
      (C := fun c e => stopsChild c e = true → unrecorded c.waiting = []) guarded_fresh
    · intro c e hc hstop
      exact hc.step hstop
    · exact h
  constructor
  · intro n p q hp hq
    have hg := hguarded n
    rcases hg.live p hp with hp | hp
    · rcases hg.live q hq with hq | hq
      · rw [hp] at hq
        exact Option.some.inj hq
      · have hnone := hg.alone (ne_nil_of_mem hq)
        simp [hnone] at hp
    · rcases hg.live q hq with hq | hq
      · have hnone := hg.alone (ne_nil_of_mem hp)
        simp [hnone] at hq
      · obtain ⟨child, hchild⟩ := length_eq_one_iff.mp
          (Nat.le_antisymm hg.one (length_pos_of_mem hp))
        rw [hchild, mem_singleton] at hp hq
        rw [hp, hq]
  · intro n hres p hp
    have hg := hguarded n
    obtain ⟨hnone, hnil⟩ := hg.late (hg.resolved hres)
    rcases hg.live p hp with hchild | hmem
    · simp [hnone] at hchild
    · simp [hnil] at hmem

def sampleRuntime (sessionTimeoutMs : ℤ) : PersonalSignerRuntimeSettings :=
  ⟨"frost-secp256k1-tr-v1", 2, 1000, sessionTimeoutMs, none, none⟩

/-- Two configurations in turn and a dispose, each child recorded before the next stop. -/
def reconfigured : List (Event Call Reply) :=
  [.call (.configure (sampleRuntime 2000)), .resume 0 (.provisioned .found), .resume 0 .settled,
    .resume 0 (.wrote true), .resume 0 (.hooked true true), .resume 0 .closedFile,
    .call (.configure (sampleRuntime 3000)), .resume 1 (.provisioned .found),
    .resume 1 (.raced false), .resume 1 (.raced false), .resume 1 .settled, .resume 1 (.wrote true),
    .resume 1 (.hooked true true), .resume 1 .closedFile, .call .dispose, .resume 2 (.raced false),
    .resume 2 (.raced false), .resume 2 .settled]

theorem singleSigner_reconfigured : SingleSigner reconfigured ∧
    (after reconfigured 14).shared.processes.Live 1 ∧
    (after reconfigured 18).shared.disposeResolved = true := by
  have hstops : ∀ n < reconfigured.length, ∀ e ∈ reconfigured[n]?,
      stopsChild (after reconfigured n) e = true →
        unrecorded (after reconfigured n).waiting = [] := by decide +kernel
  refine ⟨?_, by decide +kernel, by decide +kernel⟩
  apply singleSigner_of_recorded
  intro n e he hstop
  have hn : n < reconfigured.length := (List.getElem?_eq_some_iff.mp he).1
  exact hstops n hn e he hstop

/-- The same, while the configuration file of the first child is still being closed. -/
def overtaken : List (Event Call Reply) :=
  [.call (.configure (sampleRuntime 2000)), .resume 0 (.provisioned .found), .resume 0 .settled,
    .resume 0 (.wrote true), .resume 0 (.hooked true true), .call (.configure (sampleRuntime 3000)),
    .resume 1 (.provisioned .found), .resume 1 .settled, .resume 1 (.wrote true),
    .resume 1 (.hooked true true), .call .dispose, .resume 2 .settled]

/-- Two children are live, and both still are when the dispose has resolved. -/
theorem not_singleSigner_overtaken : ¬SingleSigner overtaken ∧
    (after overtaken 12).shared.disposeResolved = true ∧
    (after overtaken 12).shared.processes.Live 0 ∧
    (after overtaken 12).shared.processes.Live 1 := by
  have hfirst : (after overtaken 12).shared.processes.Live 0 := by decide +kernel
  have hsnd : (after overtaken 12).shared.processes.Live 1 := by decide +kernel
  refine ⟨?_, by decide +kernel, hfirst, hsnd⟩
  intro h
  have heq := h.one 12 0 1 hfirst hsnd
  omega

end Catomicals.Desktop.PersonalSignerSupervisor
