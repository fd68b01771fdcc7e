import Catomicals.Desktop.ExecutorRegistry
import Mathlib.Data.List.Nodup

/-!
# One process for each executor session

`send` looks at the state of a session before it awaits the prepared prompt, and starts the process
after it. If the state would pass a second look, and no session is entered once a `disposeAll` has
begun, then a session has one running process at most.
-/
namespace Catomicals.Desktop.ExecutorRegistry

open Base Pending Processes List

def Pending.sending : Pending → Option ℕ
  | .sendProcess ref _ => some ref
  | _ => none

def Pending.creating : Pending → Option String
  | .createProfile _ sessionId => some sessionId
  | .createProbe _ sessionId => some sessionId
  | .createResources _ sessionId _ => some sessionId
  | .createCleanup sessionId => some sessionId
  | _ => none

def Pending.sweeps : Pending → Bool
  | .disposeAllResources _ => true
  | .disposeHost _ => true
  | _ => false

variable (s : ExecutorRegistry)

def keys : List String := s.sessions.map Prod.fst

variable (ks : List Pending)

/-- The ids of sessions in creation are reserved, different, and not in the map. -/
structure Reserved : Prop where
  one : (ks.filterMap creating).Nodup
  pending : ∀ id ∈ ks.filterMap creating, id ∈ s.pendingSessionIds
  free : ∀ id ∈ ks.filterMap creating, id ∉ s.keys
  keys_nodup : s.keys.Nodup

/-- A session not disposed is in the map, and there is none once a `disposeAll` has begun. -/
structure Listed : Prop where
  listed : ∀ (ref : ℕ) (r : SessionRecord), s.records[ref]? = some r → r.disposed = false →
    ∃ id, (id, ref) ∈ s.sessions
  state : ∀ (ref : ℕ) (r : SessionRecord), s.records[ref]? = some r → r.disposed = true →
    r.state = .disposed ∨ r.state = .running
  none_left : s.sweeping = true → ∀ (ref : ℕ) (r : SessionRecord), s.records[ref]? = some r →
    r.disposed = true
  sweeps : ∀ k ∈ ks, k.sweeps = true → s.sweeping = true
  swept : s.swept = true → s.sweeping = true

/-- A running process is awaited by a task, and at most one task awaits a session's process. -/
structure Awaited : Prop where
  task : ∀ pid ref, s.processes.RunsFor pid ref → sendProcess ref pid ∈ ks
  state : ∀ ref pid, sendProcess ref pid ∈ ks → ∃ r : SessionRecord,
    s.records[ref]? = some r ∧ (r.state = .running ∨ r.state = .disposed)
  one : (ks.filterMap sending).Nodup
  known : ∀ ref, sendPrompt ref ∈ ks → ref < s.records.length

variable {s s' t : ExecutorRegistry} {ks ks' rest : List Pending} {k : Pending} {H : ExecutorHost}

/-- Continuations without an own process that may wait in place of those before. -/
structure Follows (s : ExecutorRegistry) (before ks : List Pending) : Prop where
  creating : (ks.filterMap creating).Sublist (before.filterMap creating)
  sending : ks.filterMap sending = []
  sweeps : ∀ k ∈ ks, k.sweeps = true → s.sweeping = true
  known : ∀ ref, .sendPrompt ref ∈ ks → ref < s.records.length

lemma Follows.nil {before : List Pending} : Follows s before [] :=
  ⟨nil_sublist _, rfl, nofun, nofun⟩

lemma Follows.one {before : List Pending}
    (hcrea : ([k].filterMap Pending.creating).Sublist (before.filterMap Pending.creating))
    (hsending : k.sending = none) (hsweeps : k.sweeps = true → s.sweeping = true)
    (hknown : ∀ ref, k = .sendPrompt ref → ref < s.records.length) : Follows s before [k] := by
  refine ⟨hcrea, by simp [hsending], forall_mem_singleton.mpr hsweeps, ?_⟩
  intro ref hk
  exact hknown ref (mem_singleton.mp hk).symm

lemma Reserved.mono {labels : List String} (h : Reserved s ks)
    (hpend : s'.pendingSessionIds = s.pendingSessionIds) (hkeys : s'.keys.Sublist s.keys)
    (hperm : (ks.filterMap creating).Perm labels)
    (hsub : (ks'.filterMap creating).Sublist labels) : Reserved s' ks' := by
  have hold : ∀ id ∈ ks'.filterMap creating, id ∈ ks.filterMap creating :=
    fun id hid => hperm.mem_iff.mpr (hsub.subset hid)
  refine ⟨(hperm.nodup_iff.mp h.one).sublist hsub, ?_, ?_, h.keys_nodup.sublist hkeys⟩
  · intro id hid
    rw [hpend]
    exact h.pending id (hold id hid)
  · intro id hid hmem
    exact h.free id (hold id hid) (hkeys.subset hmem)

lemma Reserved.settles (before : List Pending) (h : Reserved s (before ++ rest))
    (hpend : s'.pendingSessionIds = s.pendingSessionIds) (hkeys : s'.keys.Sublist s.keys)
    (hks : (ks'.filterMap creating).Sublist (before.filterMap creating)) :
    Reserved s' (rest ++ ks') := by
  refine h.mono hpend hkeys (perm_append_comm.filterMap _) ?_
  rw [filterMap_append, filterMap_append]
  exact List.Sublist.append_left hks _

variable {sessionId : String} {provider : ExecutorProviderId} {f : SessionRecord → SessionRecord}
  {ref : ℕ} {record : SessionRecord}

lemma Reserved.creates (h : Reserved s rest) (hfree : sessionId ∉ s.keys)
    (hnew : sessionId ∉ s.pendingSessionIds)
    (hpend : s'.pendingSessionIds = sessionId :: s.pendingSessionIds) (hkeys : s'.keys = s.keys) :
    Reserved s' (rest ++ [.createProfile provider sessionId]) := by
  have hlabels : (rest ++ [createProfile provider sessionId]).filterMap creating =
      rest.filterMap creating ++ [sessionId] := filterMap_append
  refine ⟨?_, ?_, ?_, by rw [hkeys]; exact h.keys_nodup⟩ <;> rw [hlabels]
  · exact h.one.append (nodup_singleton _)
      (disjoint_singleton.mpr fun hid => hnew (h.pending _ hid))
  · rw [forall_mem_append, forall_mem_singleton, hpend]
    exact ⟨fun id hid => mem_cons_of_mem _ (h.pending id hid), mem_cons_self⟩
  · rw [forall_mem_append, forall_mem_singleton, hkeys]
    exact ⟨h.free, hfree⟩

lemma Reserved.ends (h : Reserved s (k :: rest)) (hk : k.creating = some sessionId)
    (hpending : s'.pendingSessionIds = s.pendingSessionIds.filter (· ≠ sessionId))
    (hkeys : ∀ id ∈ s'.keys, id ∈ s.keys ∨ id = sessionId) (hnodup : s'.keys.Nodup) :
    Reserved s' (rest ++ []) := by
  have hcons : (k :: rest).filterMap creating =
      sessionId :: rest.filterMap creating := filterMap_cons_some hk
  obtain ⟨hone, hpend, hfree, -⟩ := h
  rw [hcons] at hone hpend hfree
  obtain ⟨hnot, hone⟩ := nodup_cons.mp hone
  rw [append_nil]
  refine ⟨hone, ?_, ?_, hnodup⟩
  · intro id hid
    have hne : id ≠ sessionId := fun heq => hnot (heq ▸ hid)
    rw [hpending]
    simpa using ⟨hpend id (mem_cons_of_mem _ hid), hne⟩
  · intro id hid hmem
    rcases hkeys id hmem with hold | rfl
    · exact hfree id (mem_cons_of_mem _ hid) hold
    · exact hnot hid

variable (R : ℕ → SessionRecord → SessionRecord → Prop)

/-- The records of the sessions are rewritten one by one. -/
structure Rewrites (s s' : ExecutorRegistry) : Prop where
  length : s'.records.length = s.records.length
  each : ∀ (ref : ℕ) (r r' : SessionRecord), s.records[ref]? = some r →
    s'.records[ref]? = some r' → R ref r r'

/-- A part of a task that rewrites records, and leaves the map and the processes alone. -/
structure Steps (s s' : ExecutorRegistry) : Prop
    extends Rewrites R s s' where
  sessions : s'.sessions = s.sessions
  pending : s'.pendingSessionIds = s.pendingSessionIds
  later : s.processes.Later s'.processes
  sweeping : s'.sweeping = s.sweeping
  swept : s'.swept = s.swept

/-- A session that has, or may still have, a process. -/
def Occupied (r : SessionRecord) : Prop := r.state = .running ∨ r.state = .disposed

/-- The record is not disposed of, and a disposed one keeps its state unless run. -/
def Edit (r r' : SessionRecord) : Prop :=
  r'.disposed = r.disposed ∧ (r.disposed = true → r'.state = r.state ∨ r'.state = .running)

def Settled (_ : ℕ) (r r' : SessionRecord) : Prop := Edit r r' ∧ (Occupied r → Occupied r')

def Touched (ref j : ℕ) (r r' : SessionRecord) : Prop := Edit r r' ∧ (j ≠ ref → r' = r)

/-- The listed records are disposed of, the others stay as they are. -/
def Retired (refs : List ℕ) (j : ℕ) (r r' : SessionRecord) : Prop :=
  (j ∈ refs → r'.disposed = true ∧ r'.state = .disposed) ∧ (j ∉ refs → r' = r)

lemma Edit.refl (r : SessionRecord) : Edit r r := ⟨rfl, fun _ => .inl rfl⟩

lemma Settled.refl (j : ℕ) (r : SessionRecord) : Settled j r r := ⟨.refl r, id⟩

lemma Touched.refl (ref j : ℕ) (r : SessionRecord) : Touched ref j r r := ⟨.refl r, fun _ => rfl⟩

lemma Touched.trans {j : ℕ} {r r₁ r' : SessionRecord} (h : Touched ref j r r₁)
    (h' : Touched ref j r₁ r') : Touched ref j r r' := by
  obtain ⟨⟨hdisp, hstate⟩, hoth⟩ := h
  obtain ⟨⟨hdisp', hstate'⟩, hoth'⟩ := h'
  refine ⟨⟨hdisp'.trans hdisp, fun hd => ?_⟩, fun hj => (hoth' hj).trans (hoth hj)⟩
  rcases hstate' (hdisp.trans hd) with hsame | hrun
  · rw [hsame]
    exact hstate hd
  · exact .inr hrun

lemma Retired.occupied {refs : List ℕ} {j : ℕ} {r r' : SessionRecord} (h : Retired refs j r r')
    (hocc : Occupied r) : Occupied r' := by
  by_cases hj : j ∈ refs
  · exact .inr (h.1 hj).2
  · exact h.2 hj ▸ hocc

section Rewrites

variable {R R₁ R' : ℕ → SessionRecord → SessionRecord → Prop}

lemma Rewrites.back (h : Rewrites R s s') {r' : SessionRecord} (hr' : s'.records[ref]? = some r') :
    ∃ r, s.records[ref]? = some r ∧ R ref r r' := by
  have hlt : ref < s.records.length := h.length ▸ (List.getElem?_eq_some_iff.mp hr').1
  have hr := getElem?_eq_getElem hlt
  exact ⟨_, hr, h.each ref _ r' hr hr'⟩

lemma Rewrites.forth (h : Rewrites R s s') {r : SessionRecord} (hr : s.records[ref]? = some r) :
    ∃ r', s'.records[ref]? = some r' ∧ R ref r r' := by
  have hlt : ref < s'.records.length := h.length ▸ (List.getElem?_eq_some_iff.mp hr).1
  have hr' := getElem?_eq_getElem hlt
  exact ⟨_, hr', h.each ref r _ hr hr'⟩

lemma Rewrites.of_eq (h : s'.records = s.records) (hR : ∀ j r, R j r r) : Rewrites R s s' := by
  refine ⟨by rw [h], fun j r r' hr hr' => ?_⟩
  rw [h, hr] at hr'
  cases hr'
  exact hR j r

lemma Rewrites.comp (h : Rewrites R s t) (h' : Rewrites R₁ t s')
    (hR : ∀ j r r₁ r', R j r r₁ → R₁ j r₁ r' → R' j r r') : Rewrites R' s s' := by
  refine ⟨h'.length.trans h.length, fun j r r' hr hr' => ?_⟩
  obtain ⟨r₁, hr₁, hlast⟩ := h'.back hr'
  exact hR j r r₁ r' (h.each j r r₁ hr hr₁) hlast

lemma Rewrites.mono (h : Rewrites R s s') (hR : ∀ j r r', R j r r' → R' j r r') :
    Rewrites R' s s' :=
  ⟨h.length, fun j r r' hr hr' => hR j r r' (h.each j r r' hr hr')⟩

@[simp] lemma getElem?_update (ref : ℕ) (f : SessionRecord → SessionRecord) (j : ℕ) :
    (s.update ref f).records[j]? = if ref = j then s.records[j]?.map f else s.records[j]? := by
  simp only [update, getElem?_modify]
  split_ifs <;> simp

lemma Rewrites.update (hf : ∀ r, s.records[ref]? = some r → R ref r (f r))
    (hoth : ∀ j r, j ≠ ref → R j r r) : Rewrites R s (s.update ref f) := by
  refine ⟨by simp [ExecutorRegistry.update], fun j r r' hr hr' => ?_⟩
  rw [getElem?_update, hr] at hr'
  split_ifs at hr' with hj <;> cases hr'
  · subst hj
    exact hf r hr
  · exact hoth j r (Ne.symm hj)

lemma Steps.refl (hR : ∀ j r, R j r r) (s : ExecutorRegistry) : Steps R s s :=
  ⟨.of_eq rfl hR, rfl, rfl, .refl _, rfl, rfl⟩

lemma Steps.comp (h : Steps R s t) (h' : Steps R₁ t s')
    (hR : ∀ j r r₁ r', R j r r₁ → R₁ j r₁ r' → R' j r r') : Steps R' s s' :=
  ⟨h.toRewrites.comp h'.toRewrites hR, h'.sessions.trans h.sessions, h'.pending.trans h.pending,
    h.later.trans h'.later, h'.sweeping.trans h.sweeping, h'.swept.trans h.swept⟩

lemma Steps.update (hf : ∀ r, s.records[ref]? = some r → R ref r (f r))
    (hoth : ∀ j r, j ≠ ref → R j r r) : Steps R s (s.update ref f) :=
  ⟨.update hf hoth, rfl, rfl, .refl _, rfl, rfl⟩

lemma Steps.settle (hf : ∀ r, Settled ref r (f r)) : Steps Settled s (s.update ref f) :=
  .update (fun r _ => hf r) fun j r _ => .refl j r

lemma Steps.touch (hf : ∀ r, s.records[ref]? = some r → Edit r (f r)) :
    Steps (Touched ref) s (s.update ref f) :=
  .update (fun r hr => ⟨hf r hr, fun hne => absurd rfl hne⟩) fun j r _ => .refl ref j r

end Rewrites

lemma Listed.drop (before : List Pending) (h : Listed s (before ++ rest)) : Listed s rest :=
  { h with sweeps := fun k hk => h.sweeps k (mem_append_right _ hk) }

lemma Listed.add (h : Listed s rest) (hks : ∀ k ∈ ks', k.sweeps = true → s.sweeping = true) :
    Listed s (rest ++ ks') :=
  { h with sweeps := forall_mem_append.mpr ⟨h.sweeps, hks⟩ }

lemma filter_of_free (hfree : sessionId ∉ s.keys) :
    s.sessions.filter (fun e => e.1 ≠ sessionId) = s.sessions := by
  apply filter_eq_self.mpr
  intro e he
  have hne : e.1 ≠ sessionId := fun heq => hfree (heq ▸ mem_map_of_mem he)
  simpa using hne

lemma Listed.registers (h : Listed s rest) {mcp : Bool} (hfree : sessionId ∉ s.keys)
    (hopen : s.sweeping = false) : Listed (register provider sessionId mcp s) rest := by
  have hold : ∀ {ref : ℕ} {r : SessionRecord},
      (register provider sessionId mcp s).records[ref]? = some r →
      s.records[ref]? = some r ∨ ref = s.records.length ∧ r.disposed = false := by
    intro ref r hr
    simp only [register, createDone] at hr
    rcases Nat.lt_or_ge ref s.records.length with hlt | hge
    · rw [getElem?_append_left hlt] at hr
      exact .inl hr
    · rw [getElem?_append_right hge, getElem?_singleton] at hr
      split_ifs at hr
      cases hr
      exact .inr ⟨by omega, rfl⟩
  refine ⟨?_, ?_, ?_, h.sweeps, h.swept⟩
  · intro ref r hr hr'
    simp only [register, createDone, filter_of_free hfree, mem_append, mem_singleton]
    rcases hold hr with hr | ⟨rfl, _⟩
    · obtain ⟨id, hid⟩ := h.listed ref r hr hr'
      exact ⟨id, .inl hid⟩
    · exact ⟨sessionId, .inr rfl⟩
  · intro ref r hr hd
    rcases hold hr with hr | ⟨_, hd'⟩
    · exact h.state ref r hr hd
    · simp [hd'] at hd
  · intro hs
    have hs' : s.sweeping = true := hs
    simp [hopen] at hs'

/-- The listed records are disposed of, and the others are edited. -/
lemma Listed.retires (refs : List ℕ) (h : Listed s ks)
    (hr : Rewrites (fun j r r' => (j ∈ refs → r'.disposed = true ∧ r'.state = .disposed) ∧
      (j ∉ refs → Edit r r')) s s')
    (hsesns : ∀ id ref, (id, ref) ∈ s.sessions → ref ∉ refs → (id, ref) ∈ s'.sessions)
    (hswp : s'.sweeping = true → s.sweeping = true ∨ ∀ id ref, (id, ref) ∈ s.sessions → ref ∈ refs)
    (hkept : s.sweeping = true → s'.sweeping = true) (hswept : s'.swept = s.swept) :
    Listed s' ks := by
  refine ⟨?_, ?_, ?_, fun k hk hsweeps => hkept (h.sweeps k hk hsweeps),
    fun hs => hkept (h.swept (hswept ▸ hs))⟩
  · intro ref r' hr' hopen
    obtain ⟨r, hr, hretired, hoth⟩ := hr.back hr'
    by_cases hmem : ref ∈ refs
    · simp [(hretired hmem).1] at hopen
    · obtain ⟨id, hid⟩ := h.listed ref r hr ((hoth hmem).1 ▸ hopen)
      exact ⟨id, hsesns id ref hid hmem⟩
  · intro ref r' hr' hd
    obtain ⟨r, hr, hretired, hoth⟩ := hr.back hr'
    by_cases hmem : ref ∈ refs
    · exact .inl (hretired hmem).2
    · rw [(hoth hmem).1] at hd
      rcases (hoth hmem).2 hd with hsame | hrun
      · rw [hsame]
        exact h.state ref r hr hd
      · exact .inr hrun
  · intro hs ref r' hr'
    obtain ⟨r, hr, hretired, hoth⟩ := hr.back hr'
    by_cases hmem : ref ∈ refs
    · exact (hretired hmem).1
    · rw [(hoth hmem).1]
      rcases hswp hs with hs | hall
      · exact h.none_left hs ref r hr
      · by_contra hopen
        obtain ⟨id, hid⟩ := h.listed ref r hr (by simpa using hopen)
        exact hmem (hall id ref hid)

lemma Listed.edits (h : Listed s ks) (he : Rewrites (fun _ => Edit) s s')
    (hsesns : s'.sessions = s.sessions) (hswp : s'.sweeping = s.sweeping)
    (hswept : s'.swept = s.swept) : Listed s' ks :=
  h.retires [] (he.mono fun _ _ _ hr => ⟨nofun, fun _ => hr⟩)
    (fun _ _ hid _ => hsesns ▸ hid) (fun hs => .inl (hswp ▸ hs)) hswp.trans hswept

lemma sendProcess_notMem (h : ks.filterMap sending = []) {pid : ℕ} : sendProcess ref pid ∉ ks := by
  intro hmem
  have hlabel := filterMap_eq_nil_iff.mp h _ hmem
  cases hlabel

lemma Awaited.drop (before : List Pending) (h : Awaited s (before ++ rest))
    (hbefore : before.filterMap sending = []) : Awaited s rest := by
  refine ⟨?_, ?_, ?_, fun ref hk => h.known ref (mem_append_right _ hk)⟩
  · intro pid ref hr
    exact (mem_append.mp (h.task pid ref hr)).resolve_left (sendProcess_notMem hbefore)
  · intro ref pid hk
    exact h.state ref pid (mem_append_right _ hk)
  · have hone := h.one
    rwa [filterMap_append, hbefore, nil_append] at hone

lemma Awaited.add (h : Awaited s rest) (hks : ks'.filterMap sending = [])
    (hknown : ∀ ref, .sendPrompt ref ∈ ks' → ref < s.records.length) : Awaited s (rest ++ ks') := by
  refine ⟨?_, ?_, ?_, ?_⟩
  · intro pid ref hr
    exact mem_append_left _ (h.task pid ref hr)
  · intro ref pid hk
    exact h.state ref pid ((mem_append.mp hk).resolve_right (sendProcess_notMem hks))
  · rw [filterMap_append, hks, append_nil]
    exact h.one
  · intro ref hk
    exact (mem_append.mp hk).elim (h.known ref) (hknown ref)

lemma Awaited.moves (h : Awaited s ks) (hlen : s.records.length ≤ s'.records.length)
    (hkeeps : ∀ (ref : ℕ) (r : SessionRecord), s.records[ref]? = some r → Occupied r →
      ∃ r' : SessionRecord, s'.records[ref]? = some r' ∧ Occupied r')
    (hlater : s.processes.Later s'.processes) : Awaited s' ks := by
  refine ⟨fun pid ref hr => h.task pid ref (hlater.runsFor hr), ?_, h.one,
    fun ref hk => (h.known ref hk).trans_le hlen⟩
  intro ref pid hk
  obtain ⟨r, hr, hocc⟩ := h.state ref pid hk
  exact hkeeps ref r hr hocc

lemma Awaited.rewrites {R : ℕ → SessionRecord → SessionRecord → Prop} (h : Awaited s ks)
    (hr : Rewrites R s s') (hR : ∀ j r r', R j r r' → Occupied r → Occupied r')
    (hlater : s.processes.Later s'.processes) : Awaited s' ks := by
  refine h.moves hr.length.ge ?_ hlater
  intro ref r hrec hocc
  obtain ⟨r', hr', hrel⟩ := hr.forth hrec
  exact ⟨r', hr', hR ref r r' hrel hocc⟩

lemma Awaited.starts (h : Awaited s rest) (hfree : ∀ r, s.records[ref]? = some r → ¬Occupied r)
    (hlt : ref < s.records.length) : Awaited { s.update ref fun r =>
      { r with state := .running, running := some s.processes.length } with
      processes := s.processes.start ref } (rest ++ [.sendProcess ref s.processes.length]) := by
  have hsteps : Steps Settled s (s.update ref fun r =>
      { r with state := .running, running := some s.processes.length }) :=
    .settle fun _ => ⟨⟨rfl, fun _ => .inr rfl⟩, fun _ => .inl rfl⟩
  have hlabels : (rest ++ [sendProcess ref s.processes.length]).filterMap sending =
      rest.filterMap sending ++ [ref] := filterMap_append
  refine ⟨?_, ?_, ?_, ?_⟩
  · intro pid ref' hr
    rcases runsFor_start.mp hr with hr | ⟨rfl, rfl⟩
    · exact mem_append_left _ (h.task pid ref' hr)
    · exact mem_append_right _ (mem_singleton_self _)
  · intro ref' pid hk
    rcases mem_append.mp hk with hk | hk
    · obtain ⟨r, hr, hocc⟩ := h.state ref' pid hk
      obtain ⟨r', hr', hsettled⟩ := hsteps.forth hr
      exact ⟨r', hr', hsettled.2 hocc⟩
    · cases mem_singleton.mp hk
      refine ⟨{ s.records[ref] with
        state := .running, running := some s.processes.length }, ?_, .inl rfl⟩
      simp [hlt]
  · -- a task that awaits a process of this session would have found it occupied
    rw [hlabels]
    refine h.one.append (nodup_singleton _) (disjoint_singleton.mpr fun hmem => ?_)
    obtain ⟨k, hk, hlabel⟩ := mem_filterMap.mp hmem
    cases k with
    | sendProcess _ pid =>
      cases hlabel
      obtain ⟨r, hr, hocc⟩ := h.state _ pid hk
      exact hfree r hr hocc
    | _ => cases hlabel
  · intro ref' hk
    rcases mem_append.mp hk with hk | hk
    · exact (h.known ref' hk).trans_eq hsteps.length.symm
    · cases mem_singleton.mp hk

lemma Awaited.completes {pid : ℕ} (h : Awaited s (.sendProcess ref pid :: rest))
    (hexited : s.processes.Exited pid) (hsteps : Steps (Touched ref) s s') :
    Awaited s' (rest ++ []) := by
  have hcons : (sendProcess ref pid :: rest).filterMap sending =
      ref :: rest.filterMap sending := rfl
  have hone := h.one
  rw [hcons, nodup_cons] at hone
  rw [append_nil]
  refine ⟨?_, ?_, hone.2, ?_⟩
  · intro q ref' hr
    have hold := hsteps.later.runsFor hr
    rcases mem_cons.mp (h.task q ref' hold) with hk | hk
    · cases hk
      exact absurd hold (not_runsFor_of_exited hexited)
    · exact hk
  · intro ref' q hk
    have hne : ref' ≠ ref := by
      rintro rfl
      exact hone.1 (mem_filterMap.mpr ⟨_, hk, rfl⟩)
    obtain ⟨_, hr, hocc⟩ := h.state ref' q (mem_cons_of_mem _ hk)
    obtain ⟨r', hr', htchd⟩ := hsteps.forth hr
    exact ⟨r', hr', htchd.2 hne ▸ hocc⟩
  · intro ref' hk
    rw [hsteps.length]
    exact h.known ref' (mem_cons_of_mem _ hk)

lemma releaseNativeSession_steps (record : SessionRecord) :
    Steps (fun _ => Eq) s (releaseNativeSession record s) := by
  unfold releaseNativeSession
  split
  · exact .refl (fun _ _ => rfl) s
  · split_ifs
    · exact { Steps.refl (fun _ _ => rfl) s with }
    · exact .refl (fun _ _ => rfl) s

lemma bindNativeSession_steps {nativeSessionId : String}
    (h : bindNativeSession ref record nativeSessionId s = .ok s') : Steps (Touched ref) s s' := by
  simp only [bindNativeSession, ok_iff] at h
  obtain ⟨_, _, rfl⟩ := h
  have hreld : Steps (fun _ => Eq) s
      (if record.nativeSessionId = some nativeSessionId then s
        else releaseNativeSession record s) := by
    split_ifs
    · exact .refl (fun _ _ => rfl) s
    · exact releaseNativeSession_steps record
  have hbound : Steps (Touched ref) s _ := hreld.comp (Steps.touch
    (f := fun r => { r with nativeSessionId := some nativeSessionId }) fun r _ => .refl r)
    fun j r r₁ r' heq h => heq ▸ h
  exact { hbound with }

lemma conclude_steps (result : ProcessResult) (hrec : s.records[ref]? = some record)
    (hopen : record.disposed = false) :
    Steps (Touched ref) s (conclude H ref record result s) := by
  have hset : ∀ {t : ExecutorRegistry}, Steps (Touched ref) s t →
      ∀ f : SessionRecord → SessionRecord, (∀ r, (f r).disposed = r.disposed) →
      Steps (Touched ref) s (t.update ref f) := by
    intro t ht f hf
    refine ht.comp (Steps.touch fun r hr => ⟨hf r, fun hd => ?_⟩) fun _ _ _ _ => Touched.trans
    -- the record is still not disposed
    obtain ⟨_, hr₀, ⟨hdisp, _⟩, _⟩ := ht.back hr
    rw [hrec] at hr₀
    cases hr₀
    simp [hdisp, hopen] at hd
  have hself : Steps (Touched ref) s s := .refl (Touched.refl ref) s
  unfold conclude
  dsimp only
  split_ifs
  · exact hset hself _ fun _ => rfl
  · exact hset hself _ fun _ => rfl
  · split
    · exact hset hself _ fun _ => rfl
    · rename_i s' hbound
      have hs' : Steps (Touched ref) s s' := by
        split at hbound
        · exact bindNativeSession_steps hbound
        · cases hbound
          exact hself
      split
      · exact hset hs' _ fun _ => rfl
      · exact hset hs' _ fun _ => rfl

lemma completed_steps (ref : ℕ) (result : ProcessResult) :
    Steps (Touched ref) s (completed H ref result s) := by
  have hended : Steps (Touched ref) s (s.update ref fun r => { r with running := none }) :=
    .touch fun _ _ => ⟨rfl, fun _ => .inl rfl⟩
  unfold completed
  dsimp only
  split
  · exact hended
  · rename_i record hrec
    split_ifs with hdisp
    · exact hended
    · exact hended.comp (conclude_steps result hrec (by simpa using hdisp))
        fun _ _ _ _ => Touched.trans

/-- What holds of the registry and its tasks in the runs below. -/
structure Orderly (s : ExecutorRegistry) (ks : List Pending) : Prop where
  reserved : Reserved s ks
  listed : Listed s ks
  awaited : Awaited s ks

lemma Orderly.perm (h : Orderly s ks) (hperm : ks.Perm ks') : Orderly s ks' := by
  obtain ⟨hresv, hlisted, haw⟩ := h
  refine ⟨hresv.mono rfl (.refl _) (hperm.filterMap _) (.refl _),
    { hlisted with sweeps := fun k hk => hlisted.sweeps k (hperm.mem_iff.mpr hk) },
    ⟨?_, ?_, (hperm.filterMap _).nodup_iff.mp haw.one, ?_⟩⟩
  · intro pid ref hruns
    exact hperm.mem_iff.mp (haw.task pid ref hruns)
  · intro ref pid hk
    exact haw.state ref pid (hperm.mem_iff.mpr hk)
  · intro ref hk
    exact haw.known ref (hperm.mem_iff.mpr hk)

/-- The process that a step has started. -/
def started (s s' : ExecutorRegistry) : Option (Process ℕ) := s'.processes[s.processes.length]?

/-- No process is started, or one for a session neither running nor disposed. -/
def StartsFree (s s' : ExecutorRegistry) : Prop :=
  s.processes.Later s'.processes ∨ ∃ (ref : ℕ) (r : SessionRecord),
    s'.processes = s.processes.start ref ∧ s.records[ref]? = some r ∧ ¬Occupied r

lemma StartsFree.refl (s : ExecutorRegistry) : StartsFree s s := .inl (.refl _)

lemma StartsFree.of_started (h : StartsFree s s') {p : Process ℕ} (hp : started s s' = some p) :
    ∃ r, s.records[p.tag]? = some r ∧ ¬Occupied r := by
  rcases h with hlater | ⟨ref, r, hstart, hr, hfree⟩
  · obtain ⟨_, hold, -⟩ := hlater _ p hp
    simp at hold
  · simp only [started, hstart, start, getElem?_concat_length, Option.some.injEq] at hp
    subst hp
    exact ⟨r, hr, hfree⟩

/-- A part of a task keeps the registry in order and starts only for free sessions. -/
structure Proceeds (s s' : ExecutorRegistry) (ks : List Pending) : Prop extends Orderly s' ks where
  starts : StartsFree s s'

lemma Proceeds.of_update (h : Proceeds (s.update ref f) s' ks) (hf : ∀ r, (f r).state = r.state) :
    Proceeds s s' ks := by
  refine { h with starts := ?_ }
  rcases h.starts with hlater | ⟨ref', r, hstart, hr, hfree⟩
  · exact .inl hlater
  · rw [getElem?_update] at hr
    split_ifs at hr
    · obtain ⟨r, hr', rfl⟩ := Option.map_eq_some_iff.mp hr
      exact .inr ⟨ref', r, hstart, hr', by simpa [Occupied, hf] using hfree⟩
    · exact .inr ⟨ref', r, hstart, hr, hfree⟩

section Before

variable (before : List Pending) (h : Orderly s (before ++ rest))
  (hbefore : before.filterMap sending = [])

include h hbefore

lemma Orderly.settles (hsteps : Steps Settled s s') (hfoll : Follows s' before ks') :
    Proceeds s s' (rest ++ ks') := by
  have hkeys : s'.keys = s.keys := by rw [keys, keys, hsteps.sessions]
  refine ⟨⟨?_, ?_, ?_⟩, .inl hsteps.later⟩
  · exact Reserved.settles before h.reserved hsteps.pending (by rw [hkeys]) hfoll.creating
  · exact ((Listed.drop before h.listed).edits (hsteps.mono fun _ _ _ hr => hr.1) hsteps.sessions
      hsteps.sweeping hsteps.swept).add hfoll.sweeps
  · exact ((Awaited.drop before h.awaited hbefore).rewrites hsteps.toRewrites (fun _ _ _ hr => hr.2)
      hsteps.later).add hfoll.sending hfoll.known

lemma Orderly.advances (hfoll : Follows s before ks') : Proceeds s s (rest ++ ks') :=
  h.settles before hbefore (.refl .refl s) hfoll

lemma Orderly.ends : Proceeds s s (rest ++ []) := h.advances before hbefore .nil

lemma Orderly.startProcess {prepared : String} {starts : Bool} (hlt : ref < s.records.length)
    (hfree : validPrompt 32000 prepared = true → starts = true →
      ∀ r, s.records[ref]? = some r → ¬Occupied r) :
    Proceeds s (startProcess ref prepared starts s).1
      (rest ++ (startProcess ref prepared starts s).2) := by
  unfold ExecutorRegistry.startProcess
  split_ifs with hvalid hstarts
  · have hr := getElem?_eq_getElem hlt
    refine ⟨⟨?_, ?_, ?_⟩, .inr ⟨ref, _, rfl, hr, hfree hvalid hstarts _ hr⟩⟩
    · exact Reserved.settles before h.reserved rfl (List.Sublist.refl _) (nil_sublist _)
    · have hedits : Rewrites (fun _ => Edit) s (s.update ref fun r =>
          { r with state := .running, running := some s.processes.length }) :=
        .update (fun _ _ => ⟨rfl, fun _ => .inr rfl⟩) fun _ r _ => .refl r
      have hlisted : Listed _ (rest ++ [.sendProcess ref s.processes.length]) :=
        ((Listed.drop before h.listed).edits hedits rfl rfl rfl).add
          (forall_mem_singleton.mpr nofun)
      exact { hlisted with }
    · exact (Awaited.drop before h.awaited hbefore).starts (hfree hvalid hstarts) hlt
  · exact h.settles before hbefore (.settle fun _ => ⟨⟨rfl, fun _ => .inr rfl⟩, fun _ => .inl rfl⟩)
      .nil
  · exact h.ends before hbefore

end Before

lemma Orderly.createDone (h : Orderly s (k :: rest)) (hk : k.creating = some sessionId)
    (hsending : k.sending = none) :
    Proceeds s (createDone sessionId s) (rest ++ []) := by
  obtain ⟨⟨-, hlisted, haw⟩, -⟩ := h.ends [k] (by simp [hsending])
  exact ⟨⟨h.reserved.ends hk rfl (fun id hid => .inl hid) h.reserved.keys_nodup, { hlisted with },
    { haw with }⟩, .inl (.refl _)⟩

lemma Orderly.registers {mcp : Bool} (h : Orderly s (k :: rest)) (hk : k.creating = some sessionId)
    (hsending : k.sending = none) (hopen : s.sweeping = false) :
    Proceeds s (register provider sessionId mcp s) (rest ++ []) := by
  obtain ⟨⟨-, hlisted, haw⟩, -⟩ := h.ends [k] (by simp [hsending])
  have hfree : sessionId ∉ s.keys := by
    apply h.reserved.free
    rw [filterMap_cons_some hk]
    exact mem_cons_self
  have hkeys : (register provider sessionId mcp s).keys = s.keys ++ [sessionId] := by
    simp only [keys, register, ExecutorRegistry.createDone, filter_of_free hfree, map_append]
    rfl
  refine ⟨⟨?_, hlisted.registers hfree hopen, ?_⟩, .inl (.refl _)⟩
  · refine h.reserved.ends hk rfl ?_ ?_
    · intro _ hid
      rwa [hkeys, mem_append, mem_singleton] at hid
    · rw [hkeys]
      exact h.reserved.keys_nodup.append (nodup_singleton _) (disjoint_singleton.mpr hfree)
  · refine haw.moves (by simp [register, ExecutorRegistry.createDone]) ?_ (.refl _)
    intro ref r hr hocc
    refine ⟨r, ?_, hocc⟩
    have hlt : ref < s.records.length := (List.getElem?_eq_some_iff.mp hr).1
    simp only [register, ExecutorRegistry.createDone]
    rw [getElem?_append_left hlt, hr]

lemma requiredSession_eq_some (h : s.requiredSession sessionId = some (ref, record)) :
    s.sessions.lookup sessionId = some ref ∧ s.records[ref]? = some record := by
  unfold requiredSession at h
  split_ifs at h
  simp only [Option.bind_eq_bind, Option.bind_eq_some_iff] at h
  obtain ⟨_, hlookup, _, hrec, heq⟩ := h
  cases heq
  exact ⟨hlookup, hrec⟩

lemma Reserved.eq_of_lookup (h : Reserved s ks) {ref' : ℕ}
    (hlookup : s.sessions.lookup sessionId = some ref) (hmem : (sessionId, ref') ∈ s.sessions) :
    ref' = ref := by
  obtain ⟨_, _, hsplit, _⟩ := lookup_eq_some_iff.mp hlookup
  have hmem' : (sessionId, ref) ∈ s.sessions := by
    rw [hsplit]
    exact mem_append_right _ mem_cons_self
  have heq := inj_on_of_nodup_map h.keys_nodup hmem hmem' rfl
  exact (Prod.mk.inj heq).2

variable (refs : List ℕ)

lemma Orderly.retires (h : Orderly s rest) (hr : Rewrites (Retired refs) s s')
    (hsub : s'.sessions.Sublist s.sessions)
    (hsesns : ∀ id ref, (id, ref) ∈ s.sessions → ref ∉ refs → (id, ref) ∈ s'.sessions)
    (hpend : s'.pendingSessionIds = s.pendingSessionIds) (hlater : s.processes.Later s'.processes)
    (hswp : s'.sweeping = true → s.sweeping = true ∨ ∀ id ref, (id, ref) ∈ s.sessions → ref ∈ refs)
    (hkept : s.sweeping = true → s'.sweeping = true) (hswept : s'.swept = s.swept)
    (hfoll : Follows s' [] ks') : Proceeds s s' (rest ++ ks') := by
  refine ⟨⟨?_, ?_, ?_⟩, .inl hlater⟩
  · exact Reserved.settles [] h.reserved hpend (hsub.map _) hfoll.creating
  · refine (h.listed.retires refs (hr.mono ?_) hsesns hswp hkept hswept).add hfoll.sweeps
    rintro _ r _ ⟨hretired, hoth⟩
    exact ⟨hretired, fun hj => by rw [hoth hj]; exact .refl r⟩
  · exact (h.awaited.rewrites hr (fun _ _ _ => Retired.occupied) hlater).add hfoll.sending
      hfoll.known

lemma stopProcess_steps (ref : ℕ) (record : SessionRecord) :
    Steps (Touched ref) s (stopProcess ref record s) := by
  unfold stopProcess
  split
  · have hflag : Steps (Touched ref) s
        (s.update ref fun r => { r with interruptRequested := true }) :=
      .touch fun _ _ => ⟨rfl, fun _ => .inl rfl⟩
    exact { hflag with later := later_signal }
  · exact .refl (Touched.refl ref) s

lemma Steps.retire : Steps (Retired [ref]) s (s.update ref disposedRecord) := by
  refine .update (fun r _ => ⟨fun _ => ⟨rfl, rfl⟩, fun hne => ?_⟩) fun j r hj =>
    ⟨fun hmem => ?_, ?_⟩
  · exact absurd mem_cons_self hne
  · exact absurd (mem_singleton.mp hmem) hj
  · exact fun _ => rfl

lemma Orderly.dispose (h : Orderly s rest) :
    Proceeds s (dispose sessionId s).1 (rest ++ (dispose sessionId s).2) := by
  unfold ExecutorRegistry.dispose
  split
  · exact h.ends [] rfl
  · rename_i ref record hreqd
    obtain ⟨hlookup, _⟩ := requiredSession_eq_some hreqd
    have hstop : Steps (Touched ref) s (stopProcess ref record s) := stopProcess_steps ref record
    have hreld := releaseNativeSession_steps
      (s := { (stopProcess ref record s).update ref disposedRecord with
        sessions := (stopProcess ref record s).sessions.filter fun e => e.1 ≠ sessionId }) record
    have hdisp : Steps (Retired [ref]) s
        ((stopProcess ref record s).update ref disposedRecord) := by
      refine hstop.comp .retire fun j r r₁ r' htchd hretired => ⟨hretired.1, fun hj => ?_⟩
      exact (hretired.2 hj).trans (htchd.2 fun heq => hj (mem_singleton.mpr heq))
    have hswp := hreld.sweeping.trans hstop.sweeping
    refine h.retires [ref] ?_ ?_ ?_ ?_ ?_ (fun hs => .inl (hswp ▸ hs)) hswp.trans ?_
      (.one (nil_sublist _) rfl nofun nofun)
    · refine Rewrites.comp (R := Retired [ref]) ?_ hreld.toRewrites fun _ _ _ _ hr heq => heq ▸ hr
      exact ⟨hdisp.length, hdisp.each⟩
    · rw [hreld.sessions, hstop.sessions]
      exact filter_sublist
    · intro id _ hmem hne
      rw [hreld.sessions, hstop.sessions]
      have hid : id ≠ sessionId := by
        rintro rfl
        exact hne (mem_singleton.mpr (h.reserved.eq_of_lookup hlookup hmem))
      simp [hmem, hid]
    · exact hreld.pending.trans hstop.pending
    · exact hstop.later.trans hreld.later
    · exact hreld.swept.trans hstop.swept

lemma retire_steps (s : ExecutorRegistry) :
    Steps (Retired refs) s (refs.foldl (fun t ref => t.update ref disposedRecord) s) := by
  induction refs generalizing s with
  | nil => exact .refl (fun j r => ⟨nofun, fun _ => rfl⟩) s
  | cons _ refs ih =>
    refine Steps.comp .retire (ih _) fun j r r₁ r' hfirst hrest => ⟨fun hj => ?_, fun hj => ?_⟩
    · by_cases hmem : j ∈ refs
      · exact hrest.1 hmem
      · rw [hrest.2 hmem]
        exact hfirst.1 (mem_singleton.mpr ((mem_cons.mp hj).resolve_right hmem))
    · rw [mem_cons, not_or] at hj
      exact (hrest.2 hj.2).trans (hfirst.2 fun hmem => hj.1 (mem_singleton.mp hmem))

lemma release_steps (s : ExecutorRegistry) :
    Steps (fun _ => Eq) s (refs.foldl (fun t ref => releaseSession ref t) s) := by
  induction refs generalizing s with
  | nil => exact .refl (fun _ _ => rfl) s
  | cons ref _ ih =>
    have hfirst : Steps (fun _ => Eq) s (releaseSession ref s) := by
      unfold releaseSession
      split
      · exact releaseNativeSession_steps _
      · exact .refl (fun _ _ => rfl) s
    exact hfirst.comp (ih _) fun _ _ _ _ => Eq.trans

section

variable (h : Orderly s rest)
include h

lemma Orderly.disposeAll : Proceeds s (disposeAll s).1 (rest ++ (disposeAll s).2) := by
  have hretires := retire_steps (s.sessions.map Prod.snd) s
  have hrels := release_steps (s.sessions.map Prod.snd)
    { (s.sessions.map Prod.snd).foldl (fun t ref => t.update ref disposedRecord) s with
      sessions := [], sweeping := true }
  have hall : ∀ (id : String) (ref : ℕ), (id, ref) ∈ s.sessions →
      ref ∈ s.sessions.map Prod.snd := fun id ref hmem => mem_map_of_mem hmem
  refine h.retires (s.sessions.map Prod.snd) ?_ ?_ ?_ ?_ ?_ (fun _ => .inr hall)
    (fun _ => hrels.sweeping) ?_ (.one (nil_sublist _) rfl (fun _ => hrels.sweeping) nofun)
  · refine Rewrites.comp (R := Retired _) ?_ hrels.toRewrites fun _ _ _ _ hr heq => heq ▸ hr
    exact ⟨hretires.length, hretires.each⟩
  · rw [show (ExecutorRegistry.disposeAll s).1.sessions = [] from hrels.sessions]
    exact nil_sublist _
  · intro id ref hmem hne
    exact absurd (hall id ref hmem) hne
  · exact hrels.pending.trans hretires.pending
  · exact hretires.later.trans hrels.later
  · exact hrels.swept.trans hretires.swept

lemma Orderly.create :
    Proceeds s (create provider sessionId s).1 (rest ++ (create provider sessionId s).2) := by
  unfold ExecutorRegistry.create
  split_ifs with hcond
  · obtain ⟨_, hlookup, hnew⟩ := hcond
    have hfree : sessionId ∉ s.keys := by
      intro hmem
      obtain ⟨e, he, heq⟩ := mem_map.mp hmem
      have hnone := lookup_eq_none_iff.mp (Option.isNone_iff_eq_none.mp hlookup) e he
      simp [heq] at hnone
    have hlisted : Listed s (rest ++ [.createProfile provider sessionId]) :=
      h.listed.add (forall_mem_singleton.mpr nofun)
    have haw : Awaited s (rest ++ [.createProfile provider sessionId]) :=
      h.awaited.add rfl fun ref hk => by cases mem_singleton.mp hk
    exact ⟨⟨h.reserved.creates hfree hnew rfl rfl, { hlisted with }, { haw with }⟩, .inl (.refl _)⟩
  · exact h.ends [] rfl

lemma Orderly.flags (hf : ∀ r, (f r).disposed = r.disposed ∧ (f r).state = r.state) :
    Orderly (s.update ref f) rest := by
  rw [← append_nil rest]
  have hsteps : Steps Settled s (s.update ref f) :=
    .settle fun r => ⟨⟨(hf r).1, fun _ => .inl (hf r).2⟩, by simp [Occupied, (hf r).2]⟩
  exact (h.settles [] rfl hsteps .nil).toOrderly

lemma Orderly.send {prompt : String} {starts : Bool} :
    Proceeds s (send H sessionId prompt starts s).1
      (rest ++ (send H sessionId prompt starts s).2) := by
  unfold ExecutorRegistry.send
  split
  · exact h.ends [] rfl
  · rename_i ref record hreqd
    obtain ⟨_, hrec⟩ := requiredSession_eq_some hreqd
    have hlt : ref < s.records.length := (List.getElem?_eq_some_iff.mp hrec).1
    have hflags : Orderly (s.update ref fun r =>
        { r with interruptRequested := false, lastError := none }) rest :=
      h.flags fun r => ⟨rfl, rfl⟩
    split_ifs with hcond
    · refine .of_update (hflags.advances [] rfl (.one (nil_sublist _) rfl nofun ?_)) fun _ => rfl
      rintro _ ⟨⟩
      simpa [update] using hlt
    · refine .of_update (hflags.startProcess [] rfl (by simpa [update] using hlt) ?_) fun _ => rfl
      intro _ _ r hr hocc
      rw [getElem?_update, if_pos rfl, hrec] at hr
      cases hr
      rcases hocc with hrun | hdisp
      · exact hcond.2.1 hrun
      · exact hcond.1 hdisp
    · exact h.ends [] rfl

lemma Orderly.interrupt : Proceeds s (interrupt sessionId s) (rest ++ []) := by
  unfold ExecutorRegistry.interrupt
  split
  · rename_i ref record _
    split
    · have hflag : Steps Settled s (s.update ref fun r => { r with interruptRequested := true }) :=
        .settle fun _ => ⟨⟨rfl, fun _ => .inl rfl⟩, id⟩
      exact h.settles [] rfl { hflag with later := later_signal } .nil
    · exact h.ends [] rfl
  · exact h.ends [] rfl

end

theorem Orderly.calls (x : Call) (h : Orderly s ks) :
    Proceeds s (call H x s).1 (ks ++ (call H x s).2) := by
  cases x with
  | create => exact h.create
  | send => exact h.send
  | interrupt => exact h.interrupt
  | dispose => exact h.dispose
  | disposeAll => exact h.disposeAll
  | exit =>
    exact h.settles [] rfl { Steps.refl .refl s with later := later_exit } .nil

def occupied (s : ExecutorRegistry) (ref : ℕ) : Bool :=
  match s.records[ref]? with
  | some r => r.state = .running ∨ r.state = .disposed
  | none => false

/-- What a second look would ensure: a start finds its session neither running nor disposed, and
none is entered once a `disposeAll` has begun. -/
def rechecked (s : ExecutorRegistry) : Pending → Reply → Bool
  | .sendPrompt ref, .prompt (some text) true => !validPrompt 32000 text || !s.occupied ref
  | .createProbe provider _, .probed true mcp => mcp || provider = .deepseek || !s.sweeping
  | .createResources _ _ _, .resources true => !s.sweeping
  | _, _ => true

lemma not_occupied_of_rechecked {text : String}
    (h : rechecked s (.sendPrompt ref) (.prompt (some text) true) = true)
    (hvalid : validPrompt 32000 text = true) (r : SessionRecord) (hr : s.records[ref]? = some r) :
    ¬Occupied r := by
  simpa [rechecked, hvalid, occupied, hr, Occupied] using h

/-- A continuation proceeds if it starts and enters nothing it should not. -/
theorem Orderly.resumes {reply : Reply} {r : Segment} (h : Orderly s (k :: rest))
    (hr : resume H k reply s = some r) (hchkd : rechecked s k reply = true) :
    Proceeds s r.1 (rest ++ r.2) := by
  have hcreates : ∀ {k' : Pending}, k.sending = none → k'.creating = k.creating →
      k'.sending = none → k'.sweeps = false → (∀ ref, k' ≠ .sendPrompt ref) →
      Proceeds s s (rest ++ [k']) := by
    intro _ hk hcreating hsending hsweeps hprompt
    refine Orderly.advances [k] h (by simp [hk]) (.one ?_ hsending (by simp [hsweeps])
      fun ref hk' => absurd hk' (hprompt ref))
    simp only [filterMap_cons, hcreating, filterMap_nil]
    exact List.Sublist.refl _
  unfold resume at hr
  split at hr
  · split_ifs at hr <;> cases hr
    · exact hcreates rfl rfl rfl rfl (by simp)
    · exact h.createDone rfl rfl
  · split_ifs at hr with havail hres <;> cases hr
    · exact h.createDone rfl rfl
    · exact hcreates rfl rfl rfl rfl (by simp)
    · rw [Bool.not_eq_false] at havail
      subst havail
      exact h.registers rfl rfl (by simp_all [rechecked])
  · split_ifs at hr with hres <;> cases hr
    · subst hres
      exact h.registers rfl rfl (by simpa [rechecked] using hchkd)
    · exact hcreates rfl rfl rfl rfl (by simp)
  · cases hr
    exact h.createDone rfl rfl
  · split at hr <;> cases hr
    · refine Orderly.startProcess [_] h rfl (h.awaited.known _ mem_cons_self) ?_
      intro hvalid hstarts
      subst hstarts
      exact not_occupied_of_rechecked hchkd hvalid
    · exact h.ends [_] rfl
  · split_ifs at hr with hexited
    cases hr
    rename_i ref pid result
    have hsteps : Steps (Touched ref) s (completed H ref result s) := completed_steps ref result
    refine ⟨⟨?_, ?_, h.awaited.completes hexited hsteps⟩, .inl hsteps.later⟩
    · refine Reserved.settles [_] h.reserved hsteps.pending ?_ (nil_sublist _)
      rw [keys, hsteps.sessions]
      exact List.Sublist.refl _
    · exact ((Listed.drop [_] h.listed).edits (hsteps.mono fun _ _ _ hr => hr.1) hsteps.sessions
        hsteps.sweeping hsteps.swept).add nofun
  · cases hr
    exact h.ends [_] rfl
  · cases hr
    have hswp := h.listed.sweeps _ mem_cons_self rfl
    exact h.settles [_] rfl { Steps.refl .refl s with later := .signals (.refl _) _ }
      (.one (nil_sublist _) rfl (fun _ => hswp) nofun)
  · split_ifs at hr
    cases hr
    have hswp := h.listed.sweeps _ mem_cons_self rfl
    obtain ⟨⟨hresv, hlisted, haw⟩, -⟩ := h.ends [_] rfl
    exact ⟨⟨{ hresv with }, { hlisted with swept := fun _ => hswp }, { haw with }⟩, .inl (.refl _)⟩
  · cases hr

variable (H)

/-- The registry and its tasks after the first events of a run from its construction. -/
def after (events : List (Event Call Reply)) (n : ℕ) : Config ExecutorRegistry Pending :=
  (program H).run ⟨.fresh, []⟩ (events.take n)

/-- A session has one running process at most, and none is started once it is disposed or a
`disposeAll` has completed. An id created again is another session. -/
structure ProcessPerSession (events : List (Event Call Reply)) : Prop where
  one : ∀ n ref p q, (after H events n).shared.processes.RunsFor p ref →
    (after H events n).shared.processes.RunsFor q ref → p = q
  none_disposed : ∀ n p,
    started (after H events n).shared (after H events (n + 1)).shared = some p →
    ∀ r, (after H events n).shared.records[p.tag]? = some r → r.disposed = false
  none_swept : ∀ n, (after H events n).shared.swept = true →
    started (after H events n).shared (after H events (n + 1)).shared = none

variable {H}

lemma orderly_fresh : Orderly .fresh [] := by
  refine ⟨⟨nodup_nil, nofun, nofun, nodup_nil⟩, ⟨?_, ?_, nofun, nofun, nofun⟩,
    ⟨?_, nofun, nodup_nil, nofun⟩⟩
  · rintro _ _ ⟨⟩
  · rintro _ _ ⟨⟩
  · rintro _ _ ⟨_, ⟨⟩, _⟩

/-- The event is a call, or a continuation that goes on as after a second look. -/
def rechecks (c : Config ExecutorRegistry Pending) : Event Call Reply → Bool
  | .call _ => true
  | .resume i reply => c.waiting[i]?.all (rechecked c.shared · reply)

theorem Orderly.step {c : Config ExecutorRegistry Pending} {e : Event Call Reply}
    (h : Orderly c.shared c.waiting) (hchkd : rechecks c e = true) :
    Proceeds c.shared ((program H).step c e).shared ((program H).step c e).waiting := by
  refine Program.step_keeps (P := program H)
    (I := fun c' => Proceeds c.shared c'.shared c'.waiting)
    (C := fun c' e => c' = c ∧ rechecks c e = true) ?_ ?_ c e ⟨h, .refl _⟩ ⟨rfl, hchkd⟩
  · rintro _ x - ⟨rfl, -⟩
    exact h.calls x
  · rintro _ i k _ r hk hr - ⟨rfl, hchkd⟩
    simp only [rechecks, hk, Option.all_some] at hchkd
    exact (h.perm (Config.perm_without _ hk)).resumes hr hchkd

/-- If every start finds its session neither running nor disposed, and none is entered once a
`disposeAll` has begun, each session has one process at most, and none is started after its dispose
or a completed `disposeAll`. -/
theorem processPerSession_of_rechecked (H : ExecutorHost) (events : List (Event Call Reply))
    (h : ∀ n e, events[n]? = some e → rechecks (after H events n) e = true) :
    ProcessPerSession H events := by
  have hord : ∀ n, Orderly (after H events n).shared (after H events n).waiting :=
    Program.run_keeps (P := program H) (I := fun c => Orderly c.shared c.waiting)
      orderly_fresh (fun _ _ hc hchkd => (hc.step hchkd).toOrderly) h
  have hfree : ∀ n p, started (after H events n).shared (after H events (n + 1)).shared = some p →
      ∃ r, (after H events n).shared.records[p.tag]? = some r ∧ ¬Occupied r := by
    intro n p hp
    cases he : events[n]? with
    | none =>
      rw [show after H events (n + 1) = after H events n from Program.run_take_of_none he] at hp
      exact (StartsFree.refl _).of_started hp
    | some e =>
      rw [show after H events (n + 1) = _ from Program.run_take_succ he] at hp
      exact ((hord n).step (h n e he)).starts.of_started hp
  refine ⟨?_, ?_, ?_⟩
  · intro n ref p q hp hq
    have haw := (hord n).awaited
    have heq := eq_of_nodup_labels haw.one (haw.task p ref hp) (haw.task q ref hq) rfl rfl
    cases heq
    rfl
  · intro n p hp r hr
    by_contra hd
    obtain ⟨_, hr', hocc⟩ := hfree n p hp
    cases hr.symm.trans hr'
    exact hocc ((hord n).listed.state p.tag r hr (by simpa using hd)).symm
  · intro n hswept
    by_contra hsome
    obtain ⟨p, hp⟩ := Option.ne_none_iff_exists'.mp hsome
    obtain ⟨r, hr, hocc⟩ := hfree n p hp
    -- the session of the process is one of the disposed ones
    have hlisted := (hord n).listed
    have hdisp := hlisted.none_left (hlisted.swept hswept) p.tag r hr
    exact hocc (hlisted.state p.tag r hr hdisp).symm

def sampleHost : ExecutorHost := ⟨true, fun _ _ => none, fun _ _ => .ok (some "done")⟩

def sampleResult : ProcessResult := ⟨some 0, false, "", none⟩

/-- One session is created and used twice in turn, then everything is disposed of. -/
def inTurn : List (Event Call Reply) :=
  [.call (.create .codex "a"), .resume 0 (.profile true), .resume 0 (.probed true false),
    .call (.send "a" "first" true), .resume 0 (.prompt (some "first") true), .call (.exit 0),
    .resume 0 (.completed sampleResult), .call (.send "a" "second" true),
    .resume 0 (.prompt (some "second") true), .call .disposeAll, .resume 1 (.released true),
    .call (.exit 1), .resume 1 (.released true), .resume 0 (.completed sampleResult)]

theorem processPerSession_inTurn : ProcessPerSession sampleHost inTurn ∧
    (after sampleHost inTurn 9).shared.processes.RunsFor 1 0 ∧
    (after sampleHost inTurn 13).shared.swept = true := by
  have hchkd : ∀ n < inTurn.length,
      (inTurn[n]?).all (rechecks (after sampleHost inTurn n)) = true := by decide +kernel
  refine ⟨?_, ⟨⟨0, false, false⟩, by decide +kernel, rfl, rfl⟩, by decide +kernel⟩
  apply processPerSession_of_rechecked
  intro n e he
  have hn := hchkd n (List.getElem?_eq_some_iff.mp he).1
  rwa [he, Option.all_some] at hn

/-- Two of three messages sent before the first prompt is prepared start a process at once; the
third prompt is prepared after the disposes. -/
def atOnce : List (Event Call Reply) :=
  [.call (.create .codex "a"), .resume 0 (.profile true), .resume 0 (.probed true false),
    .call (.send "a" "first" true), .call (.send "a" "second" true), .call (.send "a" "third" true),
    .resume 0 (.prompt (some "first") true), .resume 0 (.prompt (some "second") true),
    .call (.dispose "a"), .resume 3 (.released true), .call .disposeAll, .resume 3 (.released true),
    .call (.exit 0), .call (.exit 1), .resume 3 (.released true),
    .resume 0 (.prompt (some "third") true)]

/-- Two processes run for the session, and a third is started after the disposes. -/
theorem not_processPerSession_atOnce : ¬ProcessPerSession sampleHost atOnce ∧
    (after sampleHost atOnce 8).shared.processes.RunsFor 0 0 ∧
    (after sampleHost atOnce 8).shared.processes.RunsFor 1 0 ∧
    (after sampleHost atOnce 15).shared.swept = true ∧
    started (after sampleHost atOnce 15).shared (after sampleHost atOnce 16).shared =
      some ⟨0, false, false⟩ := by
  have hfirst : (after sampleHost atOnce 8).shared.processes.RunsFor 0 0 :=
    ⟨⟨0, false, false⟩, by decide +kernel, rfl, rfl⟩
  have hsnd : (after sampleHost atOnce 8).shared.processes.RunsFor 1 0 :=
    ⟨⟨0, false, false⟩, by decide +kernel, rfl, rfl⟩
  refine ⟨?_, hfirst, hsnd, by decide +kernel, by decide +kernel⟩
  intro h
  have heq := h.one 8 0 0 1 hfirst hsnd
  omega

end Catomicals.Desktop.ExecutorRegistry
