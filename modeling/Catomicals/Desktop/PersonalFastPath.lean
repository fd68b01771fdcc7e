import Catomicals.Base.Bytes
import Catomicals.Desktop.PersonalOwnership

/-!
# The settings the personal signer supervisor remembers

`configure` resolves at once for the settings it remembers as active. A configuration that overtakes
a ready child leaves them behind.
-/
namespace Catomicals.Desktop.PersonalSignerSupervisor

open Base List

variable (s : PersonalSignerSupervisor) (c : Config PersonalSignerSupervisor Pending)
  (key : PersonalSignerRuntimeSettings)

/-- A call of `configure` with these settings resolves at once. -/
def resolvesAtOnce : Bool :=
  s.disposed = false ∧ ¬(s.pendingKey = some key ∧ s.pending.isSome) ∧ s.activeKey = some key

def StartedWith (child : ℕ) : Prop := s.processes[child]?.map Process.tag = some key

/-- A child was started with the settings, said it is ready, and was not heard to end. -/
def Serves : Prop :=
  ∃ generation child, .listening key generation child true true ∈ c.waiting ∧
    c.shared.StartedWith key child

def FastPathSound (events : List (Event Call Reply)) : Prop :=
  ∀ n runtime key, settingsKey runtime = .ok key →
    resolvesAtOnce (after events n).shared key = true → Serves (after events n) key

/-- The settings an activation will remember, as its child is ready. -/
def Pending.readied : Pending → Option PersonalSignerRuntimeSettings
  | .activated key _ true => some key
  | _ => none

/-- A configuration begins when nothing of an earlier one is left, and an activation has remembered
its settings before its child is heard to end. -/
def inTurn : Event Call Reply → Bool
  | .call (.configure runtime) => (configure runtime c.shared).2 ≠ [] → c.waiting = []
  | .resume _ (.childClosed _ _) => ∀ k ∈ c.waiting, k.readied = none
  | _ => true

/-- A task with a child is of the current generation and knows what its child was started with. -/
def Pending.Fits : Pending → Prop
  | .closing key generation child => generation = s.generation ∧ s.StartedWith key child
  | .listening key generation child _ _ => generation = s.generation ∧ s.StartedWith key child
  | _ => True

structure Keeps (k : Pending) (reply : Reply) (r : Segment) : Prop where
  disposed : r.1.disposed = s.disposed
  generation : r.1.generation = s.generation
  started : ∀ key child, s.StartedWith key child → r.1.StartedWith key child
  fits : k.Fits s → ∀ k' ∈ r.2, k'.Fits r.1
  active : ∀ key, r.1.activeKey = some key → s.activeKey = some key ∨ k.readied = some key
  ready : ∀ k' ∈ r.2, ∀ key, k'.readied = some key →
    ∃ generation child, .listening key generation child true true ∈ r.2
  ends : k.Fits s → s.disposed = false → ∀ key generation child,
    k = .listening key generation child true true →
    k ∈ r.2 ∨ r.1.activeKey = none ∧ ∃ code stderr, reply = .childClosed code stderr

variable {s} {s' : PersonalSignerSupervisor} {ks rest : List Pending} {k : Pending} {reply : Reply}
  {r : Segment}

lemma resume_keeps (hr : resume k reply s = some r) : Keeps s k reply r := by
  unfold resume at hr
  split at hr
  case h_1 =>
    rename_i result
    cases result <;> constructor <;>
      grind [provisioned, stopChild, finishFailure, Pending.Fits, Pending.readied, StartedWith,
        Processes.signal]
  case h_4 =>
    rename_i purpose
    cases purpose <;> constructor <;> grind [afterStop, Pending.Fits, Pending.readied, StartedWith]
  case h_9 =>
    unfold listening at hr
    split at hr
    all_goals constructor <;>
      grind [keepListening, failReady, acceptReady, childClosed, dropChild, finishFailure,
        Pending.Fits, Pending.readied, StartedWith, Processes.signal]
  all_goals constructor <;>
    grind [configOpened, finishFailure, Pending.Fits, Pending.readied, StartedWith,
      Processes.signal, Processes.start]

lemma Pending.Fits.mono (h : k.Fits s) (hgen : s'.generation = s.generation)
    (hstarted : ∀ key child, s.StartedWith key child → s'.StartedWith key child) : k.Fits s' := by
  cases k with
  | closing | listening => exact ⟨h.1.trans hgen.symm, hstarted _ _ h.2⟩
  | _ => trivial

structure Serving (s : PersonalSignerSupervisor) (ks : List Pending) : Prop where
  fits : ∀ k ∈ ks, k.Fits s
  serves : ∀ key, s.activeKey = some key ∨ (∃ k ∈ ks, k.readied = some key) →
    ∃ generation child, .listening key generation child true true ∈ ks

lemma Serving.resumes (h : Serving s ks) (hperm : ks.Perm (k :: rest))
    (hr : resume k reply s = some r) (hopen : s.disposed = false)
    (hturn : (∃ code stderr, reply = .childClosed code stderr) → ∀ k ∈ ks, k.readied = none) :
    Serving r.1 (rest ++ r.2) := by
  have hmem : ∀ k' ∈ rest, k' ∈ ks := fun k' hk' => hperm.mem_iff.mpr (mem_cons_of_mem k hk')
  have hself : k ∈ ks := hperm.mem_iff.mpr mem_cons_self
  have hkeeps := resume_keeps hr
  have hfits := h.fits k hself
  refine ⟨?_, ?_⟩
  · refine forall_mem_append.mpr ⟨fun k' hk' => ?_, hkeeps.fits hfits⟩
    exact (h.fits k' (hmem k' hk')).mono hkeeps.generation hkeeps.started
  · intro key hkey
    have hstays : (s.activeKey = some key ∨ ∃ k ∈ ks, k.readied = some key) →
        ¬(r.1.activeKey = none ∧ ∃ code stderr, reply = .childClosed code stderr) →
        ∃ generation child, .listening key generation child true true ∈ rest ++ r.2 := by
      intro hold hgoes
      obtain ⟨generation, child, hlist⟩ := h.serves key hold
      refine ⟨generation, child, mem_append.mpr ?_⟩
      rcases mem_cons.mp (hperm.mem_iff.mp hlist) with heq | hrest
      · exact .inr (heq ▸ (hkeeps.ends hfits hopen key generation child heq.symm).resolve_right
          hgoes)
      · exact .inl hrest
    rcases hkey with hactive | ⟨k', hk', hready⟩
    · refine hstays ((hkeeps.active key hactive).imp_right fun hready => ⟨k, hself, hready⟩) ?_
      rintro ⟨hnone, -⟩
      simp [hnone] at hactive
    rcases mem_append.mp hk' with hrest | hnew
    · refine hstays (.inr ⟨k', hmem k' hrest, hready⟩) ?_
      rintro ⟨-, hclosed⟩
      simp [hturn hclosed k' (hmem k' hrest)] at hready
    · obtain ⟨generation, child, hlist⟩ := hkeeps.ready k' hnew key hready
      exact ⟨generation, child, mem_append_right _ hlist⟩

variable {c} in
lemma Serving.calls {x : Call}
    (h : c.shared.disposed = false → Serving c.shared c.waiting) (hturn : inTurn c (.call x) = true)
    (hopen : (call x c.shared).1.disposed = false) :
    Serving (call x c.shared).1 (c.waiting ++ (call x c.shared).2) := by
  cases x with
  | configure runtime =>
    simp only [inTurn, decide_eq_true_eq] at hturn
    simp only [call] at hopen ⊢
    unfold configure at hturn hopen ⊢
    grind [Pending.Fits, Pending.readied, Serving]
  | dispose =>
    simp only [call] at hopen
    grind [dispose, stopChild]
  | exit pid =>
    rw [call, append_nil]
    have hserving := h hopen
    refine ⟨fun k hk => (hserving.fits k hk).mono rfl ?_, hserving.serves⟩
    grind [StartedWith, Processes.exit]

/-- If configurations and ends of children come in turn, `configure` resolves at once only while a
child started with the settings is ready. -/
theorem fastPathSound_of_inTurn (events : List (Event Call Reply))
    (h : ∀ n e, events[n]? = some e → inTurn (after events n) e = true) : FastPathSound events := by
  intro n _ key _ hresolves
  simp only [resolvesAtOnce, decide_eq_true_eq] at hresolves
  have hserving := Program.run_keeps (P := program) (c := ⟨.fresh, []⟩)
    (I := fun c => c.shared.disposed = false → Serving c.shared c.waiting)
    (C := fun c e => inTurn c e = true) (fun _ => ⟨forall_mem_nil _, by
      rintro key (h | ⟨_, h, _⟩) <;> cases h⟩)
    (Program.step_keeps (fun c x hc hturn => Serving.calls hc hturn) ?_) h n hresolves.1
  · obtain ⟨generation, child, hlist⟩ := hserving.serves key (.inl hresolves.2.2)
    exact ⟨generation, child, hlist, (hserving.fits _ hlist).2⟩
  · intro c i k reply r hi hr hc hturn hopen
    have hopen' : c.shared.disposed = false := (resume_keeps hr).disposed ▸ hopen
    refine (hc hopen').resumes (c.perm_without hi) hr hopen' ?_
    rintro ⟨code, stderr, rfl⟩
    simpa [inTurn] using hturn

def sampleKey : PersonalSignerRuntimeSettings :=
  { sampleRuntime 2000 with
    chainScope := some defaultChainScope, signingSuiteId := some defaultSigningSuite }

/-- A child becomes ready and is stopped for other settings. -/
def stopped : List (Event Call Reply) :=
  reconfigured.take 6 ++ [.resume 0 (.readyLine true), .resume 1 .settled, .resume 1 .settled,
    .call (.configure (sampleRuntime 3000)), .resume 1 (.provisioned .found), .call (.exit 0),
    .resume 0 (.childClosed (some 0) "")]

theorem fastPathSound_ready : FastPathSound (stopped.take 9) ∧
    resolvesAtOnce (after stopped 9).shared sampleKey = true := by
  have hturn : ∀ n < 9, ∀ e ∈ (stopped.take 9)[n]?, inTurn (after (stopped.take 9) n) e = true := by
    decide +kernel
  refine ⟨fastPathSound_of_inTurn _ fun n e he => hturn n ?_ e he, by decide +kernel⟩
  exact (List.getElem?_eq_some_iff.mp he).1

/-- The stopped child has ended, and `configure` still resolves at once with its settings. -/
theorem not_fastPathSound_stopped : ¬FastPathSound stopped ∧
    settingsKey (sampleRuntime 2000) = .ok sampleKey ∧
    resolvesAtOnce (after stopped 13).shared sampleKey = true ∧
    (after stopped 13).shared.processes.Exited 0 ∧ (after stopped 13).shared.child = none := by
  have hkey : settingsKey (sampleRuntime 2000) = .ok sampleKey := by decide +kernel
  have hresolves : resolvesAtOnce (after stopped 13).shared sampleKey = true := by decide +kernel
  have hwaiting : (after stopped 13).waiting =
      [.stopTerm (.activation { sampleKey with sessionTimeoutMs := 3000 } 2) 0] := by decide +kernel
  refine ⟨?_, hkey, hresolves, by decide +kernel, by decide +kernel⟩
  intro h
  obtain ⟨generation, child, hmem, -⟩ := h 13 _ _ hkey hresolves
  simp [hwaiting] at hmem

end Catomicals.Desktop.PersonalSignerSupervisor
