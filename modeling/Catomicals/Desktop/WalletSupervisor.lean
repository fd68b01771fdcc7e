import Catomicals.Base.Cooperative
import Catomicals.Base.Processes
import Catomicals.Desktop.Url
import Mathlib.Tactic.Common

/-!
# The supervisor of the wallet process

`desktop/src/wallet-supervisor.ts`. The supervisor adopts a server that answers, and otherwise
launches the wallet as a child process. Every await is a continuation, and answers arrive in any
order.
-/
namespace Catomicals.Desktop

open Base Processes

inductive ProcessMode where
  | managed | external
deriving DecidableEq

structure ChainScopeDocument where
  schemaVersion : ℕ
  (chain network : String)
deriving DecidableEq

structure ChainSigningSelection where
  chainScope : ChainScopeDocument
  signingSuiteId : String

structure WalletRuntimeSettings where
  endpoint : String
  processMode : ProcessMode
  rpOrigin : String
  (walletDataDirectory bitcoinDataDirectory : Option String)
  signing : Option ChainSigningSelection

structure ExecutorCommand where
  executable : String
  (args environmentKeys : List String)

/-- What the supervisor is built with: the runtime's URL parser and the wallet command. -/
structure WalletHost where
  parseUrl : String → Except String Url
  command : String

def startupAttempts : ℕ := 40

def chainIds : List String :=
  ["bitcoin", "bitcoin-cash", "bsv", "fractal-bitcoin", "kaspa", "chia", "ergo"]

def validIdentifier (value : String) : Bool :=
  match value.toList with
  | [] => false
  | first :: rest => first.isAlphanum && rest.length ≤ 127
      && rest.all fun c => c.isAlphanum || ['.', '_', ':', '-'].contains c

def parseChainScope (value : ChainScopeDocument) : Except String ChainScopeDocument := do
  require (value.schemaVersion = 1 ∧ value.chain ∈ chainIds
    ∧ value.network.startsWith (value.chain ++ ".") ∧ utf16Length value.network ≤ 128)
    "invalid chain scope"
  pure value

def validateSigningSelection :
    Option ChainSigningSelection → Except String (Option ChainSigningSelection)
  | none => .ok none
  | some value => do
    let chainScope ← parseChainScope value.chainScope
    require (validIdentifier value.signingSuiteId) "invalid signing suite id"
    pure (some ⟨chainScope, value.signingSuiteId⟩)

def validateDataDirectory (label : String) : Option String → Except String (Option String)
  | none => .ok none
  | some value => do
    require (value.startsWith "/" ∧ utf16Length value ≤ 4096
      ∧ value.toList.all fun c => !(['\x00', '\r', '\n'].contains c))
      ("invalid " ++ label ++ " directory")
    pure (some value)

variable (H : WalletHost)

/-- The checks `start` makes before it changes anything. -/
def checkedSettings (input : WalletRuntimeSettings) : Except String WalletRuntimeSettings := do
  let endpoint ← parseLoopbackWalletEndpoint H.parseUrl input.endpoint
  let rpOrigin ← parseLoopbackOrigin H.parseUrl input.rpOrigin
  let walletDataDirectory ← validateDataDirectory "wallet data" input.walletDataDirectory
  let bitcoinDataDirectory ← validateDataDirectory "Bitcoin data" input.bitcoinDataDirectory
  let signing ← validateSigningSelection input.signing
  pure { endpoint, processMode := input.processMode, rpOrigin := rpOrigin.origin,
         walletDataDirectory, bitcoinDataDirectory, signing }

def walletCommand (settings : WalletRuntimeSettings) : Except String ExecutorCommand := do
  let endpoint ← H.parseUrl settings.endpoint
  let port := if endpoint.port = "" then "80" else endpoint.port
  let rpOrigin ← H.parseUrl settings.rpOrigin
  let dataDirectory := match settings.walletDataDirectory with
    | some directory => ["--data-dir", directory, "--allow-self-hosted-development-secrets"]
    | none => []
  let bitcoinDirectory := match settings.bitcoinDataDirectory with
    | some directory => ["--datadir", directory]
    | none => []
  pure { executable := H.command
         args := ["wallet", "serve", "--addr", endpoint.hostname ++ ":" ++ port,
           "--rp-id", rpOrigin.hostname, "--rp-origin", rpOrigin.origin,
           "--cors-origin", rpOrigin.origin] ++ dataDirectory ++ bitcoinDirectory
         environmentKeys := [] }

/-- The fields of the supervisor, and the processes its host has started. -/
structure WalletNodeSupervisor where
  child : Option ℕ
  settings : Option WalletRuntimeSettings
  disposed : Bool
  generation : ℕ
  processes : Processes ExecutorCommand

def WalletNodeSupervisor.fresh : WalletNodeSupervisor := ⟨none, none, false, 0, []⟩

namespace WalletNodeSupervisor

/-- Where a task of the supervisor goes on, with the variables it still uses. -/
inductive Pending where
  | startProbe (input : WalletRuntimeSettings)
  | startSigning (input : WalletRuntimeSettings)
  | launchProbe (settings : WalletRuntimeSettings) (child attempt : ℕ)
  | launchSigning
  | launchWait (settings : WalletRuntimeSettings) (child attempt : ℕ)
  | completion (child generation : ℕ)
  | restartWait (settings : WalletRuntimeSettings) (generation : ℕ)
  | restartProbe (settings : WalletRuntimeSettings) (generation : ℕ)
  | monitorWait (settings : WalletRuntimeSettings) (generation : ℕ)
  | monitorProbe (settings : WalletRuntimeSettings) (generation : ℕ)

/-- What an awaited step returned; for a probe also whether a process can start. -/
inductive Reply where
  | probed (healthy : Bool) (starts : Bool)
  | waited
  | configured (succeeded : Bool)
  | completed

/-- The calls on the supervisor, and the exit of a process. -/
inductive Call where
  | start (input : WalletRuntimeSettings)
  | dispose
  | exit (pid : ℕ)

/-- What a part of a task leaves: the supervisor, and the continuations that wait. -/
abbrev Segment := WalletNodeSupervisor × List Pending

variable (settings : WalletRuntimeSettings)

def launch (starts : Bool) (s : WalletNodeSupervisor) : Segment :=
  if s.disposed then (s, [])
  else
    let generation := s.generation + 1
    match walletCommand H settings, starts with
    | .ok command, true =>
      let child := s.processes.length
      -- the first attempt finds the child it has just recorded, so the loop begins with a probe
      ({ s with generation, child := some child, processes := s.processes.start command },
        [.completion child generation, .launchProbe settings child 0])
    | _, _ => ({ s with generation }, [])

/-- The next round of the loop in `launch`. -/
def launchAttempt (child attempt : ℕ) (s : WalletNodeSupervisor) : Segment :=
  if attempt < startupAttempts then
    if s.disposed ∨ s.child ≠ some child then (s, [])
    else (s, [.launchProbe settings child attempt])
  else
    ({ s with
       processes := s.processes.signal child
       child := if s.child = some child then none else s.child }, [])

def childExited (child generation : ℕ) (s : WalletNodeSupervisor) : Segment :=
  if s.disposed ∨ s.child ≠ some child ∨ s.generation ≠ generation then (s, [])
  else
    match s.settings with
    | some settings =>
      if settings.processMode = .managed then
        ({ s with child := none }, [.restartWait settings generation])
      else ({ s with child := none }, [])
    | none => ({ s with child := none }, [])

def monitorAdopted (generation : ℕ) (s : WalletNodeSupervisor) : Segment :=
  (s, [.monitorWait settings generation])

variable (input : WalletRuntimeSettings)

def start (s : WalletNodeSupervisor) : Segment :=
  if s.disposed then (s, [])
  else
    match checkedSettings H input with
    | .error _ => (s, [])
    | .ok settings => ({ s with settings := some settings }, [.startProbe settings])

def dispose (s : WalletNodeSupervisor) : Segment :=
  if s.disposed then (s, [])
  else
    ({ s with
       disposed := true
       generation := s.generation + 1
       child := none
       processes := match s.child with
         | some child => s.processes.signal child
         | none => s.processes }, [])

def call : Call → WalletNodeSupervisor → Segment
  | .start input => start H input
  | .dispose => dispose
  | .exit pid => fun s => ({ s with processes := s.processes.exit pid }, [])

/-- After the first probe of `start`, which goes on with the supervisor's settings of that time. -/
def startProbed (healthy starts : Bool) (s : WalletNodeSupervisor) : Segment :=
  if healthy then (s, [.startSigning input])
  else
    match input.processMode, s.settings with
    | .managed, some settings => launch H settings starts s
    | _, _ => (s, [])

/-- After the signing request of `start`: configuring may fail, reading the status never does. -/
def startConfigured (succeeded : Bool) (s : WalletNodeSupervisor) : Segment :=
  if input.signing.isSome ∧ succeeded = false then (s, [])
  else
    match input.processMode, s.settings with
    | .managed, some settings =>
      monitorAdopted settings (s.generation + 1) { s with generation := s.generation + 1 }
    | _, _ => (s, [])

def resume : Pending → Reply → WalletNodeSupervisor → Option Segment
  | .startProbe input, .probed healthy starts, s => some (startProbed H input healthy starts s)
  | .startSigning input, .configured succeeded, s => some (startConfigured input succeeded s)
  | .launchProbe settings child attempt, .probed healthy _, s =>
    if healthy then some (s, [.launchSigning])
    else some (s, [.launchWait settings child attempt])
  | .launchSigning, .configured _, s => some (s, [])
  | .launchWait settings child attempt, .waited, s =>
    some (launchAttempt settings child (attempt + 1) s)
  | .completion child generation, .completed, s =>
    if s.processes.Exited child then some (childExited child generation s) else none
  | .restartWait settings generation, .waited, s =>
    if s.disposed ∨ s.generation ≠ generation then some (s, [])
    else some (s, [.restartProbe settings generation])
  | .restartProbe settings _, .probed healthy starts, s =>
    if healthy then some ({ s with generation := s.generation + 1 }, [])
    else some (launch H settings starts s)
  | .monitorWait settings generation, .waited, s =>
    if s.disposed ∨ s.generation ≠ generation ∨ s.child.isSome then some (s, [])
    else some (s, [.monitorProbe settings generation])
  | .monitorProbe settings generation, .probed healthy starts, s =>
    if healthy then some (monitorAdopted settings generation s)
    else some (launch H settings starts s)
  | _, _, _ => none

def program : Program WalletNodeSupervisor Call Pending Reply := ⟨call H, resume H⟩

/-- What a part of a task can do to the child, the dispose flag and the processes. -/
inductive Moves (s s' : WalletNodeSupervisor) : Prop
  | aside (hdisposed : s'.disposed = s.disposed) (hchild : s'.child = s.child)
      (hprocesses : s'.processes = s.processes)
  | launches (command : ExecutorCommand) (hopen : s.disposed = false)
      (hdisposed : s'.disposed = s.disposed) (hchild : s'.child = some s.processes.length)
      (hprocesses : s'.processes = s.processes.start command)
  | forgets (child : ℕ) (hexited : s.processes.Exited child) (hrecorded : s.child = some child)
      (hdisposed : s'.disposed = s.disposed) (hchild : s'.child = none)
      (hprocesses : s'.processes = s.processes)
  | interrupts (child : ℕ) (hdisposed : s'.disposed = s.disposed)
      (hchild : s'.child = if s.child = some child then none else s.child)
      (hprocesses : s'.processes = s.processes.signal child)
  | exits (pid : ℕ) (hdisposed : s'.disposed = s.disposed) (hchild : s'.child = s.child)
      (hprocesses : s'.processes = s.processes.exit pid)
  | disposes (hchild : s'.child = none) (hprocesses : s'.processes =
      match s.child with
      | some child => s.processes.signal child
      | none => s.processes)

variable {H} {s : WalletNodeSupervisor}

lemma Moves.refl (s : WalletNodeSupervisor) : Moves s s := .aside rfl rfl rfl

lemma launch_moves (starts : Bool) : Moves s (launch H settings starts s).1 := by
  unfold launch
  split_ifs with hdisposed
  · exact .refl s
  · split
    · exact .launches _ (by simpa using hdisposed) rfl rfl rfl
    · exact .aside rfl rfl rfl

lemma childExited_moves {child : ℕ} (generation : ℕ) (hexited : s.processes.Exited child) :
    Moves s (childExited child generation s).1 := by
  unfold childExited
  split_ifs with hstale
  · exact .refl s
  · have hrecorded : s.child = some child := by
      by_contra hne
      exact hstale (.inr (.inl hne))
    split
    · split_ifs
      · exact .forgets child hexited hrecorded rfl rfl rfl
      · exact .forgets child hexited hrecorded rfl rfl rfl
    · exact .forgets child hexited hrecorded rfl rfl rfl

theorem call_moves (call : Call) : Moves s (WalletNodeSupervisor.call H call s).1 := by
  cases call with
  | start =>
    simp only [WalletNodeSupervisor.call, start]
    split_ifs
    · exact .refl s
    · split
      · exact .refl s
      · exact .aside rfl rfl rfl
  | dispose =>
    simp only [WalletNodeSupervisor.call, dispose]
    split_ifs
    · exact .refl s
    · exact .disposes rfl rfl
  | exit pid => exact .exits pid rfl rfl rfl

theorem resume_moves {k : Pending} {reply : Reply} {r : Segment} (h : resume H k reply s = some r) :
    Moves s r.1 := by
  unfold resume at h
  split at h
  · cases h
    unfold startProbed
    split_ifs
    · exact .refl s
    · split
      · exact launch_moves _ _
      · exact .refl s
  · cases h
    unfold startConfigured
    split_ifs
    · exact .refl s
    · split
      · exact .aside rfl rfl rfl
      · exact .refl s
  · split_ifs at h
    all_goals
      cases h
      exact .refl s
  · cases h
    exact .refl s
  · cases h
    unfold launchAttempt
    split
    · split_ifs
      · exact .refl s
      · exact .refl s
    · exact .interrupts _ rfl rfl rfl
  · split_ifs at h with hexited
    cases h
    exact childExited_moves _ hexited
  · split_ifs at h
    all_goals
      cases h
      exact .refl s
  · split_ifs at h
    · cases h
      exact .aside rfl rfl rfl
    · cases h
      exact launch_moves _ _
  · split_ifs at h
    all_goals
      cases h
      exact .refl s
  · split_ifs at h
    · cases h
      exact .refl s
    · cases h
      exact launch_moves _ _
  · cases h

def Starts (s s' : WalletNodeSupervisor) : Prop := s.processes.length < s'.processes.length

/-- The only live process is the recorded child, and there is none after dispose. -/
def Owned (s : WalletNodeSupervisor) : Prop :=
  ∀ pid, s.processes.Live pid → s.child = some pid ∧ s.disposed = false

def Busy (s : WalletNodeSupervisor) : Prop := ∃ pid, s.child = some pid ∧ s.processes.Live pid

variable {s' : WalletNodeSupervisor}

lemma Moves.of_starts (h : Moves s s') (hstarts : Starts s s') : s.disposed = false ∧
    ∃ command, s'.processes = s.processes.start command := by
  unfold Starts at hstarts
  cases h with
  | launches command hopen _ _ hprocesses => exact ⟨hopen, command, hprocesses⟩
  | aside _ _ hprocesses | forgets _ _ _ _ _ hprocesses | interrupts _ _ _ hprocesses
  | exits _ _ _ hprocesses =>
    simp [hprocesses] at hstarts
  | disposes _ hprocesses =>
    rw [hprocesses] at hstarts
    split at hstarts <;> simp at hstarts

/-- Every part of a task keeps the ownership, unless it launches over a live child. -/
theorem Moves.owned (h : Moves s s') (hown : Owned s) (hfree : Starts s s' → ¬Busy s) :
    Owned s' := by
  intro pid hlive
  cases h with
  | aside hdisposed hchild hprocesses =>
    rw [hprocesses] at hlive
    rw [hchild, hdisposed]
    exact hown pid hlive
  | launches _ hopen hdisposed hchild hprocesses =>
    rw [hprocesses, live_start] at hlive
    rw [hchild, hdisposed]
    rcases hlive with hlive | hnew
    · -- an older live process is the recorded child, which the launch would have lost
      have hbusy : Busy s := ⟨pid, (hown pid hlive).1, hlive⟩
      exact absurd hbusy (hfree (by simp [Starts, hprocesses]))
    · exact ⟨by rw [hnew], hopen⟩
  | forgets _ hexited hrecorded _ _ hprocesses =>
    rw [hprocesses] at hlive
    have hpid := (hown pid hlive).1
    rw [hrecorded] at hpid
    cases hpid
    exact absurd hlive (not_live_of_exited hexited)
  | interrupts child hdisposed hchild hprocesses =>
    rw [hprocesses, live_signal] at hlive
    obtain ⟨hpid, hopen⟩ := hown pid hlive.1
    have hother : ¬s.child = some child := by
      rw [hpid]
      intro heq
      exact hlive.2 (Option.some.inj heq)
    rw [hchild, if_neg hother, hdisposed]
    exact ⟨hpid, hopen⟩
  | exits _ hdisposed hchild hprocesses =>
    rw [hprocesses, live_exit] at hlive
    rw [hchild, hdisposed]
    exact hown pid hlive.1
  | disposes _ hprocesses =>
    rw [hprocesses] at hlive
    cases hrecorded : s.child with
    | none =>
      simp only [hrecorded] at hlive
      have hpid := (hown pid hlive).1
      simp [hrecorded] at hpid
    | some =>
      simp only [hrecorded, live_signal] at hlive
      have hpid := (hown pid hlive.1).1
      rw [hrecorded] at hpid
      exact absurd (Option.some.inj hpid).symm hlive.2

lemma Moves.not_busy (h : Moves s s') (hone : ∀ p q, s'.processes.Live p → s'.processes.Live q →
    p = q) (hstarts : Starts s s') : ¬Busy s := by
  rintro ⟨pid, _, hlive⟩
  obtain ⟨_, command, hprocesses⟩ := h.of_starts hstarts
  have hnew : s'.processes.Live s.processes.length := by
    rw [hprocesses, live_start]
    exact .inr rfl
  have hold : s'.processes.Live pid := by
    rw [hprocesses, live_start]
    exact .inl hlive
  have heq := hone _ _ hold hnew
  have hlt := hlive.running.lt
  omega

variable (H)

def after (events : List (Event Call Reply)) (n : ℕ) : WalletNodeSupervisor :=
  ((program H).run ⟨.fresh, []⟩ (events.take n)).shared

/-- One live process at most, none after dispose, and none started after it. Dispose awaits nothing,
so it has completed once its flag is set. -/
structure OwnsOneAtMost (events : List (Event Call Reply)) : Prop where
  one : ∀ n p q, (after H events n).processes.Live p → (after H events n).processes.Live q → p = q
  none_left : ∀ n, (after H events n).disposed = true → ∀ p, ¬(after H events n).processes.Live p
  none_started : ∀ n, (after H events n).disposed = true →
    ¬Starts (after H events n) (after H events (n + 1))

variable {H} {events : List (Event Call Reply)} {n : ℕ}

lemma after_moves : Moves (after H events n) (after H events (n + 1)) := by
  unfold after
  cases he : events[n]? with
  | none =>
    rw [Program.run_take_of_none he]
    exact .refl _
  | some =>
    rw [Program.run_take_succ he]
    exact Program.step_relates (R := Moves) .refl (fun x _ => call_moves x)
      (fun _ _ _ _ h => resume_moves h) _ _

/-- One wallet process at most is live, and none after dispose, exactly if no launch of the run
replaces a recorded child that is still live. -/
theorem ownsOneAtMost_iff (H : WalletHost) (events : List (Event Call Reply)) :
    OwnsOneAtMost H events ↔ ∀ n, Starts (after H events n) (after H events (n + 1)) →
      ¬Busy (after H events n) := by
  constructor
  · intro h n hstarts
    exact after_moves.not_busy (h.one (n + 1)) hstarts
  · intro h
    have hown : ∀ n, Owned (after H events n) := by
      intro n
      induction n with
      | zero =>
        rintro pid ⟨p, hp, _⟩
        cases hp
      | succ n ih => exact after_moves.owned ih (h n)
    refine ⟨?_, ?_, ?_⟩
    · intro n p q hp hq
      have hboth : some p = some q := (hown n p hp).1.symm.trans (hown n q hq).1
      exact Option.some.inj hboth
    · intro n hdisposed p hp
      have hopen := (hown n p hp).2
      simp [hdisposed] at hopen
    · intro n hdisposed hstarts
      have hopen := (after_moves.of_starts hstarts).1
      simp [hdisposed] at hopen

def localHost : WalletHost where
  parseUrl := fun _ => .ok
    { protocol := "http:", hostname := "127.0.0.1", port := "8787", username := ""
      password := "", pathname := "/", search := "", hash := ""
      origin := "http://127.0.0.1:8787" }
  command := "catomicals"

def managedSettings : WalletRuntimeSettings :=
  ⟨"http://127.0.0.1:8787", .managed, "http://127.0.0.1:8787", none, none, none⟩

/-- Two starts whose probes both find no server, and a dispose afterwards. -/
def twoStarts : List (Event Call Reply) :=
  [.call (.start managedSettings), .call (.start managedSettings),
    .resume 0 (.probed false true), .resume 0 (.probed false true), .call .dispose]

/-- Both starts launch a child; the first is never interrupted, not even by dispose. -/
theorem not_ownsOneAtMost_twoStarts : ¬OwnsOneAtMost localHost twoStarts ∧
    (after localHost twoStarts 4).processes.Live 0 ∧
    (after localHost twoStarts 4).processes.Live 1 ∧
    (after localHost twoStarts 5).disposed = true ∧
    (after localHost twoStarts 5).processes.Live 0 := by
  have hfirst : (after localHost twoStarts 4).processes.Live 0 := by decide +kernel
  have hsnd : (after localHost twoStarts 4).processes.Live 1 := by decide +kernel
  refine ⟨?_, hfirst, hsnd, by decide +kernel, by decide +kernel⟩
  intro h
  have heq := h.one 4 0 1 hfirst hsnd
  omega

end WalletNodeSupervisor

end Catomicals.Desktop
