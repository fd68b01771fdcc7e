import Catomicals.WalletStorage.Recovery
import Catomicals.WalletStorage.Restore

/-!
# The stretches of a restore

Between two changes that matter, a restore may stop at any of a number of steps and leaves the same
files and guards behind, so what it leaves depends on the stretch only.
-/
namespace Catomicals.WalletStorage

open Base Domain Step Base.Action Machine List

/-- The stretches of a restore, each called after what has been done when it begins. -/
inductive Stretch where
  /-- nothing has been written -/
  | untouched
  /-- the journal is there, but nobody guards it -/
  | loose
  /-- the copy is being prepared -/
  | staging
  /-- the live wallet is in the precheck -/
  | frozen
  /-- the original has been moved, but nobody guards it -/
  | unguarded
  /-- the original has been moved, the journal does not say so yet -/
  | moving
  /-- the original has been moved -/
  | moved
  /-- the new database is in place, the journal does not say so yet -/
  | installing
  /-- the new database is in place -/
  | installed
  /-- the original is gone -/
  | committed
  /-- the journal is gone -/
  | finished
  deriving DecidableEq

namespace Stretch

def all : List Stretch := [.untouched, .loose, .staging, .frozen, .unguarded, .moving, .moved,
  .installing, .installed, .committed, .finished]

def steps : Stretch → List RestoreStep
  | untouched => [.checkJournalAbsent, .writeJournal .preparing, .renameJournal .preparing]
  | loose => [.syncJournal .preparing]
  | staging => [.checkParent, .createPrepared, .writePrepared, .syncPrepared, .lockStaged,
      .connectStaged, .startupStaged, .finishSnapshot, .precheckStaged, .cutoverStaged,
      .beginRecovering, .checkpointStaged, .removeStagedSidecars, .openPrepared,
      .writeJournal .ready, .renameJournal .ready, .syncJournal .ready, .precheckLive]
  | frozen => [.checkpointLive, .removeLiveSidecars, .openLive, .verifyLive, .renameLive]
  | unguarded => [.verifyRollback]
  | moving => [.syncMoved, .writeJournal .originalMoved, .renameJournal .originalMoved]
  | moved => [.syncJournal .originalMoved, .verifyPrepared, .renamePrepared]
  | installing => [.verifyInstalled, .syncInstalled, .writeJournal .installed,
      .renameJournal .installed]
  | installed => [.syncJournal .installed, .connectLive, .startupLive, .verifyMoved,
      .removeRollback]
  | committed => [.syncCommitted, .removeJournal]
  | finished => [.syncFinished]

/-- The stages that a restore only reaches with an image that can be staged. -/
def isStaged (s : Stretch) : Bool := s ∉ [.untouched, .loose, .staging]

end Stretch

/-- An image that can be staged: taken by an export, of an epoch that has a next one. -/
def Db.stageable (image : Db) : Bool :=
  image.metadata.restoreState = .snapshotting ∧ image.metadata.epoch + 1 ≤ maxInteger

/-- The stage in which a restore stops, if it stops. -/
def stopsIn (faults : RestoreStep → Bool) (image : Db) : Option Stretch :=
  Stretch.all.find? fun s => s.steps.any faults || (s = .staging && !image.stageable)

section StageImage

variable {image db : Db} {stagedAt now : Time}

lemma transitionRestore_eq_ok {source target : RestoreState} {db' : Db} :
    transitionRestore db source target now = .ok db' ↔ db.metadata.restoreState = source ∧
      (db.setRestoreState target now).log ("restore." ++ target.asStr) none now = db' := by
  simp only [transitionRestore, requireRestoreState, ok_iff]

lemma transitionRestore_isOk {source : RestoreState} (h : db.metadata.restoreState = source)
    (target : RestoreState) (now : Time) : ∃ db', transitionRestore db source target now = .ok db' ∧
      db'.metadata.restoreState = target ∧ db'.metadata.epoch = db.metadata.epoch :=
  ⟨_, transitionRestore_eq_ok.mpr ⟨h, rfl⟩, rfl, rfl⟩

lemma beginRestorePrecheck_isOk (h : db.metadata.restoreState = .normal) (now : Time) :
    ∃ db', beginRestorePrecheck db now = .ok db' ∧
      db'.metadata.restoreState = .restorePrecheck ∧ db'.metadata.epoch = db.metadata.epoch := by
  simp [beginRestorePrecheck, requireRestoreState, require, h, bind, Except.bind, Db.log,
    Db.setRestoreState]

lemma cutoverRestore_isOk_iff (now : Time) : (∃ db', cutoverRestore db now = .ok db') ↔
    db.metadata.restoreState = .restorePrecheck ∧ db.metadata.epoch + 1 ≤ maxInteger := by
  simp only [cutoverRestore, requireRestoreState, ok_iff]
  constructor
  · rintro ⟨_, hs, _, he, _⟩
    exact ⟨hs, he⟩
  · rintro ⟨hs, he⟩
    have hmax : maxInteger < 2 ^ 64 := by decide
    exact ⟨_, hs, by omega, he, rfl⟩

lemma cutoverRestore_metadata {db' : Db} (h : cutoverRestore db now = .ok db') :
    db'.metadata.restoreState = .cutover ∧ db'.metadata.epoch = db.metadata.epoch + 1 ∧
      db'.metadata.walletId = db.metadata.walletId ∧ db'.requestNonces = db.requestNonces := by
  simp only [cutoverRestore, ok_iff] at h
  obtain ⟨-, -, -, rfl⟩ := h
  exact ⟨rfl, rfl, rfl, rfl⟩

structure Staged (image : Db) (stagedAt now : Time) (finished prechecked cut staged : Db) :
    Prop where
  finish : finishSnapshot (invalidateUnfinishedCeremoniesOnStartup image stagedAt) now =
    .ok finished
  precheck : beginRestorePrecheck finished now = .ok prechecked
  cutover : cutoverRestore prechecked now = .ok cut
  recovering : beginRecovering cut now = .ok staged

lemma stageImage_eq_ok : stageImage image stagedAt now = .ok db ↔
    ∃ finished prechecked cut, Staged image stagedAt now finished prechecked cut db := by
  simp only [stageImage, bind_eq_ok]
  constructor
  · rintro ⟨d₁, h₁, d₂, h₂, d₃, h₃, h₄⟩
    exact ⟨d₁, d₂, d₃, h₁, h₂, h₃, h₄⟩
  · rintro ⟨d₁, d₂, d₃, h⟩
    exact ⟨d₁, h.finish, d₂, h.precheck, d₃, h.cutover, h.recovering⟩

lemma Staged.metadata {d₁ d₂ d₃ : Db} (h : Staged image stagedAt now d₁ d₂ d₃ db) :
    image.stageable = true ∧ db.metadata.restoreState = .recovering ∧
      d₃.metadata.epoch = image.metadata.epoch + 1 ∧
      db.metadata.epoch = image.metadata.epoch + 1 ∧
      db.metadata.walletId = image.metadata.walletId := by
  obtain ⟨hs, hd₁⟩ := transitionRestore_eq_ok.mp h.finish
  have hd₂ := beginRestorePrecheck_authority h.precheck
  obtain ⟨-, he₃, hw₃, -⟩ := cutoverRestore_metadata h.cutover
  have hmax := ((cutoverRestore_isOk_iff now).mp ⟨d₃, h.cutover⟩).2
  obtain ⟨-, hdb⟩ := transitionRestore_eq_ok.mp h.recovering
  have he₂ : d₂.metadata.epoch = image.metadata.epoch := by
    have he := congrArg Authority.epoch hd₂
    rw [← hd₁] at he
    simpa [Db.authority, Db.log, Db.setRestoreState] using he
  have hw₂ : d₂.metadata.walletId = image.metadata.walletId := by
    have hw := congrArg Authority.walletId hd₂
    rw [← hd₁] at hw
    simpa [Db.authority, Db.log, Db.setRestoreState] using hw
  rw [metadata_startup] at hs
  rw [he₂] at he₃ hmax
  subst hdb
  exact ⟨by simp [Db.stageable, hs, hmax], rfl, he₃, he₃, hw₃.trans hw₂⟩

theorem stageImage_isOk_iff :
    (∃ db, stageImage image stagedAt now = .ok db) ↔ image.stageable = true := by
  constructor
  · rintro ⟨db, h⟩
    obtain ⟨_, _, _, h⟩ := stageImage_eq_ok.mp h
    exact h.metadata.1
  · intro h
    simp only [Db.stageable, decide_eq_true_eq] at h
    have hs : (invalidateUnfinishedCeremoniesOnStartup image stagedAt).metadata.restoreState =
        .snapshotting := by rw [metadata_startup, h.1]
    obtain ⟨d₁, hd₁, hs₁, he₁⟩ := transitionRestore_isOk hs .normal now
    obtain ⟨d₂, hd₂, hs₂, he₂⟩ := beginRestorePrecheck_isOk hs₁ now
    have hepoch : d₂.metadata.epoch + 1 ≤ maxInteger := by
      rw [he₂, he₁, metadata_startup]
      exact h.2
    obtain ⟨d₃, hd₃⟩ := (cutoverRestore_isOk_iff now).mpr ⟨hs₂, hepoch⟩
    obtain ⟨db, hdb, -⟩ := transitionRestore_isOk (cutoverRestore_metadata hd₃).1 .recovering now
    exact ⟨db, stageImage_eq_ok.mpr ⟨d₁, d₂, d₃, hd₁, hd₂, hd₃, hdb⟩⟩

end StageImage

section Stages

variable (req : RestoreRequest) (env : Env Step) (recoveryEpoch : ℕ) (image live : Db)

def stagedDb : Db :=
  ((stageImage image (env.clock (.restoring .startupStaged)) req.now).toOption).getD image

def frozenDb : Db := ((beginRestorePrecheck live req.now).toOption).getD live

def reopenedDb : Db :=
  invalidateUnfinishedCeremoniesOnStartup (stagedDb req env image)
    (env.clock (.restoring .startupLive))

namespace Stretch

/-- The actions of a stretch: those that come before a change, and the change. -/
def before : Stretch → List RestoreAction
  | untouched => (createJournal req recoveryEpoch).take 2
  | loose => []
  | staging => writePrepared image ++
      stagePrepared req env live.metadata.epoch (recoveryEpoch - 1) ++
      advance req recoveryEpoch .ready
  | frozen => (freezeLive req).drop 1 ++ moveOriginal.take 2
  | unguarded => []
  | moving => moveOriginal.drop 4 ++ (advance req recoveryEpoch .originalMoved).take 1
  | moved => (advance req recoveryEpoch .originalMoved).drop 2 ++ installPrepared.take 1
  | installing => installPrepared.drop 2 ++ (advance req recoveryEpoch .installed).take 1
  | installed => (advance req recoveryEpoch .installed).drop 2 ++ (commitCutover env).take 3
  | committed => (commitCutover env).drop 4
  | finished => []

def change : Stretch → List RestoreAction
  | untouched => ((createJournal req recoveryEpoch).drop 2).take 1
  | loose => (createJournal req recoveryEpoch).drop 3
  | staging => (freezeLive req).take 1
  | frozen => (moveOriginal.drop 2).take 1
  | unguarded => (moveOriginal.drop 3).take 1
  | moving => ((advance req recoveryEpoch .originalMoved).drop 1).take 1
  | moved => (installPrepared.drop 1).take 1
  | installing => ((advance req recoveryEpoch .installed).drop 1).take 1
  | installed => ((commitCutover env).drop 3).take 1
  | committed => finishJournal.take 1
  | finished => finishJournal.drop 1

def actions (s : Stretch) : List RestoreAction :=
  before req env recoveryEpoch image live s ++ change req env recoveryEpoch s

def entry : Stretch → Machine
  | untouched => .start ⟨some live, none, none, none⟩
  | loose => .start ⟨some live, none, none, some (req.journal recoveryEpoch .preparing)⟩
  | staging =>
    ⟨⟨some live, none, none, some (req.journal recoveryEpoch .preparing)⟩, true, false, false⟩
  | frozen =>
    ⟨⟨some (frozenDb req live), none, some (.written (stagedDb req env image)),
      some (req.journal recoveryEpoch .ready)⟩, true, true, false⟩
  | unguarded =>
    ⟨⟨none, some (frozenDb req live), some (.written (stagedDb req env image)),
      some (req.journal recoveryEpoch .ready)⟩, false, true, false⟩
  | moving =>
    ⟨⟨none, some (frozenDb req live), some (.written (stagedDb req env image)),
      some (req.journal recoveryEpoch .ready)⟩, false, true, true⟩
  | moved =>
    ⟨⟨none, some (frozenDb req live), some (.written (stagedDb req env image)),
      some (req.journal recoveryEpoch .originalMoved)⟩, false, true, true⟩
  | installing =>
    ⟨⟨some (stagedDb req env image), some (frozenDb req live), none,
      some (req.journal recoveryEpoch .originalMoved)⟩, false, true, true⟩
  | installed =>
    ⟨⟨some (stagedDb req env image), some (frozenDb req live), none,
      some (req.journal recoveryEpoch .installed)⟩, false, false, true⟩
  | committed =>
    ⟨⟨some (reopenedDb req env image), none, none,
      some (req.journal recoveryEpoch .installed)⟩, false, false, false⟩
  | finished => ⟨⟨some (reopenedDb req env image), none, none, none⟩, false, false, false⟩

/-- The stage that follows; the last one does not change the machine any more. -/
def next : Stretch → Stretch
  | untouched => loose
  | loose => staging
  | staging => frozen
  | frozen => unguarded
  | unguarded => moving
  | moving => moved
  | moved => installing
  | installing => installed
  | installed => committed
  | committed => finished
  | finished => finished

/-- The machines of a stage: the files and guards that a restore leaves if it stops there. -/
def At (s : Stretch) (m : Machine) : Prop :=
  match s with
  | staging => ∃ prepared phase, phase.isEarly = true ∧
      m.disk = ⟨some live, none, prepared, some (req.journal recoveryEpoch phase)⟩ ∧
      m.journalCleanup = true ∧ m.cutoverActive = false
  | frozen => m.disk = (entry req env recoveryEpoch image live .frozen).disk ∧
      m.cutoverActive = false
  | installing => m.disk = (entry req env recoveryEpoch image live .installing).disk ∧
      m.journalCleanup = false ∧ m.cutoverActive = true
  | installed => ∃ db : Db, db.Holds (stagedDb req env image).contents
        (stagedDb req env image).metadata.restoreState ∧
      m = ⟨⟨some db, some (frozenDb req live), none, some (req.journal recoveryEpoch .installed)⟩,
        false, false, true⟩
  | s => m = entry req env recoveryEpoch image live s

/-- The condition under which a restore leaves a stage. -/
def Clears (s : Stretch) : Prop :=
  Clear (env.part restoring).faults s.steps ∧ (s = .staging → image.stageable = true)

end Stretch

end Stages

section StageSpecs

variable {req : RestoreRequest} {env : Env Step} {recoveryEpoch : ℕ} {image live : Db}

namespace Stretch

/-- A transaction that changes neither the contents nor the restore state of the installed
database. -/
lemma keeps_installed {name : RestoreStep} {e : StorageError} {f : Db → Db}
    (hf : ∀ db c s, db.Holds c s → (f db).Holds c s) :
    (io name e (onDisk (onLive fun db => .ok (f db)))).Keeps
      (At req env recoveryEpoch image live .installed) := by
  rintro _ _ ⟨db, hdb, hm⟩ h
  subst hm
  simp only [io, onDisk_eq_ok, onLive_eq_ok] at h
  obtain ⟨_, ⟨_, _, hlive, hok, rfl⟩, rfl⟩ := h
  cases hlive
  cases hok
  exact ⟨f db, hf db _ _ hdb, rfl⟩

variable {s : Stretch}

variable (req env recoveryEpoch image live s) in
/-- The stage is left for the next one if a condition holds. -/
abbrev Leaves (clear : Prop) : Prop :=
  Base.Stage (env.part restoring).faults (actions req env recoveryEpoch image live s)
    (entry req env recoveryEpoch image live s) (entry req env recoveryEpoch image live s.next)
    clear (At req env recoveryEpoch image live s)

lemma leaves_of_ne_staging (hs : s ≠ .staging) : Leaves req env recoveryEpoch image live s
    (Clear (env.part restoring).faults s.steps) := by
  cases s with
  | staging => exact absurd rfl hs
  | untouched =>
    refine Stage.of_quiet rfl rfl ?_ rfl
    simp only [before, createJournal, take_succ_cons, take_zero, forall_mem_cons,
      keeps_inspect, keeps_io]
    refine ⟨fun t u ht h => ?_, by simp⟩
    split_ifs at h
    exact Except.ok.inj h ▸ ht
  | loose | unguarded | finished => exact .of_quiet rfl rfl (by simp [before]) rfl
  | frozen =>
    refine Stage.of_quiet ⟨rfl, rfl⟩ rfl ?_ rfl
    simp [before, freezeLive, moveOriginal, keeps_pure]
    exact fun _ h => h
  | moving => exact .of_quiet rfl rfl (by simp [before, moveOriginal, advance]) rfl
  | moved => exact .of_quiet rfl rfl (by simp [before, installPrepared, advance]) rfl
  | installing =>
    exact .of_quiet ⟨rfl, rfl, rfl⟩ rfl (by simp [before, installPrepared, advance, At]) rfl
  | installed =>
    refine Stage.of_quiet ⟨_, Db.holds_self _, rfl⟩ rfl ?_ rfl
    simp only [before, commitCutover, advance, drop_succ_cons, drop_zero,
      take_succ_cons, take_zero, cons_append, nil_append,
      forall_mem_cons, keeps_inspect]
    exact ⟨trivial, keeps_installed fun _ _ _ h => h, keeps_installed fun _ _ _ h => h.startup _,
      trivial, by simp⟩
  | committed => exact .of_quiet rfl rfl (by simp [before, commitCutover]) rfl

lemma keeps_staging {prepared : PreparedFile} (m : Machine)
    (hm : At req env recoveryEpoch image live .staging m) :
    At req env recoveryEpoch image live .staging
      { m with disk := { m.disk with prepared := some prepared } } := by
  obtain ⟨_, phase, hphase, hd, hguards⟩ := hm
  exact ⟨some prepared, phase, hphase, by simp [hd], hguards⟩

lemma keeps_staged {fault : Option (RestoreStep × StorageError)} {f : Db → Except StorageError Db} :
    Action.Keeps ⟨fault, onDisk (onPrepared f)⟩ (At req env recoveryEpoch image live .staging) := by
  intro m _ hm h
  simp only [onDisk_eq_ok, onPrepared_eq_ok] at h
  obtain ⟨_, ⟨_, _, _, _, rfl⟩, rfl⟩ := h
  exact keeps_staging m hm

/-- The staging only succeeds with an image that can be staged, and freezes a normal wallet only. -/
lemma staging_of_ok {t : Machine} (h : exec (env.part restoring).faults
    (actions req env recoveryEpoch image live .staging)
    (entry req env recoveryEpoch image live .staging) = (.ok (), t)) :
    image.stageable = true ∧ live.metadata.restoreState = .normal := by
  have hq := exec_quiet_of_ok h
  simp [actions, before, change, writePrepared, stagePrepared, advance, freezeLive, entry,
    exec_cons_eq_ok, onDisk_eq_ok, onPrepared_eq_ok, onLive_eq_ok,
    setJournal] at hq
  obtain ⟨_, h₁, _, h₂, _, h₃, _, hif, _, h₄, _, h₅, -⟩ := hq
  split_ifs at hif
  cases hif
  refine ⟨Staged.metadata ⟨h₁, h₂, h₃, h₄⟩ |>.1, ?_⟩
  simp only [beginRestorePrecheck, requireRestoreState, ok_iff] at h₅
  exact h₅.1

lemma visited_staging : ∀ t ∈ visited (env.part restoring).faults
    (actions req env recoveryEpoch image live .staging)
    (entry req env recoveryEpoch image live .staging),
    At req env recoveryEpoch image live .staging t ∨
      exec (env.part restoring).faults (actions req env recoveryEpoch image live .staging)
        (entry req env recoveryEpoch image live .staging) = (.ok (), t) := by
  have hentry : At req env recoveryEpoch image live .staging
      (entry req env recoveryEpoch image live .staging) := ⟨none, .preparing, rfl, rfl, rfl, rfl⟩
  refine visited_before_last hentry ?_
  simp only [before, writePrepared, stagePrepared, advance, cons_append, nil_append,
    forall_mem_cons, keeps_inspect, keeps_change, true_and]
  refine ⟨fun _ h => h, ?_, keeps_staging, keeps_staged, keeps_staged, keeps_staged, keeps_staged,
    keeps_staged, keeps_staged, keeps_staged, ?_, by simp⟩
  · intro m _ hm h
    simp only [io] at h
    split_ifs at h
    cases h
    exact keeps_staging m hm
  · rintro _ ⟨prepared, _, _, hd, hguards⟩
    refine ⟨prepared, .ready, rfl, ?_, hguards⟩
    simp [setJournal, hd]

lemma leaves_staging (hnormal : live.metadata.restoreState = .normal)
    (hepoch : live.metadata.epoch ≤ image.metadata.epoch) :
    Leaves req env recoveryEpoch image live .staging (Clears env image .staging) where
  run := by
    rintro ⟨hc, himage⟩
    obtain ⟨db, hdb⟩ := stageImage_isOk_iff.mpr (himage rfl)
    have hstaged : stagedDb req env image = db := by rw [stagedDb, hdb]; rfl
    obtain ⟨_, _, d₃, hs⟩ := stageImage_eq_ok.mp hdb
    obtain ⟨l, hl, -⟩ := beginRestorePrecheck_isOk hnormal req.now
    have hfrozen : frozenDb req live = l := by rw [frozenDb, hl]; rfl
    have hcut : ¬d₃.metadata.epoch ≤ live.metadata.epoch := by
      have he := hs.metadata.2.2.1
      omega
    simp only [steps, clear_cons, clear_nil, and_true] at hc
    simp [exec, actions, before, change, writePrepared, stagePrepared, advance, freezeLive, entry,
      next, onDisk, onPrepared, onLive, setJournal, hc, hs.finish, hs.precheck,
      hs.cutover, hs.recovering, hcut, hl, hstaged, hfrozen]
  stop := by
    intro t ht
    exact ⟨clear_of_exec_ok ht, fun _ => (staging_of_ok ht).1⟩
  visit := visited_staging

lemma clears_iff_of_ne (hs : s ≠ .staging) :
    Clear (env.part restoring).faults s.steps ↔ Clears env image s := by
  simp [Clears, hs]

theorem leaves (hnormal : live.metadata.restoreState = .normal)
    (hepoch : live.metadata.epoch ≤ image.metadata.epoch) (s : Stretch) :
    Leaves req env recoveryEpoch image live s (Clears env image s) := by
  by_cases hs : s = .staging
  · subst hs
    exact leaves_staging hnormal hepoch
  · rw [← clears_iff_of_ne hs]
    exact leaves_of_ne_staging hs

lemma all_isChain : all.IsChain fun s s' => entry req env recoveryEpoch image live s.next =
    entry req env recoveryEpoch image live s' := by
  simp [all, next]

lemma stops_iff (s : Stretch) : (s.steps.any (env.part restoring).faults ||
    (decide (s = .staging) && !image.stageable)) = true ↔ ¬Clears env image s := by
  have hany : s.steps.any (env.part restoring).faults = true ↔
      ¬Clear (env.part restoring).faults s.steps := by
    simp [Clear]
  rw [Bool.or_eq_true, hany]
  by_cases hc : Clear (env.part restoring).faults s.steps
  · simp [Clears, hc]
  · simp [Clears, hc]

lemma staging_mem {pre post : List Stretch} (hall : all = pre ++ s :: post)
    (hs : s.isStaged = true) : staging ∈ pre := by
  have hlater : all.Pairwise fun s t => s.isStaged = true → t ≠ .staging := by decide
  have hmem : staging ∈ all := by decide
  rw [hall] at hlater hmem
  have hpost := (pairwise_cons.mp (pairwise_append.mp hlater).2.1).1
  obtain h | h := mem_append.mp hmem
  · exact h
  · obtain rfl | h := mem_cons.mp h
    · cases hs
    · exact absurd rfl (hpost _ h hs)

lemma leaves_of_not_normal (hstate : live.metadata.restoreState ≠ .normal) (s : Stretch) :
    Leaves req env recoveryEpoch image live s
      (s ≠ .staging ∧ Clear (env.part restoring).faults s.steps) := by
  by_cases hs : s = .staging
  · subst hs
    exact ⟨fun h => absurd rfl h.1, fun t ht => absurd (staging_of_ok ht).2 hstate, visited_staging⟩
  · obtain ⟨hrun, hstop, hvisit⟩ : Leaves req env recoveryEpoch image live s _ :=
      leaves_of_ne_staging hs
    exact ⟨fun h => hrun h.2, fun t ht => ⟨hs, hstop t ht⟩, hvisit⟩

end Stretch

section Restore

/-- A crash finds a live wallet that is not in the normal state as it was. -/
theorem visited_restoreActions_of_not_normal (req : RestoreRequest) (recoveryEpoch : ℕ)
    (hstate : live.metadata.restoreState ≠ .normal) : ∀ m ∈ visited (env.part restoring).faults
      (restoreActions req recoveryEpoch env image live.metadata.epoch)
      (.start ⟨some live, none, none, none⟩), ∃ s : Stretch,
        s.isStaged = false ∧ s.At req env recoveryEpoch image live m := by
  intro m hm
  obtain ⟨_, s, _, hall, hpre, hs⟩ | ⟨hclear, -⟩ :=
    visited_stages (Stretch.leaves_of_not_normal hstate) Stretch.all_isChain m hm
  · refine ⟨s, ?_, hs⟩
    by_contra hstaged
    exact (hpre _ (Stretch.staging_mem hall (by simpa using hstaged))).1 rfl
  · exact absurd rfl (hclear .staging (by decide)).1

/-- A restore that runs to its end has found a normal wallet, and leaves one file. -/
theorem exec_restoreActions_eq_ok (hepoch : live.metadata.epoch ≤ image.metadata.epoch)
    {m : Machine} (h : exec (env.part restoring).faults
      (restoreActions req recoveryEpoch env image live.metadata.epoch)
      (.start ⟨some live, none, none, none⟩) = (.ok (), m)) :
    live.metadata.restoreState = .normal ∧ image.stageable = true ∧
      m = Stretch.entry req env recoveryEpoch image live .finished := by
  have hnormal : live.metadata.restoreState = .normal := by
    by_contra hstate
    exact absurd rfl (clear_of_exec_stages (Stretch.leaves_of_not_normal hstate)
      Stretch.all_isChain h .staging (by decide)).1
  have hclear := clear_of_exec_stages (Stretch.leaves hnormal hepoch) Stretch.all_isChain h
  have hrun := h.symm.trans
    (exec_stages_ok (Stretch.leaves hnormal hepoch) Stretch.all_isChain hclear)
  exact ⟨hnormal, (hclear .staging (by decide)).2 rfl, (Prod.mk.inj hrun).2⟩

variable (req recoveryEpoch) (hnormal : live.metadata.restoreState = .normal)
  (hepoch : live.metadata.epoch ≤ image.metadata.epoch)
include hnormal hepoch

/-- A restore that stops leaves the files and the guards of the stage it stops in. -/
theorem exec_restoreActions_error {s : Stretch}
    (hstop : stopsIn (env.part restoring).faults image = some s) :
    ∃ e m, exec (env.part restoring).faults
        (restoreActions req recoveryEpoch env image live.metadata.epoch)
        (.start ⟨some live, none, none, none⟩) = (.error e, m) ∧
      s.At req env recoveryEpoch image live m :=
  exec_stages_error (Stretch.leaves hnormal hepoch) Stretch.all_isChain
    Stretch.stops_iff hstop

/-- A restore that does not stop installs the staged database. -/
theorem exec_restoreActions_ok (hstop : stopsIn (env.part restoring).faults image = none) :
    exec (env.part restoring).faults
        (restoreActions req recoveryEpoch env image live.metadata.epoch)
        (.start ⟨some live, none, none, none⟩) =
      (.ok (), Stretch.entry req env recoveryEpoch image live .finished) := by
  refine exec_stages_ok (Stretch.leaves hnormal hepoch) Stretch.all_isChain ?_
  intro s hs
  have hnot := find?_eq_none.mp hstop s hs
  rw [Stretch.stops_iff] at hnot
  exact not_not.mp hnot

/-- Wherever a crash strikes a restore, it strikes in one of the stages. -/
theorem visited_restoreActions : ∀ m ∈ visited (env.part restoring).faults
    (restoreActions req recoveryEpoch env image live.metadata.epoch)
    (.start ⟨some live, none, none, none⟩), ∃ s : Stretch,
      (s.isStaged = true → image.stageable = true) ∧ s.At req env recoveryEpoch image live m := by
  intro m hm
  obtain ⟨_, s, _, hall, hpre, hs⟩ | ⟨hclear, rfl⟩ :=
    visited_stages (Stretch.leaves hnormal hepoch) Stretch.all_isChain m hm
  · exact ⟨s, fun hstaged => (hpre _ (Stretch.staging_mem hall hstaged)).2 rfl, hs⟩
  · exact ⟨.finished, fun _ => (hclear .staging (by decide)).2 rfl, rfl⟩

end Restore

end StageSpecs

end Catomicals.WalletStorage
