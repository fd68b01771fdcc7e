import Catomicals.WalletStorage.Disk

/-!
# Restoring a backup

`restore_encrypted_backup` as the sequence of its actions. Three guards clean up when it returns
early; they are flags that the actions set and clear, and are dropped in a fixed order.
-/
namespace Catomicals.WalletStorage

open Base Domain

structure Machine where
  disk : Disk
  /-- `CutoverJournalGuard` exists and `cleanup_on_drop` is set -/
  journalCleanup : Bool
  /-- `PreparedDatabaseGuard` exists and is armed -/
  preparedArmed : Bool
  /-- `CutoverGuard` exists and is active -/
  cutoverActive : Bool

def Machine.start (disk : Disk) : Machine := ⟨disk, false, false, false⟩

inductive RestoreStep where
  | readMetadata | checkJournalAbsent
  | writeJournal (phase : CutoverPhase) | renameJournal (phase : CutoverPhase)
  | syncJournal (phase : CutoverPhase)
  | checkParent | createPrepared | writePrepared | syncPrepared
  | lockStaged | connectStaged | startupStaged | finishSnapshot | precheckStaged | cutoverStaged
  | beginRecovering | checkpointStaged | removeStagedSidecars | openPrepared
  | precheckLive | checkpointLive | removeLiveSidecars | openLive
  | verifyLive | renameLive | verifyRollback | syncMoved
  | verifyPrepared | renamePrepared | verifyInstalled | syncInstalled
  | connectLive | startupLive | verifyMoved | removeRollback | syncCommitted
  | removeJournal | syncFinished
  deriving DecidableEq

inductive DropStep where
  | verifyRollback | inspectLive | removeSidecars | verifyLive | removeLive | verifyMoved
  | renameRollback | verifyRestored | syncRestored | removeCutoverJournal | removePrepared
  | removeJournal
  deriving DecidableEq

inductive Step where
  | opening (s : OpenStep)
  | restoring (s : RestoreStep)
  | dropping (s : DropStep)
  deriving DecidableEq

/-- What a restore is asked to do. The recovery id is drawn at random. -/
structure RestoreRequest where
  bundle : Bundle
  backend : Option BackupBackend
  expectedWalletId : Uuid
  now : Time
  recoveryId : Uuid

abbrev RestoreAction := Action RestoreStep StorageError Machine

abbrev DropAction := Action DropStep StorageError Machine

def Machine.onDisk (f : Disk → Except StorageError Disk) (m : Machine) :
    Except StorageError Machine :=
  match f m.disk with
  | .error e => .error e
  | .ok d => .ok { m with disk := d }

def onPrepared (f : Db → Except StorageError Db) (d : Disk) : Except StorageError Disk :=
  match d.prepared with
  | some (.written db) =>
    match f db with
    | .error e => .error e
    | .ok db' => .ok { d with prepared := some (.written db') }
  | _ => .error .notInitialized

lemma Machine.onDisk_eq_ok {f : Disk → Except StorageError Disk} {m m' : Machine} :
    m.onDisk f = .ok m' ↔ ∃ d, f m.disk = .ok d ∧ { m with disk := d } = m' := by
  unfold onDisk
  cases f m.disk <;> simp

lemma onPrepared_eq_ok {f : Db → Except StorageError Db} {d d' : Disk} : onPrepared f d = .ok d' ↔
    ∃ db db', d.prepared = some (.written db) ∧ f db = .ok db' ∧
      { d with prepared := some (.written db') } = d' := by
  unfold onPrepared
  split
  · rename_i db hd
    cases hf : f db <;> simp [hf, hd]
  · rename_i hd
    constructor
    · intro h
      cases h
    · rintro ⟨db, _, hdb, _⟩
      exact absurd hdb (hd db)

section Restore

variable (req : RestoreRequest) (recoveryEpoch : ℕ) (phase : CutoverPhase)

def RestoreRequest.journal : CutoverJournal :=
  ⟨1, req.recoveryId, req.expectedWalletId, recoveryEpoch, req.now, phase⟩

def Machine.setJournal (m : Machine) : Machine :=
  { m with disk := { m.disk with journal := some (req.journal recoveryEpoch phase) } }

def advance : List RestoreAction :=
  [.inspect (.writeJournal phase) ioError,
    .change (.renameJournal phase) ioError (Machine.setJournal req recoveryEpoch phase),
    .inspect (.syncJournal phase) ioError]

/-- `CutoverJournalGuard::create`: the guard exists once the journal is on disk and synced. -/
def createJournal : List RestoreAction :=
  [.io .checkJournalAbsent ioError fun m =>
      if m.disk.journal.isSome then .error (.backup .invalidCutoverJournal) else .ok m,
    .inspect (.writeJournal .preparing) ioError,
    .change (.renameJournal .preparing) ioError (Machine.setJournal req recoveryEpoch .preparing),
    .change (.syncJournal .preparing) ioError fun m => { m with journalCleanup := true }]

/-- `PreparedDatabaseGuard::new` and `write`. -/
def writePrepared (image : Db) : List RestoreAction :=
  [.change .checkParent (.backup .cutoverFailed) fun m => { m with preparedArmed := true },
    .io .createPrepared ioError fun m =>
      if m.disk.prepared.isSome then .error ioError
      else .ok { m with disk := { m.disk with prepared := some .created } },
    .change .writePrepared ioError fun m =>
      { m with disk := { m.disk with prepared := some (.written image) } },
    .inspect .syncPrepared ioError]

/-- The calls on the staged copy; the result is closed and verified. -/
def stagePrepared (env : Env Step) (current manifestEpoch : ℕ) : List RestoreAction :=
  [.inspect .lockStaged .io,
    .io .connectStaged .sqlite (Machine.onDisk (onPrepared .ok)),
    .io .startupStaged .sqlite (Machine.onDisk (onPrepared fun db =>
      .ok (invalidateUnfinishedCeremoniesOnStartup db (env.clock (.restoring .startupStaged))))),
    .io .finishSnapshot .sqlite (Machine.onDisk (onPrepared (finishSnapshot · req.now))),
    .io .precheckStaged .sqlite (Machine.onDisk (onPrepared (beginRestorePrecheck · req.now))),
    .io .cutoverStaged .sqlite (Machine.onDisk (onPrepared (cutoverRestore · req.now))),
    .pure (Machine.onDisk (onPrepared fun db =>
      if db.metadata.epoch ≤ current then
        .error (.backup (.staleRecoveryEpoch current manifestEpoch))
      else .ok db)),
    .io .beginRecovering .sqlite (Machine.onDisk (onPrepared (beginRecovering · req.now))),
    .inspect .checkpointStaged (.backup .cutoverFailed),
    .inspect .removeStagedSidecars ioError,
    .inspect .openPrepared ioError]

/-- The live wallet stops, and its file is ready to be moved. -/
def freezeLive : List RestoreAction :=
  [.io .precheckLive .sqlite (Machine.onDisk (onLive (beginRestorePrecheck · req.now))),
    .inspect .checkpointLive (.backup .cutoverFailed),
    .inspect .removeLiveSidecars (.backup .cutoverFailed),
    .inspect .openLive ioError]

/-- `preserve_for_cutover` and `CutoverGuard::begin`: the guard exists once the moved file has been
verified. -/
def moveOriginal : List RestoreAction :=
  [.pure fun m => .ok { m with journalCleanup := false },
    .inspect .verifyLive ioError,
    .io .renameLive (.backup .cutoverFailed) fun m =>
      match m.disk.live with
      | none => .error (.backup .cutoverFailed)
      | some db => .ok { m with disk := { m.disk with live := none, rollback := some db } },
    .change .verifyRollback ioError fun m => { m with cutoverActive := true },
    .inspect .syncMoved ioError]

/-- `CutoverGuard::install` and `PreparedDatabaseGuard::disarm`. -/
def installPrepared : List RestoreAction :=
  [.inspect .verifyPrepared ioError,
    .io .renamePrepared (.backup .cutoverFailed) fun m =>
      match m.disk.prepared with
      | some (.written db) =>
        .ok { m with disk := { m.disk with live := some db, prepared := none } }
      | _ => .error (.backup .cutoverFailed),
    .change .verifyInstalled ioError fun m => { m with preparedArmed := false },
    .inspect .syncInstalled ioError]

/-- The installed database is opened, and `CutoverGuard::commit` removes the original. -/
def commitCutover (env : Env Step) : List RestoreAction :=
  [.io .connectLive .sqlite (Machine.onDisk (onLive .ok)),
    .io .startupLive .sqlite (Machine.onDisk (onLive fun db =>
      .ok (invalidateUnfinishedCeremoniesOnStartup db (env.clock (.restoring .startupLive))))),
    .inspect .verifyMoved ioError,
    .change .removeRollback ioError fun m =>
      { m with disk := { m.disk with rollback := none }, cutoverActive := false },
    .inspect .syncCommitted ioError]

def finishJournal : List RestoreAction :=
  [.change .removeJournal ioError fun m =>
      { m with disk := { m.disk with journal := none }, journalCleanup := false },
    .inspect .syncFinished ioError]

/-- The actions of a restore after it has opened the live wallet and accepted the backup. -/
def restoreActions (env : Env Step) (image : Db) (current : ℕ) : List RestoreAction :=
  createJournal req recoveryEpoch ++ writePrepared image ++
    stagePrepared req env current (recoveryEpoch - 1) ++ advance req recoveryEpoch .ready ++
    freezeLive req ++ moveOriginal ++ advance req recoveryEpoch .originalMoved ++
    installPrepared ++ advance req recoveryEpoch .installed ++ commitCutover env ++ finishJournal

end Restore

/-- The drop of `CutoverGuard`, which stops at the first step that fails. -/
def dropCutover (m : Machine) : List DropAction :=
  if m.cutoverActive then
    [.inspect .verifyRollback ioError, .inspect .inspectLive ioError] ++
      (if m.disk.live.isSome then
        [.inspect .removeSidecars ioError, .inspect .verifyLive ioError,
          .change .removeLive ioError fun m => { m with disk := { m.disk with live := none } }]
      else []) ++
      [.inspect .verifyMoved ioError,
        .change .renameRollback ioError fun m =>
          { m with disk := { m.disk with live := m.disk.rollback, rollback := none } },
        .inspect .verifyRestored ioError, .inspect .syncRestored ioError,
        .change .removeCutoverJournal ioError fun m =>
          { m with disk := { m.disk with journal := none } }]
  else []

def dropPrepared (m : Machine) : List DropAction :=
  if m.preparedArmed then
    [.change .removePrepared ioError fun m => { m with disk := { m.disk with prepared := none } }]
  else []

def dropJournal (m : Machine) : List DropAction :=
  if m.journalCleanup then
    [.change .removeJournal ioError fun m => { m with disk := { m.disk with journal := none } }]
  else []

/-- In the order in which they are dropped. No guard looks at what another one changes before it. -/
def guards (m : Machine) : List (List DropAction) := [dropCutover m, dropPrepared m, dropJournal m]

/-- The clean-up: no guard stops another one. -/
def cleanUp (faults : DropStep → Bool) : List (List DropAction) → Machine → Machine
  | [], m => m
  | g :: gs, m => cleanUp faults gs (exec faults g m).2

def cleanUpCrashes (faults : DropStep → Bool) : List (List DropAction) → Machine → List Machine
  | [], m => [m]
  | g :: gs, m => visited faults g m ++ cleanUpCrashes faults gs (exec faults g m).2

section Restore

variable (F : BundleFormat) (env : Env Step) (req : RestoreRequest)

def runRestore (image : Db) (recoveryEpoch : ℕ) (live : Db) (disk : Disk) :
    Except StorageError Db × Disk :=
  match exec (env.part .restoring).faults
      (restoreActions req recoveryEpoch env image live.metadata.epoch) (.start disk) with
  | (.ok _, m) => (orError m.disk.live .notInitialized, m.disk)
  | (.error e, m) => (.error e, (cleanUp (env.part .dropping).faults (guards m) m).disk)

/-- `restore_encrypted_backup`: the restored wallet or an error, and the files afterwards. -/
def restoreEncryptedBackup (disk : Disk) : Except StorageError Db × Disk :=
  match acceptBundle F req.backend req.bundle req.expectedWalletId with
  | .error e => (.error (.backup e), disk)
  | .ok (manifest, image) =>
    match openWallet (env.part .opening) disk with
    | (.error e, disk) => (.error e, disk)
    | (.ok live, disk) =>
      if env.faults (.restoring .readMetadata) then (.error .sqlite, disk)
      else
        match checkAgainstLive manifest live.metadata req.expectedWalletId with
        | .error e => (.error (.backup e), disk)
        | .ok recoveryEpoch => runRestore env req image recoveryEpoch live disk

def runRestoreCrashes (image : Db) (recoveryEpoch : ℕ) (live : Db) (disk : Disk) : List Disk :=
  let actions := restoreActions req recoveryEpoch env image live.metadata.epoch
  let faults := (env.part Step.restoring).faults
  (visited faults actions (.start disk)).map Machine.disk ++
    match exec faults actions (.start disk) with
    | (.ok _, _) => []
    | (.error _, m) =>
      (cleanUpCrashes (env.part .dropping).faults (guards m) m).map Machine.disk

def restoreCrashes (disk : Disk) : List Disk :=
  disk ::
    match acceptBundle F req.backend req.bundle req.expectedWalletId with
    | .error _ => []
    | .ok (manifest, image) =>
      openCrashes (env.part .opening) disk ++
        match openWallet (env.part .opening) disk with
        | (.error _, _) => []
        | (.ok live, disk) =>
          if env.faults (.restoring .readMetadata) then []
          else
            match checkAgainstLive manifest live.metadata req.expectedWalletId with
            | .error _ => []
            | .ok recoveryEpoch => runRestoreCrashes env req image recoveryEpoch live disk

variable {F env req} {disk d : Disk}

/-- A restore is cut short before it does anything, while it opens the wallet, or behind its
checks. -/
lemma mem_restoreCrashes (hd : d ∈ restoreCrashes F env req disk) :
    d = disk ∨ ∃ manifest image,
      acceptBundle F req.backend req.bundle req.expectedWalletId = .ok (manifest, image) ∧
      (d ∈ openCrashes (env.part .opening) disk ∨ ∃ live disk' epoch,
        openWallet (env.part .opening) disk = (.ok live, disk') ∧
        checkAgainstLive manifest live.metadata req.expectedWalletId = .ok epoch ∧
        d ∈ runRestoreCrashes env req image epoch live disk') := by
  refine (List.mem_cons.mp hd).imp_right fun hd => ?_
  split at hd
  · cases hd
  · rename_i manifest image hbundle
    refine ⟨manifest, image, hbundle, (List.mem_append.mp hd).imp_right fun hd => ?_⟩
    split at hd
    · cases hd
    · rename_i live disk' hopen
      split_ifs at hd
      · cases hd
      · split at hd
        · cases hd
        · rename_i epoch hcheck
          exact ⟨live, disk', epoch, hopen, hcheck, hd⟩

end Restore

end Catomicals.WalletStorage
