import Catomicals.Base.Actions
import Catomicals.WalletStorage.Backup

/-!
# Wallet files, and opening a wallet

A restore works on four files: the live database, the copy it prepares, the original it moves aside,
and the journal. An opening first brings an interrupted restore to an end. Calls that change none of
the files and fail with the error of a neighbouring call are part of that call's action.
-/
namespace Catomicals.WalletStorage

open Base Domain

/-- What the environment decides about a call: which steps fail, and the times of SQLite's clock. -/
structure Env (ν : Type) where
  faults : ν → Bool
  clock : ν → Time

def Env.quiet {ν : Type} (clock : ν → Time) : Env ν := ⟨fun _ => false, clock⟩

def Env.part {ν μ : Type} (env : Env ν) (f : μ → ν) : Env μ := ⟨env.faults ∘ f, env.clock ∘ f⟩

inductive CutoverPhase where
  | preparing | ready | originalMoved | installed | recoveredRolledBack | recoveredContinued
  | recoveredCleaned
  deriving DecidableEq

/-- The journal of a restore. Its other files are the disk's, as their names are drawn afresh. -/
structure CutoverJournal where
  version : ℕ
  (recoveryId walletId : Uuid)
  recoveryEpoch : ℕ
  occurredAt : Time
  phase : CutoverPhase
  deriving DecidableEq

/-- The prepared copy: created, or with a database written to it. -/
inductive PreparedFile where
  | created
  | written (db : Db)
  deriving DecidableEq

structure Disk where
  (live rollback : Option Db)
  prepared : Option PreparedFile
  journal : Option CutoverJournal
  deriving DecidableEq

inductive OpenStep where
  | acquireLock | readJournal | inspectArtifacts | listDirectory | validateInstalled
  | validateOriginal | validateRollback | validateLive | removePrepared | removeRollback
  | removeLive | renameRollback | verifyLive | syncDirectory | readClock | writeReceipt
  | renameReceipt | syncReceipt | connect | startup | recordRecovery | rereadJournal | removeJournal
  | syncJournal
  deriving DecidableEq

abbrev OpenAction := Action OpenStep StorageError Disk

section Recovery

variable (env : Env OpenStep) (disk : Disk) (j : CutoverJournal)

def ioError : StorageError := .backup .io

def validateInstalledRecoveryDatabase (db : Db) : Bool :=
  db.metadata.walletId = j.walletId ∧ db.metadata.epoch = j.recoveryEpoch ∧
    db.metadata.restoreState = .recovering

def validateOriginalRecoveryDatabase (db : Db) : Bool :=
  0 < j.recoveryEpoch ∧ db.metadata.walletId = j.walletId ∧
    db.metadata.epoch = j.recoveryEpoch - 1 ∧
    (db.metadata.restoreState = .normal ∨ db.metadata.restoreState = .restorePrecheck)

def journalOutcome (kind : CrashRecoveryKind) : CrashRecoveryOutcome :=
  ⟨kind, some j.recoveryId, j.occurredAt⟩

/-- Goes on only if a file holds a database that passes a validation. -/
def validateFile (step : OpenStep) (file : Disk → Option Db) (valid : Db → Bool) : OpenAction :=
  .io step (.backup .invalidDatabase) fun d =>
    if (file d).any valid then .ok d else .error (.backup .invalidDatabase)

def removePreparedFile : OpenAction :=
  .change .removePrepared ioError fun d => { d with prepared := none }

def removeRollbackFile : OpenAction :=
  .change .removeRollback ioError fun d => { d with rollback := none }

def removeLiveFile : OpenAction :=
  .change .removeLive ioError fun d => { d with live := none }

def renameRollbackFile : OpenAction :=
  .change .renameRollback (.backup .cutoverFailed) fun d =>
    { d with live := d.rollback, rollback := none }

def syncDirectory : OpenAction := .inspect .syncDirectory ioError

def persistRecoveryReceipt (phase : CutoverPhase) : List OpenAction :=
  [.inspect .writeReceipt ioError,
    .change .renameReceipt ioError fun d => { d with journal := some { j with phase := phase } },
    .inspect .syncReceipt ioError]

/-- `cleanup_orphan_restore_files`; the order of the two files is of no consequence. -/
def cleanupOrphanRestoreFiles : List OpenAction × Option CrashRecoveryOutcome :=
  if disk.live.isNone then ([], none)
  else if disk.prepared.isNone ∧ disk.rollback.isNone then ([.inspect .listDirectory ioError], none)
  else
    ([.inspect .listDirectory ioError, removePreparedFile, removeRollbackFile, syncDirectory,
        .inspect .readClock (.backup .invalidDatabase)],
      some ⟨.cleanedOrphan, none, env.clock .readClock⟩)

/-- The new database is in place: the original goes. -/
def continueInstall : List OpenAction :=
  [removePreparedFile, removeRollbackFile, syncDirectory] ++
    persistRecoveryReceipt j .recoveredContinued

/-- The original goes back to its place, whatever is there. -/
def rollBack : List OpenAction :=
  [validateFile .validateRollback Disk.rollback (validateOriginalRecoveryDatabase j),
    removeLiveFile, renameRollbackFile, .inspect .verifyLive ioError, removePreparedFile,
    syncDirectory, validateFile .validateLive Disk.live (validateOriginalRecoveryDatabase j)] ++
    persistRecoveryReceipt j .recoveredRolledBack

def keepLive (phase : CutoverPhase) : List OpenAction :=
  [removePreparedFile, syncDirectory] ++ persistRecoveryReceipt j phase

def CutoverPhase.isEarly (p : CutoverPhase) : Bool := p = .preparing ∨ p = .ready

/-- A journal whose phase is none of the recovered ones. -/
def recoverActive : List OpenAction × Option CrashRecoveryOutcome :=
  let installed : Bool := j.phase = .installed ∧
    disk.live.any (validateInstalledRecoveryDatabase j) ∧ !env.faults .validateInstalled
  let original : Bool := disk.live.any (validateOriginalRecoveryDatabase j) ∧
    !env.faults .validateOriginal
  if disk.rollback.isSome then
    if installed then (continueInstall j, some (journalOutcome j .continued))
    else (rollBack j, some (journalOutcome j .rolledBack))
  else if original then
    if j.phase.isEarly then
      (keepLive j .recoveredCleaned, some (journalOutcome j .cleanedOrphan))
    else (keepLive j .recoveredRolledBack, some (journalOutcome j .rolledBack))
  else if installed then
    (keepLive j .recoveredContinued, some (journalOutcome j .continued))
  else ([.pure fun _ => .error (.backup .invalidCutoverJournal)], none)

def recoverReceipt : List OpenAction × Option CrashRecoveryOutcome :=
  let original := validateFile .validateLive Disk.live (validateOriginalRecoveryDatabase j)
  match j.phase with
  | .recoveredRolledBack => ([original], some (journalOutcome j .rolledBack))
  | .recoveredContinued =>
    ([validateFile .validateLive Disk.live (validateInstalledRecoveryDatabase j)],
      some (journalOutcome j .continued))
  | .recoveredCleaned => ([original], some (journalOutcome j .cleanedOrphan))
  | _ => ([], none)

def CutoverPhase.isRecovered (p : CutoverPhase) : Bool :=
  p = .recoveredRolledBack ∨ p = .recoveredContinued ∨ p = .recoveredCleaned

def validateCutoverJournal : Bool := j.version = 1 ∧ j.recoveryEpoch ≠ 0

/-- `recover_interrupted_cutover`: the actions, and the outcome if they succeed. -/
def recoverInterruptedCutover : List OpenAction × Option CrashRecoveryOutcome :=
  match disk.journal with
  | none => cleanupOrphanRestoreFiles env disk
  | some j =>
    if validateCutoverJournal j then
      let plan := if j.phase.isRecovered then recoverReceipt j else recoverActive env disk j
      (.inspect .inspectArtifacts ioError :: plan.1, plan.2)
    else ([.pure fun _ => .error (.backup .invalidCutoverJournal)], none)

def completeInterruptedCutover (o : CrashRecoveryOutcome) : List OpenAction :=
  match o.recoveryId with
  | none => []
  | some id =>
    [.io .rereadJournal ioError fun d =>
        if d.journal.any fun j => j.recoveryId = id ∧ j.phase.isRecovered then .ok d
        else .error (.backup .invalidCutoverJournal),
      .change .removeJournal ioError fun d => { d with journal := none },
      .inspect .syncJournal ioError]

end Recovery

def onLive (f : Db → Except StorageError Db) (d : Disk) : Except StorageError Disk :=
  match d.live with
  | none => .error .notInitialized
  | some db =>
    match f db with
    | .error e => .error e
    | .ok db' => .ok { d with live := some db' }

lemma onLive_eq_ok {f : Db → Except StorageError Db} {d d' : Disk} : onLive f d = .ok d' ↔
    ∃ db db', d.live = some db ∧ f db = .ok db' ∧ { d with live := some db' } = d' := by
  unfold onLive
  cases hd : d.live with
  | none => simp
  | some db => cases hf : f db <;> simp [hf]

section Open

variable (env : Env OpenStep) (disk : Disk)

def openDatabaseConnection : List OpenAction :=
  [.io .connect .sqlite (onLive .ok),
    .io .startup .sqlite
      (onLive fun db => .ok (invalidateUnfinishedCeremoniesOnStartup db (env.clock .startup)))]

/-- What an opening does after the recovery has come to an outcome. -/
def settle : Option CrashRecoveryOutcome → List OpenAction
  | none => []
  | some o =>
    .io .recordRecovery .sqlite (onLive fun db => .ok (recordCutoverRecovery db o)) ::
      completeInterruptedCutover o

def openActions : List OpenAction :=
  [.inspect .acquireLock .io, .inspect .readJournal ioError] ++
    (recoverInterruptedCutover env disk).1 ++ openDatabaseConnection env ++
    settle (recoverInterruptedCutover env disk).2

/-- `WalletStorage::open`: the database or an error, and the files afterwards. -/
def openWallet : Except StorageError Db × Disk :=
  match exec env.faults (openActions env disk) disk with
  | (.error e, d) => (.error e, d)
  | (.ok _, d) => (orError d.live .notInitialized, d)

/-- The files a crash during an opening can leave. -/
def openCrashes : List Disk := visited env.faults (openActions env disk) disk

end Open

end Catomicals.WalletStorage
