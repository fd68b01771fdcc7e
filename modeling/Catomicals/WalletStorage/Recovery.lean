import Catomicals.WalletStorage.Disk
import Catomicals.WalletStorage.Effects

/-!
# What an opening makes of the wallet files

Which database an undisturbed opening comes up with, for each combination of files an interrupted
restore can leave, and which files a crash during an opening can leave.
-/
namespace Catomicals.WalletStorage

open Base Domain CeremonyRow CrashRecoveryOutcome Env Base.Action List

/-- A ceremony, whether or not it has been invalidated before it was completed. -/
def CeremonyRow.reopened (c : CeremonyRow) : CeremonyRow :=
  if c.completedAt = none then { c with invalidatedAt := none } else c

/-- What a database holds, apart from its restore state, its audit log, and the invalidation of
unfinished ceremonies. -/
structure Contents where
  authority : Authority
  materials : Rows MaterialRow.key
  registry : Registry
  ceremonies : List CeremonyRow

def Db.contents (db : Db) : Contents :=
  ⟨db.authority, db.materials, db.registry, db.ceremonies.rows.map reopened⟩

/-- A database with given contents in a given restore state. -/
structure Db.Holds (db : Db) (c : Contents) (s : RestoreState) : Prop where
  contents : db.contents = c
  state : db.metadata.restoreState = s

lemma Db.holds_self (db : Db) : db.Holds db.contents db.metadata.restoreState := ⟨rfl, rfl⟩

variable {db : Db} {c : Contents} {s : RestoreState} {o : CrashRecoveryOutcome}

lemma Db.Holds.walletId (h : db.Holds c s) : db.metadata.walletId = c.authority.walletId :=
  congrArg (fun c : Contents => c.authority.walletId) h.contents

lemma Db.Holds.epoch (h : db.Holds c s) : db.metadata.epoch = c.authority.epoch :=
  congrArg (fun c : Contents => c.authority.epoch) h.contents

lemma reopened_invalidate (t : Rows CeremonyRow.id) (p : CeremonyRow → Bool) (now : Time)
    (hp : ∀ c, p c = true → c.completedAt = none) :
    (t.update p (fun c => { c with invalidatedAt := some now }) fun _ => rfl).rows.map
      reopened = t.rows.map reopened := by
  unfold Rows.update
  rw [map_map]
  apply map_congr_left
  intro c _
  by_cases h : p c = true
  · have hc := hp c h
    simp [h, reopened, hc]
  · simp [h]

@[simp] lemma Db.contents_log (db : Db) (eventType : String) (subject : Option AuditSubject)
    (now : Time) : (db.log eventType subject now).contents = db.contents := rfl

lemma contents_ceremonies {t : Rows CeremonyRow.id}
    (h : t.rows.map reopened = db.ceremonies.rows.map reopened) :
    { db with ceremonies := t }.contents = db.contents := by
  unfold Db.contents
  rw [h]
  rfl

lemma startup_eq (db : Db) (now : Time) :
    ∃ ceremonies : Rows CeremonyRow.id,
      ceremonies.rows.map reopened = db.ceremonies.rows.map reopened ∧
      (invalidateUnfinishedCeremoniesOnStartup db now = { db with ceremonies := ceremonies } ∨
        invalidateUnfinishedCeremoniesOnStartup db now =
          { db with ceremonies := ceremonies }.log "approval.startup_invalidated" none now) := by
  refine ⟨_, reopened_invalidate db.ceremonies
    (fun c => c.walletId = db.metadata.walletId ∧ c.epoch = db.metadata.epoch ∧
      c.completedAt = none ∧ c.invalidatedAt = none) now fun c hc => by simp_all, ?_⟩
  by_cases h : db.ceremonies.any (fun c => c.walletId = db.metadata.walletId ∧
      c.epoch = db.metadata.epoch ∧ c.completedAt = none ∧ c.invalidatedAt = none) = true
  · exact .inr (if_pos h)
  · exact .inl (if_neg h)

lemma contents_startup (db : Db) (now : Time) :
    (invalidateUnfinishedCeremoniesOnStartup db now).contents = db.contents := by
  obtain ⟨_, hc, h | h⟩ := startup_eq db now
  · rw [h, contents_ceremonies hc]
  · rw [h, Db.contents_log, contents_ceremonies hc]

@[simp] lemma metadata_startup (db : Db) (now : Time) :
    (invalidateUnfinishedCeremoniesOnStartup db now).metadata = db.metadata := by
  obtain ⟨_, _, h | h⟩ := startup_eq db now
  · rw [h]
  · rw [h]
    rfl

lemma Db.Holds.startup (h : db.Holds c s) (now : Time) :
    (invalidateUnfinishedCeremoniesOnStartup db now).Holds c s :=
  ⟨(contents_startup db now).trans h.contents, by rw [metadata_startup, h.state]⟩

lemma contents_recordCutoverRecovery (db : Db) (o : CrashRecoveryOutcome) :
    (recordCutoverRecovery db o).contents = db.contents := by
  unfold recordCutoverRecovery
  split_ifs <;> rfl

variable {now : Time} {id : Uuid} {env : Env OpenStep} {clock : OpenStep → Time}
  {outcome : Option CrashRecoveryOutcome} {prepared : Option PreparedFile}

lemma beginRestorePrecheck_holds {db' : Db} (h : beginRestorePrecheck db now = .ok db') :
    db'.Holds db.contents .restorePrecheck := by
  simp only [beginRestorePrecheck, ok_iff] at h
  obtain ⟨-, rfl⟩ := h
  refine ⟨?_, rfl⟩
  exact contents_ceremonies (reopened_invalidate db.ceremonies _ now fun c hc => by simp_all)

/-- The roll back of a restore has been recorded. -/
def Db.Recorded (db : Db) (id : Uuid) : Prop :=
  ∃ e ∈ db.audit, e.eventType = "restore.crash_rolled_back" ∧ e.subjectId = some (.uuid id)

lemma recorded_iff : (db.audit.any fun e =>
    e.eventType = "restore.crash_rolled_back" ∧ e.subjectId = some (.uuid id)) = true ↔
      db.Recorded id := by
  simp only [any_eq_true, decide_eq_true_eq]
  rfl

lemma recorded_startup :
    (invalidateUnfinishedCeremoniesOnStartup db now).Recorded id ↔ db.Recorded id := by
  obtain ⟨_, _, h | h⟩ := startup_eq db now
  · rw [h]
    rfl
  · rw [h]
    simp [Db.Recorded, Db.log, or_and_right, exists_or]

lemma CrashRecoveryOutcome.eventType_ne_of_ne (ho : o.kind ≠ .rolledBack) :
    o.eventType ≠ "restore.crash_rolled_back" := by
  unfold eventType
  split
  · rename_i hk
    exact absurd hk ho
  · decide
  · decide

lemma state_recordCutoverRecovery_of_ne (db : Db) (ho : o.kind ≠ .rolledBack) :
    (recordCutoverRecovery db o).metadata.restoreState = db.metadata.restoreState := by
  have he := eventType_ne_of_ne ho
  unfold recordCutoverRecovery
  split_ifs with _ h₂
  · rfl
  · exact absurd h₂.1 he
  · rfl

lemma recorded_recordCutoverRecovery_of_ne (db : Db) (ho : o.kind ≠ .rolledBack) :
    (recordCutoverRecovery db o).Recorded id ↔ db.Recorded id := by
  have he := eventType_ne_of_ne ho
  unfold recordCutoverRecovery
  split_ifs with _ h₂
  · rfl
  · exact absurd h₂.1 he
  · simp [Db.Recorded, Db.log, or_and_right, exists_or, he]

/-- The live database after the transactions of an opening with this outcome. -/
def openedDb (outcome : Option CrashRecoveryOutcome) (startedAt : Time) (db : Db) : Db :=
  let started := invalidateUnfinishedCeremoniesOnStartup db startedAt
  outcome.elim started (recordCutoverRecovery started)

section OpenedDb

variable {t : Time} (h : db.Holds c s)
include h

lemma Db.Holds.openedDb_none : (openedDb none t db).Holds c s := h.startup t

lemma Db.Holds.openedDb_of_ne (ho : o.kind ≠ .rolledBack) : (openedDb (some o) t db).Holds c s where
  contents := (contents_recordCutoverRecovery _ o).trans (h.startup t).contents
  state := (state_recordCutoverRecovery_of_ne _ ho).trans (h.startup t).state

lemma Db.Holds.openedDb_rolledBack (hid : o.recoveryId = some id) (ho : o.kind = .rolledBack)
    (hs : s = .normal ∨ s = .restorePrecheck ∧ ¬db.Recorded id) :
    (openedDb (some o) t db).Holds c .normal where
  contents := (contents_recordCutoverRecovery _ o).trans (h.startup t).contents
  state := by
    obtain ⟨_, _, _⟩ := o
    cases hid
    cases ho
    rw [← (h.startup t).state] at hs
    simp only [openedDb, Option.elim_some, recordCutoverRecovery]
    split_ifs with h₁ h₂
    · obtain hn | ⟨-, hr⟩ := hs
      · exact hn
      · exact absurd (recorded_startup.mp (recorded_iff.mp h₁)) hr
    · rfl
    · obtain hn | ⟨hp, -⟩ := hs
      · exact hn
      · exact absurd ⟨rfl, hp⟩ h₂

end OpenedDb

/-- An undisturbed opening ends with a database that holds something in some state. -/
def Opens (clock : OpenStep → Time) (disk : Disk) (c : Contents) (s : RestoreState) : Prop :=
  ∃ db, (openWallet (.quiet clock) disk).1 = .ok db ∧ db.Holds c s

def Rejects (clock : OpenStep → Time) (disk : Disk) : Prop :=
  ∃ e, (openWallet (.quiet clock) disk).1 = .error e

/-- An opening whose recovery has an outcome finds the receipt of it. -/
def Receipt (outcome : Option CrashRecoveryOutcome) (d : Disk) : Prop :=
  ∀ o ∈ outcome, ∀ id ∈ o.recoveryId, ∃ j ∈ d.journal, j.recoveryId = id ∧ j.phase.isRecovered

section Open

variable {disk d t : Disk} {plan : List OpenAction}

lemma openWallet_mem_openCrashes (env : Env OpenStep) (disk : Disk) :
    (openWallet env disk).2 ∈ openCrashes env disk := by
  have hmem := exec_mem_visited env.faults (openActions env disk) disk
  unfold openWallet openCrashes
  split <;> simp_all

lemma clear_of_openWallet_ok (h : openWallet env disk = (.ok db, d)) :
    Clear env.faults (names (openActions env disk)) := by
  unfold openWallet at h
  split at h
  · cases h
  · rename_i hx
    exact clear_of_exec_ok hx

lemma openWallet_quiet (hplan : recoverInterruptedCutover (.quiet clock) disk = (plan, outcome))
    (hexec : exec (fun _ => false) plan disk = (.ok (), d)) (hlive : d.live = some db)
    (hrcpt : Receipt outcome d) :
    (openWallet (.quiet clock) disk).1 = .ok (openedDb outcome (clock .startup) db) := by
  obtain ⟨_, _, _, journal⟩ := d
  subst hlive
  unfold openWallet openActions
  rw [hplan]
  simp only [quiet, cons_append, nil_append, exec, perform_inspect,
    Bool.false_eq_true, if_false, append_assoc]
  rw [exec_append_of_ok hexec]
  cases outcome with
  | none => simp [openDatabaseConnection, settle, exec, onLive, openedDb, orError]
  | some o =>
    cases hid : o.recoveryId with
    | none =>
      simp [openDatabaseConnection, settle, exec, onLive, openedDb, orError,
        completeInterruptedCutover, hid]
    | some id =>
      obtain ⟨j, hj, hjid, hphase⟩ := hrcpt o rfl id hid
      have hj' : journal = some j := hj
      subst hj'
      simp [openDatabaseConnection, settle, exec, onLive, openedDb, orError,
        completeInterruptedCutover, hid, hjid, hphase]

end Open

/-- The contents of the wallet a restore replaces. -/
def CutoverJournal.Replaces (j : CutoverJournal) (c : Contents) : Prop :=
  c.authority.walletId = j.walletId ∧ c.authority.epoch + 1 = j.recoveryEpoch

/-- The contents of the wallet a restore installs. -/
def CutoverJournal.Installs (j : CutoverJournal) (c : Contents) : Prop :=
  c.authority.walletId = j.walletId ∧ c.authority.epoch = j.recoveryEpoch

section Validate

variable {j : CutoverJournal}

lemma validateOriginal_iff (h : db.Holds c s) : validateOriginalRecoveryDatabase j db = true ↔
    j.Replaces c ∧ (s = .normal ∨ s = .restorePrecheck) := by
  obtain ⟨rfl, rfl⟩ := h
  unfold validateOriginalRecoveryDatabase CutoverJournal.Replaces Db.contents Db.authority
  simp only [decide_eq_true_eq]
  constructor
  · rintro ⟨_, hw, he, hs⟩
    exact ⟨⟨hw, by omega⟩, hs⟩
  · rintro ⟨⟨hw, _⟩, hs⟩
    exact ⟨by omega, hw, by omega, hs⟩

lemma validateInstalled_iff (h : db.Holds c s) : validateInstalledRecoveryDatabase j db = true ↔
    j.Installs c ∧ s = .recovering := by
  obtain ⟨rfl, rfl⟩ := h
  unfold validateInstalledRecoveryDatabase CutoverJournal.Installs Db.contents Db.authority
  simp only [decide_eq_true_eq, and_assoc]

end Validate

section Idle

variable {rollback : Option Db}

lemma orphanOutcome_cases (env : Env OpenStep) (disk : Disk) :
    (cleanupOrphanRestoreFiles env disk).2 = none ∨
      (cleanupOrphanRestoreFiles env disk).2 =
        some ⟨.cleanedOrphan, none, env.clock .readClock⟩ := by
  unfold cleanupOrphanRestoreFiles
  split_ifs <;> simp

lemma openedDb_orphan (disk : Disk) (t : Time) :
    let db' := openedDb (cleanupOrphanRestoreFiles env disk).2 t db
    (∀ c s, db.Holds c s → db'.Holds c s) ∧ ∀ id, db'.Recorded id ↔ db.Recorded id := by
  obtain ho | ho := orphanOutcome_cases env disk
  · rw [ho]
    exact ⟨fun _ _ h => h.openedDb_none, fun _ => recorded_startup⟩
  · rw [ho]
    refine ⟨fun _ _ h => h.openedDb_of_ne (by simp), fun _ => ?_⟩
    simp only [openedDb, Option.elim]
    rw [recorded_recordCutoverRecovery_of_ne _ (by simp), recorded_startup]

/-- Without a journal, an undisturbed opening removes the other files and opens the live database as
it is. -/
lemma exec_openActions_idle (env : Env OpenStep) (db : Db) (rollback : Option Db)
    (prepared : Option PreparedFile) :
    exec (fun _ => false) (openActions env ⟨some db, rollback, prepared, none⟩)
        ⟨some db, rollback, prepared, none⟩ =
      (.ok (), ⟨some (openedDb
        (cleanupOrphanRestoreFiles env ⟨some db, rollback, prepared, none⟩).2
        (env.clock .startup) db), none, none, none⟩) := by
  by_cases hfiles : prepared = none ∧ rollback = none
  · obtain ⟨rfl, rfl⟩ := hfiles
    simp [openActions, recoverInterruptedCutover, cleanupOrphanRestoreFiles, exec,
      openDatabaseConnection, settle, onLive, openedDb]
  · simp [openActions, recoverInterruptedCutover, cleanupOrphanRestoreFiles, hfiles, exec,
      openDatabaseConnection, settle, onLive, openedDb, completeInterruptedCutover,
      removePreparedFile, removeRollbackFile, syncDirectory]

/-- Files without a journal whose live database holds something in some state. -/
def Disk.Idle (d : Disk) (c : Contents) (s : RestoreState) : Prop :=
  d.journal = none ∧ ∃ db, d.live = some db ∧ db.Holds c s

lemma keeps_idle {name : OpenStep} {e : StorageError} {f : Db → Db}
    (hf : ∀ db, db.Holds c s → (f db).Holds c s) :
    (io name e (onLive fun db => .ok (f db))).Keeps (Disk.Idle · c s) := by
  rintro _ _ ⟨hj, db, hd, hdb⟩ h
  simp only [io, onLive_eq_ok] at h
  obtain ⟨_, _, hlive, hok, rfl⟩ := h
  rw [hd] at hlive
  cases hlive
  cases hok
  exact ⟨hj, f db, rfl, hf db hdb⟩

theorem visited_openActions_idle (h : db.Holds c s) :
    ∀ d ∈ openCrashes env ⟨some db, rollback, prepared, none⟩, d.Idle c s := by
  have hconnect : ∀ a ∈ openDatabaseConnection env, a.Keeps (Disk.Idle · c s) := by
    simp only [openDatabaseConnection, forall_mem_cons]
    exact ⟨keeps_idle fun _ h => h, keeps_idle fun _ h => h.startup _, by simp⟩
  have hremove : removePreparedFile.Keeps (Disk.Idle · c s) ∧
      removeRollbackFile.Keeps (Disk.Idle · c s) := by
    constructor <;> exact (keeps_change _ _).mpr fun d hd => hd
  refine visited_invariant ⟨rfl, db, rfl, h⟩ ?_
  unfold openActions
  simp only [forall_mem_append]
  refine ⟨⟨⟨by simp, ?_⟩, hconnect⟩, ?_⟩
  · unfold recoverInterruptedCutover cleanupOrphanRestoreFiles
    split_ifs <;> simp [hremove, syncDirectory]
  · obtain ho | ho := orphanOutcome_cases env ⟨some db, rollback, prepared, none⟩
    · simp [recoverInterruptedCutover, ho, settle]
    · simp only [recoverInterruptedCutover, ho, settle, completeInterruptedCutover, forall_mem_cons]
      refine ⟨keeps_idle fun db hdb => ⟨?_, ?_⟩, by simp⟩
      · exact (contents_recordCutoverRecovery db _).trans hdb.contents
      · exact (state_recordCutoverRecovery_of_ne db (by simp)).trans hdb.state

theorem openWallet_idle_of_clear {disk : Disk} (hdisk : disk = ⟨some db, rollback, prepared, none⟩)
    (hclear : Clear env.faults (names (openActions env disk))) :
    ∃ db', openWallet env disk = (.ok db', ⟨some db', none, none, none⟩) ∧
      (∀ c s, db.Holds c s → db'.Holds c s) ∧ ∀ id, db'.Recorded id ↔ db.Recorded id := by
  subst hdisk
  have hexec := exec_openActions_idle env db rollback prepared
  refine ⟨openedDb (cleanupOrphanRestoreFiles env ⟨some db, rollback, prepared, none⟩).2
    (env.clock .startup) db, ?_, openedDb_orphan _ _⟩
  unfold openWallet
  rw [exec_of_clear hclear, hexec]
  rfl

theorem openWallet_idle (h : db.Holds c s) :
    Opens clock ⟨some db, rollback, prepared, none⟩ c s := by
  have hclear : Clear (quiet clock).faults
      (names (openActions (.quiet clock) ⟨some db, rollback, prepared, none⟩)) := fun _ _ => rfl
  obtain ⟨db', hopen, hholds, -⟩ := openWallet_idle_of_clear rfl hclear
  exact ⟨db', by rw [hopen], hholds c s h⟩

end Idle

section Plans

variable (disk : Disk) (j : CutoverJournal)

lemma exec_keepLive (phase : CutoverPhase) :
    exec (fun _ => false) (keepLive j phase) disk =
      (.ok (), { disk with prepared := none, journal := some { j with phase := phase } }) := by
  simp [exec, keepLive, removePreparedFile, syncDirectory, persistRecoveryReceipt]

lemma exec_continueInstall :
    exec (fun _ => false) (continueInstall j) disk =
      (.ok (), { disk with
        prepared := none, rollback := none,
        journal := some { j with phase := .recoveredContinued } }) := by
  simp [exec, continueInstall, removePreparedFile, removeRollbackFile, syncDirectory,
    persistRecoveryReceipt]

variable {disk j}

lemma exec_rollBack (h : disk.rollback.any (validateOriginalRecoveryDatabase j) = true) :
    exec (fun _ => false) (rollBack j) disk =
      (.ok (), ⟨disk.rollback, none, none, some { j with phase := .recoveredRolledBack }⟩) := by
  simp [exec, rollBack, validateFile, h, removeLiveFile, renameRollbackFile, removePreparedFile,
    syncDirectory, persistRecoveryReceipt]

lemma exec_rollBack_of_invalid
    (h : disk.rollback.any (validateOriginalRecoveryDatabase j) = false) :
    exec (fun _ => false) (rollBack j) disk = (.error (.backup .invalidDatabase), disk) := by
  simp [exec, rollBack, validateFile, h]

lemma receipt_journalOutcome {d : Disk} {j' : CutoverJournal} (kind : CrashRecoveryKind)
    (hj : d.journal = some j') (hid : j'.recoveryId = j.recoveryId)
    (hphase : j'.phase.isRecovered = true) : Receipt (some (journalOutcome j kind)) d := by
  intro o ho _ hid'
  cases ho
  cases hid'
  exact ⟨j', hj, hid, hphase⟩

end Plans

section Files

variable {db o : Db} {c r : Contents} {live rollback : Option Db} {j : CutoverJournal}

lemma CutoverPhase.isRecovered_of_isEarly {p : CutoverPhase} (h : p.isEarly = true) :
    p.isRecovered = false := by
  cases p <;> simp_all [isEarly, isRecovered]

variable (hj : validateCutoverJournal j = true)
include hj

lemma openWallet_active {disk d : Disk} {plan : List OpenAction} (hd : disk.journal = some j)
    (hphase : j.phase.isRecovered = false)
    (hplan : recoverActive (.quiet clock) disk j = (plan, outcome))
    (hexec : exec (fun _ => false) plan disk = (.ok (), d)) (hlive : d.live = some db)
    (hrcpt : Receipt outcome d) :
    (openWallet (.quiet clock) disk).1 = .ok (openedDb outcome (clock .startup) db) := by
  have hrec : recoverInterruptedCutover (.quiet clock) disk =
      (.inspect .inspectArtifacts ioError :: plan, outcome) := by
    simp [recoverInterruptedCutover, hd, hj, hphase, hplan]
  refine openWallet_quiet hrec ?_ hlive hrcpt
  exact hexec

/-- Before the original is moved, the live database opens as it is. -/
theorem openWallet_early (hphase : j.phase.isEarly = true) (hc : j.Replaces c) (h : db.Holds c s)
    (hs : s = .normal ∨ s = .restorePrecheck) :
    Opens clock ⟨some db, none, prepared, some j⟩ c s := by
  have hvalid : validateOriginalRecoveryDatabase j db = true :=
    (validateOriginal_iff h).mpr ⟨hc, hs⟩
  have hplan : recoverActive (.quiet clock) ⟨some db, none, prepared, some j⟩ j =
      (keepLive j .recoveredCleaned, some (journalOutcome j .cleanedOrphan)) := by
    simp [recoverActive, hvalid, hphase, quiet]
  exact ⟨_, openWallet_active hj rfl (CutoverPhase.isRecovered_of_isEarly hphase) hplan
    (exec_keepLive _ _ _) rfl (receipt_journalOutcome _ rfl rfl rfl),
    h.openedDb_of_ne (by simp [journalOutcome])⟩

/-- Once the original is back in its place, it leaves the precheck. -/
theorem openWallet_back (hearly : j.phase.isEarly = false) (hphase : j.phase.isRecovered = false)
    (hc : j.Replaces c) (h : db.Holds c .restorePrecheck) (hfresh : ¬db.Recorded j.recoveryId) :
    Opens clock ⟨some db, none, prepared, some j⟩ c .normal := by
  have hvalid : validateOriginalRecoveryDatabase j db = true :=
    (validateOriginal_iff h).mpr ⟨hc, .inr rfl⟩
  have hplan : recoverActive (.quiet clock) ⟨some db, none, prepared, some j⟩ j =
      (keepLive j .recoveredRolledBack, some (journalOutcome j .rolledBack)) := by
    simp [recoverActive, hvalid, hearly, quiet]
  exact ⟨_, openWallet_active hj rfl hphase hplan (exec_keepLive _ _ _) rfl
    (receipt_journalOutcome _ rfl rfl rfl),
    h.openedDb_rolledBack rfl rfl (.inr ⟨rfl, hfresh⟩)⟩

/-- The original that was moved aside comes back and leaves the precheck, unless the new database
has been installed. -/
theorem openWallet_rollBack (hphase : j.phase.isRecovered = false) (hc : j.Replaces c)
    (h : o.Holds c .restorePrecheck) (hfresh : ¬o.Recorded j.recoveryId)
    (hlive : j.phase = .installed → live.any (validateInstalledRecoveryDatabase j) = false) :
    Opens clock ⟨live, some o, prepared, some j⟩ c .normal := by
  have hvalid : validateOriginalRecoveryDatabase j o = true :=
    (validateOriginal_iff h).mpr ⟨hc, .inr rfl⟩
  have hplan : recoverActive (.quiet clock) ⟨live, some o, prepared, some j⟩ j =
      (rollBack j, some (journalOutcome j .rolledBack)) := by
    by_cases hi : j.phase = .installed
    · simp [recoverActive, hlive hi]
    · simp [recoverActive, hi]
  exact ⟨_, openWallet_active hj rfl hphase hplan (exec_rollBack (by simpa using hvalid)) rfl
    (receipt_journalOutcome _ rfl rfl rfl),
    h.openedDb_rolledBack rfl rfl (.inr ⟨rfl, hfresh⟩)⟩

/-- A new database that has been installed stays, whether or not the original is still there. -/
theorem openWallet_installed (hphase : j.phase = .installed) (hr : j.Installs r)
    (h : db.Holds r .recovering) :
    Opens clock ⟨some db, rollback, prepared, some j⟩ r .recovering := by
  have hvalid : validateInstalledRecoveryDatabase j db = true :=
    (validateInstalled_iff h).mpr ⟨hr, rfl⟩
  have hnot : validateOriginalRecoveryDatabase j db = false := by
    rw [Bool.eq_false_iff, Ne, validateOriginal_iff h]
    simp
  have hrec : j.phase.isRecovered = false := by simp [hphase, CutoverPhase.isRecovered]
  have hholds : ∀ t, (openedDb (some (journalOutcome j .continued)) t db).Holds r .recovering :=
    fun t => h.openedDb_of_ne (by simp [journalOutcome])
  cases rollback with
  | some o =>
    have hplan : recoverActive (.quiet clock) ⟨some db, some o, prepared, some j⟩ j =
        (continueInstall j, some (journalOutcome j .continued)) := by
      simp [recoverActive, hvalid, hphase, quiet]
    exact ⟨_, openWallet_active hj rfl hrec hplan (exec_continueInstall _ _) rfl
      (receipt_journalOutcome _ rfl rfl rfl), hholds _⟩
  | none =>
    have hplan : recoverActive (.quiet clock) ⟨some db, none, prepared, some j⟩ j =
        (keepLive j .recoveredContinued, some (journalOutcome j .continued)) := by
      simp [recoverActive, hvalid, hnot, hphase, quiet]
    exact ⟨_, openWallet_active hj rfl hrec hplan (exec_keepLive _ _ _) rfl
      (receipt_journalOutcome _ rfl rfl rfl), hholds _⟩

/-- An earlier recovery has left its receipt: the live database opens if it is as expected. -/
theorem openWallet_receipt {valid : Db → Bool} {kind : CrashRecoveryKind}
    (hphase : j.phase.isRecovered = true)
    (hplan : recoverReceipt j =
      ([validateFile .validateLive Disk.live valid], some (journalOutcome j kind)))
    (hvalid : valid db = true) :
    (openWallet (.quiet clock) ⟨some db, rollback, prepared, some j⟩).1 =
      .ok (openedDb (some (journalOutcome j kind)) (clock .startup) db) := by
  have hrec : recoverInterruptedCutover (.quiet clock) ⟨some db, rollback, prepared, some j⟩ =
      ([.inspect .inspectArtifacts ioError, validateFile .validateLive Disk.live valid],
        some (journalOutcome j kind)) := by
    simp [recoverInterruptedCutover, hj, hphase, hplan]
  refine openWallet_quiet (d := ⟨some db, rollback, prepared, some j⟩) hrec ?_ rfl
    (receipt_journalOutcome kind rfl rfl hphase)
  simp [exec, validateFile, hvalid]

theorem openWallet_receipt_error {valid : Db → Bool} (hphase : j.phase.isRecovered = true)
    (hplan : recoverReceipt j = ([validateFile .validateLive Disk.live valid], outcome))
    (hvalid : valid db = false) :
    Rejects clock ⟨some db, rollback, prepared, some j⟩ := by
  refine ⟨.backup .invalidDatabase, ?_⟩
  simp [openWallet, openActions, recoverInterruptedCutover, hj, hphase, hplan, exec, quiet,
    validateFile, hvalid]

theorem openWallet_mismatch (hphase : j.phase.isRecovered = false)
    (hlive : live.any (validateOriginalRecoveryDatabase j) = false)
    (hroll : rollback.any (validateOriginalRecoveryDatabase j) = false)
    (hinst : j.phase = .installed → live.any (validateInstalledRecoveryDatabase j) = false) :
    Rejects clock ⟨live, rollback, prepared, some j⟩ := by
  have hnot : ¬(j.phase = .installed ∧ live.any (validateInstalledRecoveryDatabase j) = true ∧
      (quiet clock).faults .validateInstalled = false) := by
    rintro ⟨hi, hv, _⟩
    simp [hinst hi] at hv
  have herror : ∃ e d, exec (fun _ => false)
      (recoverInterruptedCutover (.quiet clock) ⟨live, rollback, prepared, some j⟩).1
      ⟨live, rollback, prepared, some j⟩ = (.error e, d) := by
    cases rollback with
    | some o =>
      have hplan : recoverActive (.quiet clock) ⟨live, some o, prepared, some j⟩ j =
          (rollBack j, some (journalOutcome j .rolledBack)) := by
        simp only [recoverActive, Bool.not_eq_true', hnot, decide_false]
        simp
      refine ⟨.backup .invalidDatabase, ⟨live, some o, prepared, some j⟩, ?_⟩
      simp only [recoverInterruptedCutover, hj, hphase, hplan, if_true]
      exact exec_rollBack_of_invalid hroll
    | none =>
      refine ⟨.backup .invalidCutoverJournal, ⟨live, none, prepared, some j⟩, ?_⟩
      simp only [recoverInterruptedCutover, recoverActive, Bool.not_eq_true', hnot, decide_false]
      simp [hj, hphase, hlive, exec]
  obtain ⟨e, _, herror⟩ := herror
  refine ⟨e, ?_⟩
  unfold openWallet openActions
  simp only [quiet, cons_append, nil_append, exec, perform_inspect,
    Bool.false_eq_true, if_false, append_assoc]
  simp only [quiet] at herror
  rw [exec_append_of_error herror]

end Files

end Catomicals.WalletStorage
