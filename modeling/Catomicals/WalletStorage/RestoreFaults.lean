import Catomicals.WalletStorage.Stages

/-!
# Failed restores

What is left of a wallet after a restore has returned an error. A restore that stops after it has
put the live wallet into the precheck, and whose clean-up works, leaves it in the precheck for good.
-/
namespace Catomicals.WalletStorage

open Base Domain Stretch

variable {clock : OpenStep → Time} {req : RestoreRequest} {env : Env Step}

section CleanUp

variable {faults : DropStep → Bool} {m : Machine}

/-- The steps that end in the removal of the live file. -/
def removalSteps : List DropStep :=
  [.verifyRollback, .inspectLive, .removeSidecars, .verifyLive, .removeLive]

/-- The steps that end in the removal of the journal, once the original is back. -/
def finalSteps : List DropStep := [.verifyRestored, .syncRestored, .removeCutoverJournal]

/-- Without a live file, the drop stops before the original is moved back, before the journal is
removed, or not at all. -/
lemma dropCutover_disk_of_none (hact : m.cutoverActive = true) (hlive : m.disk.live = none) :
    (exec faults (dropCutover m) m).2.disk =
      if Clear faults [.verifyRollback, .inspectLive, .verifyMoved, .renameRollback] then
        { m.disk with
          live := m.disk.rollback, rollback := none
          journal := if Clear faults finalSteps then none else m.disk.journal }
      else m.disk := by
  simp only [dropCutover, hact, hlive, if_true, Option.isSome_none, Bool.false_eq_true, if_false,
    List.append_nil, List.cons_append, List.nil_append, exec_inspect_snd, exec_change_snd,
    clear_cons, clear_nil, and_true, finalSteps, exec_nil, ← ite_and]
  split_ifs <;> rfl

lemma dropCutover_disk_of_some (hact : m.cutoverActive = true) {db : Db}
    (hlive : m.disk.live = some db) :
    (exec faults (dropCutover m) m).2.disk =
      if Clear faults removalSteps then
        if Clear faults [.verifyMoved, .renameRollback] then
          { m.disk with
            live := m.disk.rollback, rollback := none
            journal := if Clear faults finalSteps then none else m.disk.journal }
        else { m.disk with live := none }
      else m.disk := by
  simp only [dropCutover, hact, hlive, if_true, Option.isSome_some, List.cons_append,
    List.nil_append, exec_inspect_snd, exec_change_snd, clear_cons, clear_nil, and_true,
    removalSteps, finalSteps, exec_nil, ← ite_and]
  split_ifs <;> rfl

lemma dropCutover_of_inactive (h : m.cutoverActive = false) :
    (exec faults (dropCutover m) m).2 = m := by
  simp [dropCutover, h]

lemma cleanUp_disk : (cleanUp faults (guards m) m).disk =
    { (exec faults (dropCutover m) m).2.disk with
      prepared := if m.preparedArmed = true ∧ faults .removePrepared = false then none
        else (exec faults (dropCutover m) m).2.disk.prepared
      journal := if m.journalCleanup = true ∧ faults .removeJournal = false then none
        else (exec faults (dropCutover m) m).2.disk.journal } := by
  simp only [cleanUp, guards, dropPrepared, dropJournal]
  split_ifs <;> simp_all [exec]

end CleanUp

/-- The wallet opens in the normal state, with the given epoch, and takes calls. -/
def OpensUnharmed (clock : OpenStep → Time) (epoch : ℕ) (disk : Disk) : Prop :=
  ∃ db, (openWallet (.quiet clock) disk).1 = .ok db ∧ db.metadata.restoreState = .normal ∧
    db.metadata.epoch = epoch ∧ ensureMutationsAllowed db.metadata = .ok ()

/-- Whether stopping in a stage does no harm, given the backup's epoch and the failing clean-up. -/
def Stretch.Harmless (sameEpoch : Prop) (faults : DropStep → Bool) : Stretch → Prop
  | untouched => True
  | loose => sameEpoch
  | staging => sameEpoch ∨ faults .removeJournal = false
  | frozen => False
  | unguarded => sameEpoch
  | moving => sameEpoch ∧
      ¬Clear faults [.verifyRollback, .inspectLive, .verifyMoved, .renameRollback]
  | moved => sameEpoch ∧
      ¬Clear faults ([.verifyRollback, .inspectLive, .verifyMoved, .renameRollback] ++ finalSteps)
  | installing => sameEpoch ∧
      ¬Clear faults (removalSteps ++ [.verifyMoved, .renameRollback] ++ finalSteps)
  | installed => sameEpoch ∧ Clear faults removalSteps ∧
      ¬Clear faults ([.verifyMoved, .renameRollback] ++ finalSteps)
  | committed => False
  | finished => False

section Unharmed

variable {epoch : ℕ} {disk : Disk} {c : Contents} {s : RestoreState}

lemma opensUnharmed_of {live : Db} (h : Opens clock disk live.contents .normal) :
    OpensUnharmed clock live.metadata.epoch disk := by
  obtain ⟨db, hopen, hdb⟩ := h
  refine ⟨db, hopen, hdb.state, ?_, ?_⟩
  · exact congrArg (fun c : Contents => c.authority.epoch) hdb.contents
  · simp [ensureMutationsAllowed, hdb.state]

lemma not_opensUnharmed_of (h : Opens clock disk c s) (hs : s ≠ .normal) :
    ¬OpensUnharmed clock epoch disk := by
  rintro ⟨_, hopen', hstate, _⟩
  obtain ⟨_, hopen, hdb⟩ := h
  rw [hopen] at hopen'
  cases hopen'
  exact hs (hdb.state.symm.trans hstate)

lemma not_opensUnharmed_of_error (h : Rejects clock disk) : ¬OpensUnharmed clock epoch disk := by
  rintro ⟨_, hopen, _⟩
  obtain ⟨_, he⟩ := h
  rw [he] at hopen
  cases hopen

lemma opensUnharmed_iff_of {live : Db} {p : Prop}
    (hopens : p → Opens clock disk live.contents .normal)
    (hrej : ¬p → Rejects clock disk) : OpensUnharmed clock live.metadata.epoch disk ↔ p := by
  by_cases h : p
  · exact iff_of_true (opensUnharmed_of (hopens h)) h
  · exact iff_of_false (not_opensUnharmed_of_error (hrej h)) h

end Unharmed

section Databases

/-- The files with no original moved aside, under the journal of the restore. -/
abbrev RestoreRequest.there (req : RestoreRequest) (epoch : ℕ) (db : Db)
    (prepared : Option PreparedFile) (phase : CutoverPhase) : Disk :=
  ⟨some db, none, prepared, some (req.journal epoch phase)⟩

variable {image live : Db}

lemma validateCutoverJournal_journal (epoch : ℕ) (phase : CutoverPhase) :
    validateCutoverJournal (req.journal (epoch + 1) phase) = true := by
  simp [validateCutoverJournal, RestoreRequest.journal]

lemma frozenDb_holds (req : RestoreRequest) (hnormal : live.metadata.restoreState = .normal) :
    (frozenDb req live).Holds live.contents .restorePrecheck := by
  obtain ⟨l, hl, -⟩ := beginRestorePrecheck_isOk hnormal req.now
  have hfrozen : frozenDb req live = l := by rw [frozenDb, hl]; rfl
  rw [hfrozen]
  exact beginRestorePrecheck_holds hl

lemma recorded_frozenDb (hnormal : live.metadata.restoreState = .normal) {id : Uuid} :
    (frozenDb req live).Recorded id ↔ live.Recorded id := by
  obtain ⟨l, hl, -⟩ := beginRestorePrecheck_isOk hnormal req.now
  have hfrozen : frozenDb req live = l := by rw [frozenDb, hl]; rfl
  rw [hfrozen]
  simp only [beginRestorePrecheck, ok_iff] at hl
  obtain ⟨-, rfl⟩ := hl
  simp [Db.Recorded, Db.log, Db.setRestoreState, or_and_right, exists_or]

lemma stagedDb_metadata (req : RestoreRequest) (env : Env Step) (himage : image.stageable = true) :
    (stagedDb req env image).metadata.restoreState = .recovering ∧
      (stagedDb req env image).metadata.epoch = image.metadata.epoch + 1 ∧
      (stagedDb req env image).metadata.walletId = image.metadata.walletId := by
  obtain ⟨db, hdb⟩ := stageImage_isOk_iff.mpr himage
  have hstaged : stagedDb req env image = db := by rw [stagedDb, hdb]; rfl
  obtain ⟨_, _, _, hs⟩ := stageImage_eq_ok.mp hdb
  obtain ⟨-, hstate, -, hepoch, hwal⟩ := hs.metadata
  rw [hstaged]
  exact ⟨hstate, hepoch, hwal⟩

lemma replaces_iff (hwal : live.metadata.walletId = req.expectedWalletId) (phase : CutoverPhase) :
    (req.journal (image.metadata.epoch + 1) phase).Replaces live.contents ↔
      live.metadata.epoch = image.metadata.epoch := by
  simp [CutoverJournal.Replaces, RestoreRequest.journal, Db.contents, Db.authority, hwal]

end Databases

/-- What a restore has checked before it writes, and that its recovery id is fresh. -/
structure Accepted (req : RestoreRequest) (image live : Db) : Prop where
  normal : live.metadata.restoreState = .normal
  wallet : live.metadata.walletId = req.expectedWalletId
  imageWallet : image.metadata.walletId = req.expectedWalletId
  epoch : live.metadata.epoch ≤ image.metadata.epoch
  fresh : ¬live.Recorded req.recoveryId

namespace Accepted

variable {image live db : Db} {phase : CutoverPhase} {prepared : Option PreparedFile}
  {rollback : Option Db} {s : RestoreState}

lemma validateOriginal_eq_false (h : Accepted req image live)
    (hdb : db.Holds live.contents s) (hne : live.metadata.epoch ≠ image.metadata.epoch) :
    validateOriginalRecoveryDatabase (req.journal (image.metadata.epoch + 1) phase) db = false := by
  rw [Bool.eq_false_iff, Ne, validateOriginal_iff hdb, replaces_iff h.wallet]
  exact fun hc => hne hc.1

section

variable (h : Accepted req image live)
include h

lemma openWallet_error (hdb : db.Holds live.contents s)
    (hs : s ≠ .recovering) (hphase : phase.isRecovered = false)
    (hne : live.metadata.epoch ≠ image.metadata.epoch) :
    Rejects clock (req.there (image.metadata.epoch + 1) db prepared phase) := by
  refine openWallet_mismatch (validateCutoverJournal_journal _ _) hphase ?_ rfl ?_
  · simpa using h.validateOriginal_eq_false hdb hne
  · intro _
    simp only [Option.any_some, Bool.eq_false_iff, Ne, validateInstalled_iff hdb]
    exact fun hc => hs hc.2

lemma unharmed_early (hphase : phase.isEarly = true) :
    OpensUnharmed clock live.metadata.epoch
      (req.there (image.metadata.epoch + 1) live prepared phase) ↔
        live.metadata.epoch = image.metadata.epoch := by
  have hlive : live.Holds live.contents .normal := ⟨rfl, h.normal⟩
  apply opensUnharmed_iff_of
  · intro he
    exact openWallet_early (validateCutoverJournal_journal _ _) hphase
      ((replaces_iff h.wallet phase).mpr he) hlive (.inl rfl)
  · exact h.openWallet_error hlive (by decide) (CutoverPhase.isRecovered_of_isEarly hphase)

lemma harmed_frozen (hphase : phase.isEarly = true) :
    ¬OpensUnharmed clock live.metadata.epoch
      (req.there (image.metadata.epoch + 1) (frozenDb req live) prepared phase) := by
  have hdb := frozenDb_holds req h.normal
  have hrec := CutoverPhase.isRecovered_of_isEarly hphase
  by_cases he : live.metadata.epoch = image.metadata.epoch
  · exact not_opensUnharmed_of (openWallet_early (validateCutoverJournal_journal _ _) hphase
      ((replaces_iff h.wallet phase).mpr he) hdb (.inr rfl)) (by decide)
  · exact not_opensUnharmed_of_error (h.openWallet_error hdb (by decide) hrec he)

lemma unharmed_idle :
    OpensUnharmed clock live.metadata.epoch ⟨some live, rollback, prepared, none⟩ :=
  opensUnharmed_of (openWallet_idle ⟨rfl, h.normal⟩)

end

lemma harmed_idle {c : Contents} (hdb : db.Holds c s) (hs : s ≠ .normal) (epoch : ℕ) :
    ¬OpensUnharmed clock epoch ⟨some db, rollback, prepared, none⟩ :=
  not_opensUnharmed_of (openWallet_idle hdb) hs

variable (h : Accepted req image live)
include h

lemma unharmed_moved {file : Option Db}
    (hphase : phase.isRecovered = false) (hfile : file = none ∨ phase ≠ .installed ∧
      ∃ r, file = some r ∧ r.metadata.restoreState = .recovering) :
    OpensUnharmed clock live.metadata.epoch ⟨file, some (frozenDb req live), prepared,
      some (req.journal (image.metadata.epoch + 1) phase)⟩ ↔
        live.metadata.epoch = image.metadata.epoch := by
  have hdb := frozenDb_holds req h.normal
  have hinst : phase = .installed → file.any (validateInstalledRecoveryDatabase
      (req.journal (image.metadata.epoch + 1) phase)) = false := by
    intro hp
    obtain rfl | ⟨hne, -⟩ := hfile
    · rfl
    · exact absurd hp hne
  apply opensUnharmed_iff_of
  · intro he
    refine openWallet_rollBack (validateCutoverJournal_journal _ _) hphase
      ((replaces_iff h.wallet phase).mpr he) hdb ?_ hinst
    rw [recorded_frozenDb h.normal]
    exact h.fresh
  · intro he
    refine openWallet_mismatch (validateCutoverJournal_journal _ _) hphase ?_ ?_ hinst
    · obtain rfl | ⟨-, r, rfl, hr⟩ := hfile
      · rfl
      · rw [Option.any_some, Bool.eq_false_iff, Ne, validateOriginal_iff r.holds_self, hr]
        simp
    · simpa using h.validateOriginal_eq_false hdb he

/-- The original is back in its place; only the journal tells that it was moved. -/
lemma unharmed_back (hearly : phase.isEarly = false)
    (hphase : phase.isRecovered = false) (p : Prop) [Decidable p] :
    OpensUnharmed clock live.metadata.epoch ⟨some (frozenDb req live), none, prepared,
      if p then none else some (req.journal (image.metadata.epoch + 1) phase)⟩ ↔
        live.metadata.epoch = image.metadata.epoch ∧ ¬p := by
  have hdb := frozenDb_holds req h.normal
  by_cases hp : p
  · rw [if_pos hp]
    refine iff_of_false (not_opensUnharmed_of (openWallet_idle hdb) (by decide)) fun hc => hc.2 hp
  · rw [if_neg hp, and_iff_left hp]
    apply opensUnharmed_iff_of
    · intro he
      refine openWallet_back (validateCutoverJournal_journal _ _) hearly hphase
        ((replaces_iff h.wallet phase).mpr he) hdb ?_
      rw [recorded_frozenDb h.normal]
      exact h.fresh
    · exact h.openWallet_error hdb (by decide) hphase

lemma harmed_installed (himage : image.stageable = true)
    (hdb : db.Holds (stagedDb req env image).contents .recovering) (epoch : ℕ) :
    ¬OpensUnharmed clock epoch ⟨some db, rollback, prepared,
      some (req.journal (image.metadata.epoch + 1) .installed)⟩ := by
  obtain ⟨-, hepoch, hwal⟩ := stagedDb_metadata req env himage
  exact not_opensUnharmed_of (openWallet_installed (validateCutoverJournal_journal _ _) rfl
    ⟨hwal.trans h.imageWallet, hepoch⟩ hdb) (by decide)

end Accepted

/-- What a restore that has stopped leaves after its clean-up. -/
theorem unharmed_cleanUp_iff {image live : Db} {faults : DropStep → Bool} {s : Stretch}
    {m : Machine} (h : Accepted req image live)
    (himage : s.isStaged = true → image.stageable = true)
    (hm : s.At req env (image.metadata.epoch + 1) image live m) :
    OpensUnharmed clock live.metadata.epoch (cleanUp faults (guards m) m).disk ↔
      s.Harmless (live.metadata.epoch = image.metadata.epoch) faults := by
  have hfrozen := frozenDb_holds req h.normal
  have hreop : s.isStaged = true →
      (reopenedDb req env image).Holds (stagedDb req env image).contents .recovering :=
    fun hs => Db.Holds.startup ⟨rfl, (stagedDb_metadata req env (himage hs)).1⟩ _
  rw [cleanUp_disk]
  cases s with
  | untouched =>
    cases hm
    simpa [dropCutover_of_inactive, entry, Machine.start, Harmless]
      using h.unharmed_idle
  | loose =>
    cases hm
    simpa [dropCutover_of_inactive, entry, Machine.start, Harmless]
      using h.unharmed_early rfl
  | staging =>
    obtain ⟨_, _, hphase, hdisk, hcleanup, hact⟩ := hm
    rw [dropCutover_of_inactive hact, hdisk, hcleanup]
    by_cases hjournal : faults .removeJournal = false
    · simpa [hjournal, Harmless] using h.unharmed_idle
    · simpa [hjournal, Harmless] using h.unharmed_early hphase
  | frozen =>
    obtain ⟨hdisk, hact⟩ := hm
    rw [dropCutover_of_inactive hact, hdisk]
    refine iff_of_false ?_ id
    by_cases hjournal : m.journalCleanup = true ∧ faults .removeJournal = false
    · simpa [hjournal, entry] using
        Accepted.harmed_idle hfrozen (by decide) live.metadata.epoch
    · simpa [hjournal, entry] using h.harmed_frozen rfl
  | unguarded =>
    cases hm
    simpa [dropCutover_of_inactive, entry, Harmless]
      using h.unharmed_moved rfl (.inl rfl)
  | moving =>
    cases hm
    rw [dropCutover_disk_of_none rfl rfl]
    simp only [entry, Harmless]
    by_cases hback : Clear faults [.verifyRollback, .inspectLive, .verifyMoved, .renameRollback]
    · rw [if_pos hback]
      refine iff_of_false ?_ fun hc => hc.2 hback
      by_cases hfinal : Clear faults finalSteps
      · simpa [hfinal] using Accepted.harmed_idle hfrozen (by decide) live.metadata.epoch
      · simpa [hfinal] using h.harmed_frozen rfl
    · simpa [hback] using h.unharmed_moved rfl (.inl rfl)
  | moved =>
    cases hm
    rw [dropCutover_disk_of_none rfl rfl]
    simp only [entry, Harmless]
    rw [clear_append]
    by_cases hback : Clear faults [.verifyRollback, .inspectLive, .verifyMoved, .renameRollback]
    · simpa [hback] using h.unharmed_back rfl rfl (Clear faults finalSteps)
    · simpa [hback] using h.unharmed_moved rfl (.inl rfl)
  | installing =>
    obtain ⟨hdisk, hcleanup, hact⟩ := hm
    have hstaged := stagedDb_metadata req env (himage rfl)
    rw [dropCutover_disk_of_some hact (by rw [hdisk]; rfl), hdisk, hcleanup]
    simp only [entry, Harmless, clear_append]
    by_cases hrmvd : Clear faults removalSteps
    · rw [if_pos hrmvd]
      by_cases hback : Clear faults [.verifyMoved, .renameRollback]
      · simpa [hrmvd, hback] using h.unharmed_back rfl rfl (Clear faults finalSteps)
      · simpa [hback] using h.unharmed_moved rfl (.inl rfl)
    · simpa [hrmvd] using h.unharmed_moved rfl (.inr ⟨by decide, _, rfl, hstaged.1⟩)
  | installed =>
    obtain ⟨_, hdb, rfl⟩ := hm
    have hstaged := stagedDb_metadata req env (himage rfl)
    rw [hstaged.1] at hdb
    rw [dropCutover_disk_of_some rfl rfl]
    simp only [Harmless, clear_append]
    by_cases hrmvd : Clear faults removalSteps
    · by_cases hback : Clear faults [.verifyMoved, .renameRollback]
      · simpa [hrmvd, hback] using h.unharmed_back rfl rfl (Clear faults finalSteps)
      · simpa [hback, hrmvd] using h.unharmed_moved rfl (.inl rfl)
    · rw [if_neg hrmvd]
      refine iff_of_false ?_ fun hc => hrmvd hc.2.1
      simpa using h.harmed_installed (himage rfl) hdb live.metadata.epoch
  | committed =>
    cases hm
    refine iff_of_false ?_ id
    simpa [dropCutover_of_inactive, entry] using
      h.harmed_installed (himage rfl) (hreop rfl) live.metadata.epoch
  | finished =>
    cases hm
    refine iff_of_false ?_ id
    simpa [dropCutover_of_inactive, entry] using
      Accepted.harmed_idle (hreop rfl) (by decide) live.metadata.epoch

variable {manifest : BackupManifest}

section Restore

variable {F : BundleFormat} {disk d : Disk} {live image : Db} {e : StorageError} {s : Stretch}

/-- The bundle is accepted, the live wallet opens, and the backup is not older than it. -/
structure Begins (F : BundleFormat) (env : Env Step) (req : RestoreRequest) (disk : Disk)
    (live : Db) (manifest : BackupManifest) (image : Db) : Prop where
  accepted : acceptBundle F req.backend req.bundle req.expectedWalletId = .ok (manifest, image)
  opens : Clear (env.part .opening).faults (names (openActions (env.part .opening) disk))
  reads : env.faults (.restoring .readMetadata) = false
  wallet : live.metadata.walletId = req.expectedWalletId
  epoch : live.metadata.epoch ≤ manifest.recoveryEpoch
  bound : manifest.recoveryEpoch + 1 < 2 ^ 64

/-- If the restore gets so far as to write, it stops in a stage in which that does no harm. -/
def HarmlessRestore (F : BundleFormat) (env : Env Step) (req : RestoreRequest) (disk : Disk)
    (live : Db) : Prop :=
  ∀ manifest image s, Begins F env req disk live manifest image →
    stopsIn (env.part .restoring).faults image = some s →
    s.Harmless (live.metadata.epoch = manifest.recoveryEpoch) (env.part .dropping).faults

lemma stageable_of_stopsIn {faults : RestoreStep → Bool} (h : stopsIn faults image = some s)
    (hs : s.isStaged = true) : image.stageable = true := by
  by_contra himage
  have hfirst : ([untouched, .loose, .staging].find? fun s =>
      s.steps.any faults || (s = .staging && !image.stageable)).isSome = true := by
    simp only [Bool.not_eq_true] at himage
    simp [himage]
  obtain ⟨x, hx⟩ := Option.isSome_iff_exists.mp hfirst
  have hall : all = [.untouched, .loose, .staging] ++ all.drop 3 := rfl
  have hsx : x = s := by
    rw [stopsIn, hall, List.find?_append, hx] at h
    exact Option.some.inj h
  have hmem := List.mem_of_find?_eq_some hx
  simp [isStaged] at hs
  simp_all

lemma opensUnharmed_idle (h : d.Idle live.contents .normal) :
    OpensUnharmed clock live.metadata.epoch d := by
  obtain ⟨_, _, _, _⟩ := d
  obtain ⟨rfl, _, rfl, hdb⟩ := h
  exact opensUnharmed_of (openWallet_idle hdb)

lemma checkAgainstLive_eq_ok {current : WalletMetadata} {walletId : Uuid} {epoch : ℕ} :
    checkAgainstLive manifest current walletId = .ok epoch ↔
      current.walletId = walletId ∧ current.epoch ≤ manifest.recoveryEpoch ∧
        manifest.recoveryEpoch + 1 < 2 ^ 64 ∧ manifest.recoveryEpoch + 1 = epoch := by
  simp only [checkAgainstLive, ok_iff]

/-- A failed restore of an accepted image, once the live wallet has been opened. -/
theorem unharmed_runRestore_iff (h : Accepted req image live)
    (herr : runRestore env req image (image.metadata.epoch + 1) live ⟨some live, none, none, none⟩ =
      (.error e, d)) :
    OpensUnharmed clock live.metadata.epoch d ↔
      ∀ s, stopsIn (env.part .restoring).faults image = some s →
        s.Harmless (live.metadata.epoch = image.metadata.epoch) (env.part .dropping).faults := by
  unfold runRestore at herr
  cases hstop : stopsIn (env.part .restoring).faults image with
  | none =>
    rw [exec_restoreActions_ok req _ h.normal h.epoch hstop] at herr
    cases herr
  | some =>
    obtain ⟨_, _, hexec, hm⟩ := exec_restoreActions_error req (image.metadata.epoch + 1)
      h.normal h.epoch hstop
    rw [hexec] at herr
    cases herr
    rw [unharmed_cleanUp_iff h (stageable_of_stopsIn hstop) hm]
    simp

lemma accepted_of_checks {live' : Db} {recoveryEpoch : ℕ}
    (hbundle : acceptBundle F req.backend req.bundle req.expectedWalletId = .ok (manifest, image))
    (hholds : live'.Holds live.contents .normal) (hfresh : ¬live'.Recorded req.recoveryId)
    (hcheck : checkAgainstLive manifest live'.metadata req.expectedWalletId = .ok recoveryEpoch) :
    Accepted req image live' ∧ recoveryEpoch = image.metadata.epoch + 1 := by
  obtain ⟨-, himagew, himagee⟩ := acceptBundle_eq_ok hbundle
  obtain ⟨hwal, hepoch, -, rfl⟩ := checkAgainstLive_eq_ok.mp hcheck
  exact ⟨⟨hholds.state, hwal, himagew, himagee ▸ hepoch, hfresh⟩, by rw [himagee]⟩

lemma opened_live (hlive : disk.live = some live) (hjournal : disk.journal = none)
    {openEnv : Env OpenStep} {live' : Db} (hopen : openWallet openEnv disk = (.ok live', d)) :
    d = ⟨some live', none, none, none⟩ ∧ live'.Holds live.contents live.metadata.restoreState ∧
      ∀ id, live'.Recorded id ↔ live.Recorded id := by
  have hdisk : disk = ⟨some live, disk.rollback, disk.prepared, none⟩ := by
    rw [← hlive, ← hjournal]
  obtain ⟨_, hok, hkeeps, hrecd⟩ := openWallet_idle_of_clear hdisk (clear_of_openWallet_ok hopen)
  rw [hopen] at hok
  cases hok
  exact ⟨rfl, hkeeps _ _ live.holds_self, hrecd⟩

section Begins

variable (hlive : disk.live = some live) (hjournal : disk.journal = none)
  (hnormal : live.metadata.restoreState = .normal)
include hlive hjournal hnormal

lemma Begins.restore (h : Begins F env req disk live manifest image)
    (hfresh : ¬live.Recorded req.recoveryId) :
    ∃ live', live'.Holds live.contents .normal ∧ Accepted req image live' ∧
      restoreEncryptedBackup F env req disk =
        runRestore env req image (image.metadata.epoch + 1) live'
          ⟨some live', none, none, none⟩ := by
  have hdisk : disk = ⟨some live, disk.rollback, disk.prepared, none⟩ := by
    rw [← hlive, ← hjournal]
  obtain ⟨live', hopen, -⟩ := openWallet_idle_of_clear hdisk h.opens
  obtain ⟨-, hholds, hrecd⟩ := opened_live hlive hjournal hopen
  rw [hnormal] at hholds
  have hcheck : checkAgainstLive manifest live'.metadata req.expectedWalletId =
      .ok (manifest.recoveryEpoch + 1) :=
    checkAgainstLive_eq_ok.mpr ⟨hholds.walletId.trans h.wallet, hholds.epoch ▸ h.epoch,
      h.bound, rfl⟩
  obtain ⟨hacc, hepoch⟩ := accepted_of_checks h.accepted hholds
    (fun hr => hfresh ((hrecd _).mp hr)) hcheck
  refine ⟨live', hholds, hacc, ?_⟩
  simp [restoreEncryptedBackup, h.accepted, hopen, h.reads, hcheck, hepoch]

lemma restore_of_not_begins (hnot : ∀ manifest image, ¬Begins F env req disk live manifest image) :
    (restoreEncryptedBackup F env req disk).2.Idle live.contents .normal := by
  have hdisk : disk = ⟨some live, disk.rollback, disk.prepared, none⟩ := by
    rw [← hlive, ← hjournal]
  have hholds : live.Holds live.contents .normal := ⟨rfl, hnormal⟩
  have hopened : (openWallet (env.part .opening) disk).2.Idle live.contents .normal := by
    have hmem := openWallet_mem_openCrashes (env.part .opening) disk
    rw [hdisk] at hmem ⊢
    exact visited_openActions_idle hholds _ hmem
  unfold restoreEncryptedBackup
  split
  · exact ⟨hjournal, live, hlive, hholds⟩
  · rename_i manifest image hbundle
    split
    · rename_i hopen
      rwa [hopen] at hopened
    · rename_i live' d' hopen
      rw [hopen] at hopened
      split_ifs with hread
      · exact hopened
      · split
        · exact hopened
        · rename_i epoch hcheck
          -- every check was passed, so the restore begins
          obtain ⟨hw, he, hb, rfl⟩ := checkAgainstLive_eq_ok.mp hcheck
          obtain ⟨-, hholds', -⟩ := opened_live hlive hjournal hopen
          exact absurd ⟨hbundle, clear_of_openWallet_ok hopen, by simpa using hread,
            hholds'.walletId.symm.trans hw, hholds'.epoch.symm.trans_le he, hb⟩
              (hnot manifest image)

/-- A failed restore over a live wallet in the normal state is harmless exactly if it meets its
condition: the next opening then yields a wallet in the normal state, of the epoch it had. -/
theorem restoreEncryptedBackup_harmless_iff (hfresh : ¬live.Recorded req.recoveryId)
    (herr : restoreEncryptedBackup F env req disk = (.error e, d)) :
    OpensUnharmed clock live.metadata.epoch d ↔ HarmlessRestore F env req disk live := by
  by_cases hbegins : ∃ manifest image, Begins F env req disk live manifest image
  · obtain ⟨manifest, image, hbegins⟩ := hbegins
    obtain ⟨live', hholds, hacc, hrun⟩ := hbegins.restore hlive hjournal hnormal hfresh
    have hepoch : live'.metadata.epoch = live.metadata.epoch := hholds.epoch
    obtain ⟨-, -, himage⟩ := acceptBundle_eq_ok hbegins.accepted
    rw [hrun] at herr
    rw [← hepoch, unharmed_runRestore_iff hacc herr, hepoch, himage]
    constructor
    · intro h _ _ s hb hs
      have hsame := hb.accepted
      rw [hbegins.accepted] at hsame
      cases hsame
      exact h s hs
    · exact fun h s hs => h manifest image s hbegins hs
  · have hidle := restore_of_not_begins hlive hjournal hnormal fun m i h => hbegins ⟨m, i, h⟩
    rw [herr] at hidle
    exact iff_of_true (opensUnharmed_idle hidle) fun m i _ h => absurd ⟨m, i, h⟩ hbegins

end Begins

end Restore

def newWallet : Db := initializeWallet 1 0

def sampleFormat (image : Db) : BundleFormat where
  sha256Hex _ := "0000000000000000000000000000000000000000000000000000000000000000"
  readDatabase _ := some image

def sampleBackend : BackupBackend := ⟨"file", fun _ _ _ _ => .ok []⟩

def sampleBundle (epoch : ℕ) : Bundle where
  manifest := some {
    formatVersion := 1
    schemaVersion := 7
    walletId := 1
    recoveryEpoch := epoch
    createdAt := 0
    secretBackend := "file"
    databaseFile := databaseFile
    databaseSha256 := "0000000000000000000000000000000000000000000000000000000000000000"
    dekRef := "key"
    artifactSha256 := "0000000000000000000000000000000000000000000000000000000000000000" }
  artifact := some (artifactMagic ++ List.replicate 25 0)

def sampleRequest (epoch : ℕ) : RestoreRequest :=
  ⟨sampleBundle epoch, some sampleBackend, 1, 10, 99⟩

def newImage : Db := attempt (fun db (now : Time) => beginSnapshot db now) newWallet 1

def Env.failing (faults : Step → Bool) : Env Step := ⟨faults, fun _ => 0⟩

def newDisk : Disk := ⟨some newWallet, none, none, none⟩

def frozenDisk : Disk :=
  (restoreEncryptedBackup (sampleFormat newImage)
    (.failing fun s => s = .restoring .checkpointLive) (sampleRequest 1) newDisk).2

/-- If the checkpoint of the live wallet fails and nothing else does, the wallet stays in the
precheck. -/
theorem restoreEncryptedBackup_freezes :
    newDisk.live = some newWallet ∧ newWallet.metadata.restoreState = .normal ∧
      ¬newWallet.Recorded (sampleRequest 1).recoveryId ∧
      restoreEncryptedBackup (sampleFormat newImage)
        (.failing fun s => s = .restoring .checkpointLive) (sampleRequest 1) newDisk =
          (.error (.backup .cutoverFailed), frozenDisk) ∧
      ¬OpensUnharmed (fun _ => 0) newWallet.metadata.epoch frozenDisk := by
  have hopen : (openWallet (.quiet fun _ => 0) frozenDisk).1.toOption.map
      (fun db => db.metadata.restoreState) = some .restorePrecheck := by
    decide +kernel
  refine ⟨rfl, rfl, by simp [Db.Recorded, newWallet, initializeWallet], ?_, ?_⟩
  · exact Prod.ext (by decide +kernel) rfl
  · rintro ⟨_, hdb, hstate, _⟩
    rw [hdb] at hopen
    simp [Except.toOption, hstate] at hopen

def unsyncedDisk : Disk :=
  (restoreEncryptedBackup (sampleFormat newImage)
    (.failing fun s => s = .restoring .syncPrepared) (sampleRequest 1) newDisk).2

/-- A restore that cannot sync the prepared copy is harmless. -/
theorem restoreEncryptedBackup_harmless_unsynced :
    restoreEncryptedBackup (sampleFormat newImage)
        (.failing fun s => s = .restoring .syncPrepared) (sampleRequest 1) newDisk =
          (.error ioError, unsyncedDisk) ∧
      OpensUnharmed (fun _ => 0) newWallet.metadata.epoch unsyncedDisk := by
  have herr : restoreEncryptedBackup (sampleFormat newImage)
      (.failing fun s => s = .restoring .syncPrepared) (sampleRequest 1) newDisk =
        (.error ioError, unsyncedDisk) := Prod.ext (by decide +kernel) rfl
  have hbundle : acceptBundle (sampleFormat newImage) (some sampleBackend) (sampleBundle 1) 1 =
      .ok ((sampleBundle 1).manifest.get rfl, newImage) := by
    decide +kernel
  have hstop : stopsIn ((Env.failing fun s => s = .restoring .syncPrepared).part .restoring).faults
      newImage = some .staging := by
    decide +kernel
  refine ⟨herr, (restoreEncryptedBackup_harmless_iff rfl rfl rfl ?_ herr).mpr ?_⟩
  · simp [Db.Recorded, newWallet, initializeWallet]
  · intro _ _ s hbegins hs
    have hacc := hbegins.accepted.symm.trans hbundle
    cases hstop.symm.trans hs
    exact .inr (by decide)

end Catomicals.WalletStorage
