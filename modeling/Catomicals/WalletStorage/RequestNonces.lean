import Catomicals.WalletStorage.OneUse
import Catomicals.WalletStorage.RestoreCrash

/-!
# Signer request nonces over the life of a wallet

No call removes a claimed request nonce, but a restore replaces the whole database. So a nonce stays
claimed exactly as long as every image that is restored holds it.
-/
namespace Catomicals.WalletStorage

open Base Domain Rows Base.Action Machine

variable {P : Platform} {F : BundleFormat} {keys : List RequestNonceKey}

def SignerRequestContext.nonceKey (c : SignerRequestContext) : RequestNonceKey :=
  ⟨c.walletId, c.signerSetId, c.signerEpoch, c.signerId, c.deviceId, c.deviceGeneration,
    c.requestNonce⟩

structure RequestNonceKey.Valid (k : RequestNonceKey) : Prop where
  signerEpoch : k.signerEpoch ≠ 0 ∧ k.signerEpoch.toNat ≤ maxInteger
  signerId : k.signerId ≠ 0
  deviceGeneration : k.deviceGeneration ≠ 0 ∧ k.deviceGeneration.toNat ≤ maxInteger

def Call.nonceKey : Call → Option RequestNonceKey
  | .claimSignerRequestNonce _ context _ => some context.nonceKey
  | _ => none

def Db.Knows (db : Db) (keys : List RequestNonceKey) : Prop :=
  ∀ k ∈ keys, ∃ r, db.requestNonces.get k = some r

variable {req : RestoreRequest}

section Db

variable {db db' : Db} {k : RequestNonceKey} {c : Call} {now : Time}

lemma Db.Knows.of_eq (h : db.Knows keys) (heq : db'.requestNonces = db.requestNonces) :
    db'.Knows keys := by
  unfold Db.Knows
  rwa [heq]

lemma Effect.requestNonces {s s' : Authority} {m : Option Creation} (h : Effect s m s') :
    Evolves (· = ·) (fun _ => True) s.requestNonces s'.requestNonces := by
  cases h
  case requestNonceClaimed inserted => exact inserted.evolves (fun _ => rfl) trivial
  all_goals exact evolves_refl fun _ => rfl

lemma Db.Knows.step (h : db.Knows keys) (hstep : step P db c = .ok db') : db'.Knows keys := by
  intro k hk
  obtain ⟨r, hr⟩ := h k hk
  obtain ⟨r', hr', -⟩ := (step_does hstep).effect.requestNonces.keeps k r hr
  exact ⟨r', hr'⟩

lemma step_nonceKey (hstep : step P db c = .ok db') (hk : c.nonceKey = some k) :
    db.requestNonces.get k = none ∧ k.Valid ∧ ∃ r, db'.requestNonces.get k = some r := by
  cases c with
  | claimSignerRequestNonce =>
    cases hk
    simp only [step, claimSignerRequestNonce, ok_iff] at hstep
    obtain ⟨rfl, -, -, hepoch, -, hgen, hnz, _, hinsert, rfl⟩ := hstep
    have hins := inserted_of_insert? hinsert
    exact ⟨hins.1, ⟨⟨hnz.1, hepoch⟩, hnz.2.1, hnz.2.2.1, hgen⟩, _, (hins.2 _).trans (if_pos rfl)⟩
  | _ => cases hk

lemma requestNonces_of_contents (h : db'.contents = db.contents) :
    db'.requestNonces = db.requestNonces :=
  congrArg (fun c : Contents => c.authority.requestNonces) h

lemma requestNonces_startup (db : Db) (now : Time) :
    (invalidateUnfinishedCeremoniesOnStartup db now).requestNonces = db.requestNonces :=
  requestNonces_of_contents (contents_startup db now)

lemma requestNonces_precheck (h : beginRestorePrecheck db now = .ok db') :
    db'.requestNonces = db.requestNonces :=
  requestNonces_of_contents (beginRestorePrecheck_holds h).contents

lemma requestNonces_transition {source target : RestoreState}
    (h : transitionRestore db source target now = .ok db') :
    db'.requestNonces = db.requestNonces := by
  obtain ⟨-, rfl⟩ := transitionRestore_eq_ok.mp h
  rfl

lemma requestNonces_stagedDb {env : Env Step} {image : Db} (himage : image.stageable = true) :
    (stagedDb req env image).requestNonces = image.requestNonces := by
  obtain ⟨db, hdb⟩ := stageImage_isOk_iff.mpr himage
  have hstaged : stagedDb req env image = db := by
    rw [stagedDb, hdb]
    rfl
  obtain ⟨d₁, d₂, d₃, hs⟩ := stageImage_eq_ok.mp hdb
  rw [hstaged]
  calc db.requestNonces = d₃.requestNonces := requestNonces_transition hs.recovering
    _ = d₂.requestNonces := (cutoverRestore_metadata hs.cutover).2.2.2
    _ = d₁.requestNonces := requestNonces_precheck hs.precheck
    _ = (invalidateUnfinishedCeremoniesOnStartup image _).requestNonces :=
      requestNonces_transition hs.finish
    _ = image.requestNonces := requestNonces_startup image _

end Db

structure Disk.Knows (d : Disk) (keys : List RequestNonceKey) : Prop where
  live : ∀ db ∈ d.live, db.Knows keys
  rollback : ∀ db ∈ d.rollback, db.Knows keys
  prepared : ∀ db, d.prepared = some (.written db) → db.Knows keys

section Files

variable {d : Disk} (h : d.Knows keys)
include h

lemma Disk.Knows.removeLive : Disk.Knows { d with live := none } keys :=
  ⟨by simp, h.rollback, h.prepared⟩

lemma Disk.Knows.removeRollback : Disk.Knows { d with rollback := none } keys :=
  ⟨h.live, by simp, h.prepared⟩

lemma Disk.Knows.removePrepared : Disk.Knows { d with prepared := none } keys :=
  ⟨h.live, h.rollback, by simp⟩

lemma Disk.Knows.renameRollback : Disk.Knows { d with live := d.rollback, rollback := none } keys :=
  ⟨h.rollback, by simp, h.prepared⟩

end Files

variable {f : Db → Except StorageError Db}

section Disk

variable {env : Env OpenStep} {disk d d' : Disk} {db : Db} {j : CutoverJournal}

lemma Disk.Knows.onLive (hd : d.Knows keys)
    (hf : ∀ db db', f db = .ok db' → db'.requestNonces = db.requestNonces)
    (h : onLive f d = .ok d') : d'.Knows keys := by
  obtain ⟨db, db', hlive, hok, rfl⟩ := onLive_eq_ok.mp h
  refine ⟨?_, hd.rollback, hd.prepared⟩
  intro _ hdb₁
  cases hdb₁
  exact (hd.live db hlive).of_eq (hf db db' hok)

lemma Disk.Knows.onPrepared (hd : d.Knows keys)
    (hf : ∀ db db', f db = .ok db' → db'.requestNonces = db.requestNonces)
    (h : onPrepared f d = .ok d') : d'.Knows keys := by
  obtain ⟨db, db', hprep, hok, rfl⟩ := onPrepared_eq_ok.mp h
  refine ⟨hd.live, hd.rollback, ?_⟩
  intro _ hdb₁
  cases hdb₁
  exact (hd.prepared db hprep).of_eq (hf db db' hok)

lemma keeps_knows_onLive {name : OpenStep} {e : StorageError} {g : Db → Db}
    (hg : ∀ db, (g db).requestNonces = db.requestNonces) :
    (io name e (onLive fun db => .ok (g db))).Keeps (Disk.Knows · keys) := by
  intro d d' hd h
  have hrun : onLive (fun db => .ok (g db)) d = .ok d' := h
  refine hd.onLive ?_ hrun
  intro db _ hok
  cases hok
  exact hg db

lemma keeps_knows_validateFile {step : OpenStep} {file : Disk → Option Db} {valid : Db → Bool} :
    (validateFile step file valid).Keeps (Disk.Knows · keys) := by
  intro d _ hd h
  simp only [validateFile, io] at h
  split_ifs at h
  cases h
  exact hd

lemma keeps_knows_files (keys : List RequestNonceKey) :
    removePreparedFile.Keeps (Disk.Knows · keys) ∧ removeRollbackFile.Keeps (Disk.Knows · keys) ∧
      removeLiveFile.Keeps (Disk.Knows · keys) ∧ renameRollbackFile.Keeps (Disk.Knows · keys) := by
  refine ⟨?_, ?_, ?_, ?_⟩
  · exact (keeps_change _ _).mpr fun _ hd => hd.removePrepared
  · exact (keeps_change _ _).mpr fun _ hd => hd.removeRollback
  · exact (keeps_change _ _).mpr fun _ hd => hd.removeLive
  · exact (keeps_change _ _).mpr fun _ hd => hd.renameRollback

lemma keeps_knows_receipt (phase : CutoverPhase) :
    ∀ a ∈ persistRecoveryReceipt j phase, a.Keeps (Disk.Knows · keys) := by
  simp only [persistRecoveryReceipt, List.forall_mem_cons, keeps_inspect, keeps_change, true_and]
  exact ⟨fun d hd => { hd with }, by simp⟩

lemma keeps_knows_recovery (env : Env OpenStep) (disk : Disk) :
    ∀ a ∈ (recoverInterruptedCutover env disk).1, a.Keeps (Disk.Knows · keys) := by
  obtain ⟨hprep, hroll, hlive, hrename⟩ := keeps_knows_files keys
  have hkeep : ∀ j phase, ∀ a ∈ keepLive j phase, a.Keeps (Disk.Knows · keys) := by
    intro j phase
    simpa [keepLive, syncDirectory, hprep] using keeps_knows_receipt phase
  unfold recoverInterruptedCutover
  split
  · unfold cleanupOrphanRestoreFiles
    split_ifs <;> simp [hprep, hroll, syncDirectory]
  · rename_i j hj
    split_ifs
    · unfold recoverReceipt
      split <;> simp [keeps_knows_validateFile]
    · simp only [List.forall_mem_cons, keeps_inspect, true_and]
      have hplan := activePlan_recoverActive env disk j
      generalize recoverActive env disk j = plan at hplan ⊢
      cases hplan with
      | continued =>
        simpa [continueInstall, syncDirectory, hprep, hroll] using keeps_knows_receipt _
      | rolledBack =>
        simpa [rollBack, syncDirectory, hprep, hlive, hrename, keeps_knows_validateFile]
          using keeps_knows_receipt _
      | cleaned | back | kept => exact hkeep j _
      | rejected =>
        intro a ha d d' _ h
        rw [List.mem_singleton.mp ha] at h
        cases h
    · intro a ha d _ _ h
      rw [List.mem_singleton.mp ha] at h
      cases h

lemma keeps_knows_settle (outcome : Option CrashRecoveryOutcome) :
    ∀ a ∈ settle outcome, a.Keeps (Disk.Knows · keys) := by
  cases outcome with
  | none => simp [settle]
  | some o =>
    simp only [settle, List.forall_mem_cons]
    refine ⟨keeps_knows_onLive fun db =>
      requestNonces_of_contents (contents_recordCutoverRecovery db o), ?_⟩
    unfold completeInterruptedCutover
    split
    · simp
    · simp only [List.forall_mem_cons, keeps_inspect, keeps_change, true_and]
      refine ⟨?_, fun d hd => { hd with }, by simp⟩
      intro d _ hd h
      simp only [io] at h
      split_ifs at h
      cases h
      exact hd

theorem Disk.Knows.openCrashes (hd : disk.Knows keys) :
    ∀ t ∈ openCrashes env disk, t.Knows keys := by
  refine visited_invariant hd ?_
  unfold openActions
  simp only [List.forall_mem_append, openDatabaseConnection, List.forall_mem_cons, keeps_inspect]
  refine ⟨⟨⟨by simp, keeps_knows_recovery env disk⟩, ?_⟩, keeps_knows_settle _⟩
  exact ⟨keeps_knows_onLive fun _ => rfl, keeps_knows_onLive fun db => requestNonces_startup db _,
    by simp⟩

/-- A receipt is only written once the other files are gone. -/
def Disk.Tidy (d : Disk) : Prop :=
  ∀ j ∈ d.journal, j.phase.isRecovered = true → d.rollback = none ∧ d.prepared = none

lemma tidy_of_journal_none (h : d.journal = none) : d.Tidy := by
  intro j hj
  simp [h] at hj

lemma tidy_of_active (hj : d.journal = some j) (hphase : j.phase.isRecovered = false) : d.Tidy := by
  intro _ hj' hrec
  rw [hj] at hj'
  cases hj'
  exact absurd (hphase.symm.trans hrec) (by decide)

lemma tidy_of_cleared (hr : d.rollback = none) (hp : d.prepared = none) : d.Tidy :=
  fun _ _ _ => ⟨hr, hp⟩

/-- The end of a recovery: only the live database is left, and the outcome names its restore. -/
def Disk.Cleared (u : Disk) (outcome : Option CrashRecoveryOutcome) : Prop :=
  u.rollback = none ∧ u.prepared = none ∧ ∃ o id, outcome = some o ∧ o.recoveryId = some id

variable {outcome : Option CrashRecoveryOutcome}

lemma leads_recoverActive (hj : d.journal = some j) (hphase : j.phase.isRecovered = false) :
    Leads Disk.Tidy Disk.Cleared d (recoverActive env d j) := by
  have hd := tidy_of_active hj hphase
  have hplan := activePlan_recoverActive env d j
  generalize recoverActive env d j = plan at hplan ⊢
  cases hplan with
  | continued =>
    exact leads_continueInstall hd (tidy_of_active hj hphase) (tidy_of_cleared rfl rfl)
      (tidy_of_cleared rfl rfl) ⟨rfl, rfl, _, _, rfl, rfl⟩
  | rolledBack =>
    exact leads_rollBack hd (tidy_of_active hj hphase) (tidy_of_active hj hphase)
      (tidy_of_cleared rfl rfl) (tidy_of_cleared rfl rfl) ⟨rfl, rfl, _, _, rfl, rfl⟩
  | cleaned there | back there | kept there =>
    exact leads_keepLive hd (tidy_of_cleared there rfl) (tidy_of_cleared there rfl)
      ⟨there, rfl, _, _, rfl, rfl⟩
  | rejected => exact leads_rejected hd _

lemma leads_recoverReceipt (hd : d.Tidy) (hj : d.journal = some j)
    (hphase : j.phase.isRecovered = true) :
    Leads Disk.Tidy Disk.Cleared d (recoverReceipt j) := by
  obtain ⟨hr, hp⟩ := hd j hj hphase
  unfold recoverReceipt
  split
  · exact leads_validate hd ⟨hr, hp, _, _, rfl, rfl⟩
  · exact leads_validate hd ⟨hr, hp, _, _, rfl, rfl⟩
  · exact leads_validate hd ⟨hr, hp, _, _, rfl, rfl⟩
  · rename_i h₁ h₂ h₃
    cases hphase' : j.phase <;> simp_all [CutoverPhase.isRecovered]

lemma leads_recovery (hd : d.Tidy) (hj : d.journal = some j) :
    Leads Disk.Tidy Disk.Cleared d (recoverInterruptedCutover env d) := by
  simp only [recoverInterruptedCutover, hj]
  split_ifs with _ hrec
  · exact (leads_recoverReceipt hd hj hrec).inspect _ _
  · exact (leads_recoverActive hj (by simpa using hrec)).inspect _ _
  · exact leads_rejected hd _

lemma exec_connection_of_none {u t : Disk} (hu : u.live = none) :
    exec (fun _ => false) (openDatabaseConnection env ++ settle outcome) u ≠ (.ok (), t) := by
  simp [openDatabaseConnection, exec, onLive, hu]

lemma openCrashes_journal_none (hj : disk.journal = none) :
    ∀ t ∈ openCrashes env disk, t.journal = none := by
  refine visited_invariant (I := fun t : Disk => t.journal = none) hj ?_
  have hlive : ∀ {name : OpenStep} {e : StorageError} {f : Db → Except StorageError Db},
      (io name e (onLive f)).Keeps fun t : Disk => t.journal = none := by
    intro _ e f t t' ht h
    have hrun : onLive f t = .ok t' := h
    obtain ⟨_, _, _, _, rfl⟩ := onLive_eq_ok.mp hrun
    exact ht
  have hsettle : ∀ a ∈ settle (cleanupOrphanRestoreFiles env disk).2,
      a.Keeps fun t : Disk => t.journal = none := by
    obtain ho | ho := orphanOutcome_cases env disk
    · simp [ho, settle]
    · simp [ho, settle, completeInterruptedCutover, hlive]
  have hplan : ∀ a ∈ (cleanupOrphanRestoreFiles env disk).1,
      a.Keeps fun t : Disk => t.journal = none := by
    unfold cleanupOrphanRestoreFiles
    split_ifs <;> simp [removePreparedFile, removeRollbackFile, syncDirectory]
  unfold openActions recoverInterruptedCutover
  rw [hj]
  simp only [List.forall_mem_append, openDatabaseConnection, List.forall_mem_cons]
  exact ⟨⟨⟨by simp, hplan⟩, hlive, hlive, by simp⟩, hsettle⟩

theorem Disk.Tidy.openCrashes (hd : disk.Tidy) : ∀ t ∈ openCrashes env disk, t.Tidy := by
  intro t ht
  cases hj : disk.journal with
  | none => exact tidy_of_journal_none (openCrashes_journal_none hj t ht)
  | some =>
    have hclears : Leads Disk.Tidy Disk.Cleared disk (recoverInterruptedCutover env disk) :=
      leads_recovery hd hj
    obtain ht | ⟨u, hu, ht⟩ := mem_openCrashes ht
    · exact hclears.visits t ht
    · obtain ⟨hr, hp, _, _, ho, hid⟩ := hclears.ends u hu
      cases hlive : u.live with
      | none =>
        obtain rfl : t = u := by
          simpa [openDatabaseConnection, mem_visited_cons, onLive, hlive] using ht
        exact tidy_of_cleared hr hp
      | some =>
        rw [ho] at ht
        obtain rfl | rfl | rfl | rfl := mem_visited_settle hlive hid ht
        all_goals exact tidy_of_cleared hr hp

theorem Disk.Tidy.opened (hd : disk.Tidy) (h : openWallet env disk = (.ok db, d)) :
    d = ⟨some db, none, none, none⟩ := by
  obtain ⟨u, hu, hx, hdb⟩ := openWallet_eq_ok h
  cases hj : disk.journal with
  | none =>
    cases hlive : disk.live with
    | none =>
      have hplan : recoverInterruptedCutover env disk = ([], none) := by
        simp [recoverInterruptedCutover, hj, cleanupOrphanRestoreFiles, hlive]
      rw [hplan] at hu hx
      cases hu
      exact absurd hx (exec_connection_of_none hlive)
    | some => exact (opened_live hlive hj h).1
  | some =>
    obtain ⟨hr, hp, _, _, ho, hid⟩ := (leads_recovery hd hj).ends u hu
    cases hlive : u.live with
    | none => exact absurd hx (exec_connection_of_none hlive)
    | some =>
      rw [ho] at hx
      have hd' := exec_settle hlive hid hx
      rw [hr, hp] at hd'
      rw [hd'] at hdb ⊢
      rw [← hdb]

end Disk

section Restore

variable {env : Env Step} {image live db : Db} {disk d : Disk} {epoch : ℕ} {m : Machine}
  {fault : Option (RestoreStep × StorageError)}

lemma keeps_knows_machine {f : Disk → Except StorageError Disk}
    (hf : ∀ d d', d.Knows keys → f d = .ok d' → d'.Knows keys) :
    Action.Keeps ⟨fault, onDisk f⟩ fun m => m.disk.Knows keys := by
  intro m _ hm h
  obtain ⟨_, hd, rfl⟩ := onDisk_eq_ok.mp h
  exact hf _ _ hm hd

section

variable (hf : ∀ db db', f db = .ok db' → db'.requestNonces = db.requestNonces)
include hf

lemma keeps_knows_onPrepared :
    Action.Keeps ⟨fault, onDisk (onPrepared f)⟩ fun m => m.disk.Knows keys :=
  keeps_knows_machine fun _ _ hd h => hd.onPrepared hf h

lemma keeps_knows_onLiveFile : Action.Keeps ⟨fault, onDisk (onLive f)⟩ fun m => m.disk.Knows keys :=
  keeps_knows_machine fun _ _ hd h => hd.onLive hf h

end

lemma keeps_knows_advance (phase : CutoverPhase) :
    ∀ a ∈ advance req epoch phase, a.Keeps fun m => m.disk.Knows keys := by
  simp only [advance, List.forall_mem_cons, keeps_inspect, keeps_change, true_and]
  exact ⟨fun m hm => { hm with }, by simp⟩

lemma keeps_knows_createJournal :
    ∀ a ∈ createJournal req epoch, a.Keeps fun m => m.disk.Knows keys := by
  simp only [createJournal, List.forall_mem_cons, keeps_inspect, keeps_change, true_and]
  refine ⟨?_, fun m hm => { hm with }, fun m hm => hm, by simp⟩
  intro m _ hm h
  simp only [io] at h
  split_ifs at h
  cases h
  exact hm

lemma keeps_knows_writePrepared (himage : image.Knows keys) :
    ∀ a ∈ writePrepared image, a.Keeps fun m => m.disk.Knows keys := by
  simp only [writePrepared, List.forall_mem_cons, keeps_inspect, keeps_change]
  refine ⟨fun m hm => hm, ?_, fun m hm => ⟨hm.live, hm.rollback, ?_⟩, trivial, by simp⟩
  · intro m _ hm h
    simp only [io] at h
    split_ifs at h
    cases h
    exact ⟨hm.live, hm.rollback, by simp⟩
  · intro _ hdb
    cases hdb
    exact himage

lemma keeps_knows_stagePrepared (current manifestEpoch : ℕ) :
    ∀ a ∈ stagePrepared req env current manifestEpoch, a.Keeps fun m => m.disk.Knows keys := by
  simp only [stagePrepared, List.forall_mem_cons, keeps_inspect, true_and]
  refine ⟨keeps_knows_onPrepared ?_, keeps_knows_onPrepared ?_,
    keeps_knows_onPrepared fun _ _ => requestNonces_transition,
    keeps_knows_onPrepared fun _ _ => requestNonces_precheck,
    keeps_knows_onPrepared fun _ _ h => (cutoverRestore_metadata h).2.2.2,
    keeps_knows_onPrepared ?_, keeps_knows_onPrepared fun _ _ => requestNonces_transition, by simp⟩
  · intro db db' h
    cases h
    rfl
  · intro db db' h
    cases h
    exact requestNonces_startup db _
  · intro _ _ h
    split_ifs at h
    cases h
    rfl

lemma keeps_knows_cutover (req : RestoreRequest) (keys : List RequestNonceKey) (env : Env Step) :
    ∀ a ∈ freezeLive req ++ moveOriginal ++ installPrepared ++ commitCutover env ++ finishJournal,
      a.Keeps fun m => m.disk.Knows keys := by
  simp only [freezeLive, moveOriginal, installPrepared, commitCutover, finishJournal,
    List.forall_mem_append, List.forall_mem_cons, keeps_inspect, keeps_change, true_and]
  refine ⟨⟨⟨⟨⟨keeps_knows_onLiveFile fun _ _ => requestNonces_precheck, by simp⟩, ?_, ?_,
    fun m hm => hm, by simp⟩, ?_, fun m hm => hm, by simp⟩, keeps_knows_onLiveFile ?_,
    keeps_knows_onLiveFile ?_, fun m hm => ⟨hm.live, by simp, hm.prepared⟩, by simp⟩,
    fun m hm => { hm with }, by simp⟩
  · intro m m' hm h
    cases h
    exact hm
  · intro m m' hm h
    simp only [io] at h
    split at h
    · cases h
    · rename_i db hdb
      cases h
      refine ⟨by simp, ?_, hm.prepared⟩
      intro db' hdb'
      cases hdb'
      exact hm.live db hdb
  · intro m _ hm h
    simp only [io] at h
    split at h
    · rename_i db hdb
      cases h
      refine ⟨?_, hm.rollback, by simp⟩
      intro db' hdb'
      cases hdb'
      exact hm.prepared db hdb
    · cases h
  · intro db db' h
    cases h
    rfl
  · intro db _ h
    cases h
    exact requestNonces_startup db _

lemma keeps_knows_restoreActions (himage : image.Knows keys) (current : ℕ) :
    ∀ a ∈ restoreActions req epoch env image current, a.Keeps fun m => m.disk.Knows keys := by
  have hcutover := keeps_knows_cutover req keys env
  simp only [List.forall_mem_append] at hcutover
  obtain ⟨⟨⟨⟨hfreeze, hmove⟩, hinstall⟩, hcommit⟩, hfinish⟩ := hcutover
  simp only [restoreActions, List.forall_mem_append]
  exact ⟨⟨⟨⟨⟨⟨⟨⟨⟨⟨keeps_knows_createJournal, keeps_knows_writePrepared himage⟩,
    keeps_knows_stagePrepared _ _⟩, keeps_knows_advance _⟩, hfreeze⟩, hmove⟩,
    keeps_knows_advance _⟩, hinstall⟩, keeps_knows_advance _⟩, hcommit⟩, hfinish⟩

lemma keeps_knows_guards : ∀ g ∈ guards m, ∀ a ∈ g, a.Keeps fun m => m.disk.Knows keys := by
  have hrename : ∀ m : Machine, m.disk.Knows keys →
      Disk.Knows { m.disk with live := m.disk.rollback, rollback := none } keys :=
    fun m hm => hm.renameRollback
  have hjour : ∀ m : Machine, m.disk.Knows keys → Disk.Knows { m.disk with journal := none } keys :=
    fun m hm => { hm with }
  simp only [guards, List.forall_mem_cons]
  refine ⟨?_, ?_, ?_, by simp⟩
  · unfold dropCutover
    split_ifs
    · simpa using ⟨fun m hm => Disk.Knows.removeLive hm, hrename, hjour⟩
    · simpa using ⟨hrename, hjour⟩
    · simp
  · unfold dropPrepared
    split_ifs
    · simpa using fun m hm => Disk.Knows.removePrepared hm
    · simp
  · unfold dropJournal
    split_ifs
    · simpa using hjour
    · simp

lemma cleanUpCrashes_invariant {I : Machine → Prop} {faults : DropStep → Bool}
    {gs : List (List DropAction)} (hgs : ∀ g ∈ gs, ∀ a ∈ g, a.Keeps I) (hm : I m) :
    ∀ t ∈ cleanUpCrashes faults gs m, I t := by
  induction gs generalizing m with
  | nil =>
    intro t ht
    rw [List.mem_singleton.mp ht]
    exact hm
  | cons _ _ ih =>
    intro t ht
    obtain ⟨hg, hgs⟩ := List.forall_mem_cons.mp hgs
    obtain ht | ht := List.mem_append.mp ht
    · exact visited_invariant hm hg t ht
    · exact ih hgs (exec_invariant hm hg) t ht

lemma runRestoreCrashes_invariant {I : Machine → Prop} (hstart : I (.start disk))
    (hactions : ∀ a ∈ restoreActions req epoch env image live.metadata.epoch, a.Keeps I)
    (hguards : ∀ m, ∀ g ∈ guards m, ∀ a ∈ g, a.Keeps I)
    (hd : d ∈ runRestoreCrashes env req image epoch live disk) : ∃ m, I m ∧ m.disk = d := by
  have hend : I (exec (env.part Step.restoring).faults
      (restoreActions req epoch env image live.metadata.epoch) (.start disk)).2 :=
    exec_invariant hstart hactions
  simp only [runRestoreCrashes, List.mem_append, List.mem_map] at hd
  obtain ⟨m, hm, rfl⟩ | hd := hd
  · exact ⟨m, visited_invariant hstart hactions m hm, rfl⟩
  · split at hd
    · cases hd
    · rename_i e m hx
      rw [hx] at hend
      obtain ⟨t, ht, rfl⟩ := List.mem_map.mp hd
      exact ⟨t, cleanUpCrashes_invariant (hguards m) hend t ht, rfl⟩

lemma Stretch.At.active {s : Stretch} (hm : s.At req env epoch image live m) :
    ∀ j ∈ m.disk.journal, j.phase.isRecovered = false := by
  intro j hj
  cases s with
  | staging =>
    obtain ⟨_, _, hphase, hdisk, -⟩ := hm
    rw [hdisk] at hj
    cases hj
    exact CutoverPhase.isRecovered_of_isEarly hphase
  | frozen | installing =>
    rw [hm.1] at hj
    cases hj
    rfl
  | installed =>
    obtain ⟨_, -, rfl⟩ := hm
    cases hj
    rfl
  | untouched | finished =>
    cases hm
    cases hj
  | loose | unguarded | moving | moved | committed =>
    cases hm
    cases hj
    rfl

lemma tidy_of_runRestoreCrashes (hepoch : live.metadata.epoch ≤ image.metadata.epoch)
    (hd : d ∈ runRestoreCrashes env req image epoch live ⟨some live, none, none, none⟩) :
    d.Tidy := by
  obtain ⟨m, hm, u, hu, _, _, rfl, hj⟩ := mem_runRestoreCrashes hd
  have hact : ∀ j ∈ m.disk.journal, j.phase.isRecovered = false := by
    by_cases hnorm : live.metadata.restoreState = .normal
    · obtain ⟨s, -, hs⟩ := visited_restoreActions req epoch hnorm hepoch m hm
      exact hs.active
    · obtain ⟨_, -, hs⟩ := visited_restoreActions_of_not_normal req epoch hnorm m hm
      exact hs.active
  have hu' : u.disk.journal = m.disk.journal ∨ u.disk.journal = none := by
    cases hcut : m.cutoverActive with
    | false =>
      rw [mem_visited_dropCutover_of_inactive hcut hu]
      exact .inl rfl
    | true =>
      obtain h | h | h | h := mem_visited_dropCutover hcut hu
      all_goals simp [h]
  intro j hmem hrec
  have hj' : m.disk.journal = some j := by
    obtain rfl | ⟨-, rfl⟩ := hj
    · obtain h | h := hu'
      · exact h.symm.trans hmem
      · exact absurd (h.symm.trans hmem) (by simp)
    · cases hmem
  exact absurd ((hact j hj').symm.trans hrec) (by decide)

/-- If the restore passes its checks, then its image knows all these keys. -/
def Covers (F : BundleFormat) (env : Env Step) (req : RestoreRequest) (disk : Disk)
    (keys : List RequestNonceKey) : Prop :=
  ∀ manifest image live d epoch,
    acceptBundle F req.backend req.bundle req.expectedWalletId = .ok (manifest, image) →
    openWallet (env.part .opening) disk = (.ok live, d) →
    checkAgainstLive manifest live.metadata req.expectedWalletId = .ok epoch → image.Knows keys

/-- A restore takes no claim back and leaves the files tidy, wherever it is cut short, if its image
holds all claims. -/
theorem knows_of_restoreCrashes (hk : disk.Knows keys) (ht : disk.Tidy)
    (hc : Covers F env req disk keys) (hd : d ∈ restoreCrashes F env req disk) :
    d.Knows keys ∧ d.Tidy := by
  obtain rfl | ⟨_, _, hbundle, hd | ⟨_, disk', _, hopen, hcheck, hd⟩⟩ := mem_restoreCrashes hd
  · exact ⟨hk, ht⟩
  · exact ⟨hk.openCrashes d hd, ht.openCrashes d hd⟩
  · have hk' : disk'.Knows keys := by
      have hmem := openWallet_mem_openCrashes (env.part .opening) disk
      rw [hopen] at hmem
      exact hk.openCrashes _ hmem
    have himage := hc _ _ _ _ _ hbundle hopen hcheck
    obtain rfl := ht.opened hopen
    obtain ⟨-, hepoch, -, -⟩ := checkAgainstLive_eq_ok.mp hcheck
    rw [← (acceptBundle_eq_ok hbundle).2.2] at hepoch
    obtain ⟨m, hm, rfl⟩ := runRestoreCrashes_invariant (I := fun m => m.disk.Knows keys) hk'
      (keeps_knows_restoreActions himage _) (fun _ => keeps_knows_guards) hd
    exact ⟨hm, tidy_of_runRestoreCrashes hepoch hd⟩

/-- A restore that succeeds leaves the new database only, with the claims of its image. -/
theorem restoreEncryptedBackup_eq_ok (ht : disk.Tidy)
    (h : restoreEncryptedBackup F env req disk = (.ok db, d)) :
    d = ⟨some db, none, none, none⟩ ∧ ∃ manifest image live disk' epoch,
      acceptBundle F req.backend req.bundle req.expectedWalletId = .ok (manifest, image) ∧
      openWallet (env.part .opening) disk = (.ok live, disk') ∧
      checkAgainstLive manifest live.metadata req.expectedWalletId = .ok epoch ∧
      db.requestNonces = image.requestNonces ∧
      db.metadata.restoreState = .recovering ∧ db.metadata.walletId = req.expectedWalletId := by
  unfold restoreEncryptedBackup at h
  split at h
  · cases h
  · rename_i manifest image hbundle
    split at h
    · cases h
    · rename_i live' disk' hopen
      have hopened := ht.opened hopen
      subst hopened
      split_ifs at h
      · cases h
      · split at h
        · cases h
        · rename_i epoch hcheck
          obtain ⟨-, hepoch, -, -⟩ := checkAgainstLive_eq_ok.mp hcheck
          obtain ⟨-, hwal, himagee⟩ := acceptBundle_eq_ok hbundle
          rw [← himagee] at hepoch
          unfold runRestore at h
          split at h
          · rename_i m hx
            obtain ⟨-, himage, rfl⟩ := exec_restoreActions_eq_ok hepoch hx
            cases h
            obtain ⟨hstate, -, hw⟩ := stagedDb_metadata req env himage
            refine ⟨rfl, manifest, image, live', _, epoch, hbundle, hopen, hcheck, ?_, ?_, ?_⟩
            · exact (requestNonces_startup _ _).trans (requestNonces_stagedDb himage)
            · rw [reopenedDb, metadata_startup, hstate]
            · rw [reopenedDb, metadata_startup, hw, hwal]
          · cases h

end Restore

/-- The files of a wallet, whether it is open, and the request nonces claimed in its life, oldest
first. -/
structure NonceHistory where
  disk : Disk
  opened : Bool
  claimed : List RequestNonceKey

def NonceHistory.new (walletId : Uuid) (now : Time) : NonceHistory :=
  ⟨⟨some (initializeWallet walletId now), none, none, none⟩, true, []⟩

/-- A call on the open database, an opening, a restore, and both failing or cut short by a crash.
The restores may be limited. -/
inductive NonceHistory.Step (P : Platform) (F : BundleFormat) (allowed : Env WalletStorage.Step →
    RestoreRequest → Disk → List RequestNonceKey → Prop) : NonceHistory → NonceHistory → Prop where
  | call {h db db'} (c : Call) (opened : h.opened = true)
      (live : h.disk.live = some db) (ok : step P db c = .ok db') :
      Step P F allowed h ⟨{ h.disk with live := some db' }, true, h.claimed ++ c.nonceKey.toList⟩
  | opening {h db d} (env : Env OpenStep)
      (ok : openWallet env h.disk = (.ok db, d)) : Step P F allowed h ⟨d, true, h.claimed⟩
  | openingCut {h d} (env : Env OpenStep)
      (cut : d ∈ openCrashes env h.disk) : Step P F allowed h ⟨d, false, h.claimed⟩
  | restore {h db d} (env : Env WalletStorage.Step)
      (req : RestoreRequest) (may : allowed env req h.disk h.claimed)
      (ok : restoreEncryptedBackup F env req h.disk = (.ok db, d)) :
      Step P F allowed h ⟨d, true, h.claimed⟩
  | restoreCut {h d} (env : Env WalletStorage.Step) (req : RestoreRequest)
      (may : allowed env req h.disk h.claimed) (cut : d ∈ restoreCrashes F env req h.disk) :
      Step P F allowed h ⟨d, false, h.claimed⟩

abbrev NonceHistory.Reaches (P : Platform) (F : BundleFormat) (allowed : Env WalletStorage.Step →
    RestoreRequest → Disk → List RequestNonceKey → Prop) : NonceHistory → NonceHistory → Prop :=
  Relation.ReflTransGen (NonceHistory.Step P F allowed)

/-- Every database on the disk knows every claim, and an open wallet has no other files. -/
structure NonceHistory.Sound (h : NonceHistory) : Prop where
  knows : h.disk.Knows h.claimed
  tidy : h.disk.Tidy
  only : h.opened = true → h.disk.rollback = none ∧ h.disk.prepared = none
  once : h.claimed.Nodup
  valid : ∀ k ∈ h.claimed, k.Valid

section History

variable {h h' : NonceHistory}

lemma NonceHistory.Sound.call {db db' : Db} {c : Call} (hs : h.Sound) (hopen : h.opened = true)
    (hlive : h.disk.live = some db) (hok : step P db c = .ok db') :
    NonceHistory.Sound
      ⟨{ h.disk with live := some db' }, true, h.claimed ++ c.nonceKey.toList⟩ := by
  obtain ⟨hroll, hprep⟩ := hs.only hopen
  have hknows := hs.knows.live db hlive
  have hkeeps : db'.Knows h.claimed := hknows.step hok
  have hnew : ∀ k, c.nonceKey = some k →
      k ∉ h.claimed ∧ k.Valid ∧ ∃ r, db'.requestNonces.get k = some r := by
    intro k hk
    obtain ⟨hnone, hvalid, hsome⟩ := step_nonceKey hok hk
    refine ⟨fun hmem => ?_, hvalid, hsome⟩
    obtain ⟨_, hr⟩ := hknows k hmem
    exact absurd (hnone.symm.trans hr) (by simp)
  refine ⟨⟨?_, ?_, ?_⟩, ?_, fun _ => ⟨hroll, hprep⟩, ?_, ?_⟩
  · intro db₁ hdb₁ k hk
    cases hdb₁
    obtain hk | hk := List.mem_append.mp hk
    · exact hkeeps k hk
    · exact (hnew k (Option.mem_toList.mp hk)).2.2
  · intro db₁ hdb₁
    exact absurd (hroll.symm.trans hdb₁) (by simp)
  · intro _ hdb₁
    exact absurd (hprep.symm.trans hdb₁) (by simp)
  · exact tidy_of_cleared hroll hprep
  · cases hk : c.nonceKey with
    | none => simpa using hs.once
    | some k =>
      refine List.Nodup.append hs.once (by simp) ?_
      simpa using (hnew k hk).1
  · intro k hk
    obtain hk | hk := List.mem_append.mp hk
    · exact hs.valid k hk
    · exact (hnew k (Option.mem_toList.mp hk)).2.1

theorem NonceHistory.Sound.step (hs : h.Sound)
    (hstep : NonceHistory.Step P F (Covers F) h h') : h'.Sound := by
  cases hstep with
  | call c hopen hlive hok => exact hs.call hopen hlive hok
  | opening env hok =>
    have hmem := openWallet_mem_openCrashes env h.disk
    rw [hok] at hmem
    have hd := hs.tidy.opened hok
    exact ⟨hs.knows.openCrashes _ hmem, hs.tidy.openCrashes _ hmem, fun _ => by simp [hd], hs.once,
      hs.valid⟩
  | openingCut _ hcut =>
    exact ⟨hs.knows.openCrashes _ hcut, hs.tidy.openCrashes _ hcut, by simp, hs.once, hs.valid⟩
  | restore _ _ hcovers hok =>
    obtain ⟨rfl, _, _, _, _, _, hbundle, hopen, hcheck, hnonces, -⟩ :=
      restoreEncryptedBackup_eq_ok hs.tidy hok
    refine ⟨⟨?_, by simp, by simp⟩, tidy_of_cleared rfl rfl, fun _ => ⟨rfl, rfl⟩, hs.once, hs.valid⟩
    intro _ hdb
    cases hdb
    exact (hcovers _ _ _ _ _ hbundle hopen hcheck).of_eq hnonces
  | restoreCut _ _ hcovers hcut =>
    obtain ⟨hknows, htidy⟩ := knows_of_restoreCrashes hs.knows hs.tidy hcovers hcut
    exact ⟨hknows, htidy, by simp, hs.once, hs.valid⟩

theorem NonceHistory.sound_of_reaches {walletId : Uuid} {now : Time}
    (hh : NonceHistory.Reaches P F (Covers F) (.new walletId now) h) : h.Sound := by
  induction hh with
  | refl =>
    refine ⟨⟨?_, by simp [NonceHistory.new], by simp [NonceHistory.new]⟩, tidy_of_cleared rfl rfl,
      fun _ => ⟨rfl, rfl⟩, List.nodup_nil, by simp [NonceHistory.new]⟩
    intro _ _ k hk
    cases hk
  | tail _ hstep ih => exact ih.step hstep

/-- Request nonces are claimed once in the life of a wallet, as long as every image that is restored
holds the claims so far. A key that an image lacks can be claimed again. -/
theorem requestNonce_singleUse_of_covers {walletId : Uuid} {now : Time}
    (hh : NonceHistory.Reaches P F (Covers F) (.new walletId now) h) :
    h.claimed.Nodup ∧
      ∀ env req db d manifest image, restoreEncryptedBackup F env req h.disk = (.ok db, d) →
        acceptBundle F req.backend req.bundle req.expectedWalletId = .ok (manifest, image) →
        ∀ context recoveredAt claimedAt, context.walletId = req.expectedWalletId →
          context.nonceKey ∈ h.claimed → image.requestNonces.get context.nonceKey = none →
          (∀ r ∈ image.requestNonces.rows, (context.row P claimedAt).sameOperation r = false) →
          ∃ db₁ db₂, finishRecovery db recoveredAt = .ok db₁ ∧
            claimSignerRequestNonce P db₁ context.toProviderIdentity context claimedAt =
              .ok db₂ := by
  have hs := NonceHistory.sound_of_reaches hh
  refine ⟨hs.once, ?_⟩
  intro _ _ db d _ _ hok hbundle context recoveredAt claimedAt hwal hclm hlacks hunused
  obtain ⟨-, _, _, _, _, _, hbundle', -, -, hnonces, hstate, hw⟩ :=
    restoreEncryptedBackup_eq_ok hs.tidy hok
  cases hbundle.symm.trans hbundle'
  rw [← hnonces] at hlacks hunused
  -- the claim succeeds in the normal state, as the key is free and the operation without claims
  have hvalid := hs.valid _ hclm
  have hfind : db.requestNonces.find? (context.row P claimedAt).sameOperation = none := by
    rw [Rows.find?, List.find?_eq_none]
    intro r hr
    simp [hunused r hr]
  have hany : ¬db.requestNonces.any (fun prior => (context.row P claimedAt).sameOperation prior ∧
      prior.operationBindingDigest ≠ (context.row P claimedAt).operationBindingDigest) = true := by
    rw [any_eq_true]
    rintro ⟨r, hr, hsame⟩
    simp [hunused r hr] at hsame
  obtain ⟨t, ht⟩ : ∃ t, db.requestNonces.insert? (context.row P claimedAt) = some t :=
    exists_insert? hlacks
  refine ⟨(db.setRestoreState .normal recoveredAt).log "restore.normal" none recoveredAt,
    exists_and_left.mpr ⟨transitionRestore_eq_ok.mpr ⟨hstate, rfl⟩, ?_⟩⟩
  simp only [claimSignerRequestNonce, ok_iff]
  exact ⟨_, trivial, rfl, hw.trans hwal.symm, hvalid.signerEpoch.2,
    (congrArg (Option.all _) hfind).trans rfl, hvalid.deviceGeneration.2,
    ⟨hvalid.signerEpoch.1, hvalid.signerId, hvalid.deviceGeneration.1, hany⟩, t, ht, rfl⟩

end History

def sampleContext : SignerRequestContext where
  walletId := 1
  signerSetId := 2
  signerEpoch := 1
  signerId := 1
  deviceId := 3
  deviceGeneration := 1
  groupPubkeyXonly := .zeros
  verifyingShareDigest := .zeros
  protocolVersion := 1
  operationId := 4
  intentId := 5
  sessionId := .zeros
  taprootSighash := .zeros
  policyDigest := .zeros
  minSigners := 2
  maxSigners := 3
  chainSnapshotDigest := .zeros
  requestNonce := .zeros
  expiresAt := 100

def sampleClaim : Call :=
  .claimSignerRequestNonce sampleContext.toProviderIdentity sampleContext 2

section Sample

variable {allowed : Env WalletStorage.Step → RestoreRequest → Disk → List RequestNonceKey → Prop}

lemma NonceHistory.step_attempt {h : NonceHistory} {db : Db} {c : Call} (hopen : h.opened = true)
    (hlive : h.disk.live = some db) (hok : (step P db c).isOk = true) :
    NonceHistory.Step P F allowed h
      ⟨{ h.disk with live := some (attempt (step P) db c) }, true,
        h.claimed ++ c.nonceKey.toList⟩ :=
  .call c hopen hlive (eq_ok_attempt hok)

def claimedWallet : Db :=
  run (step samplePlatform) newWallet [.beginSnapshot 1, .finishSnapshot 1, sampleClaim]

def restoredWallet : Db :=
  ((restoreEncryptedBackup (sampleFormat newImage) (.failing fun _ => false) (sampleRequest 1)
    ⟨some claimedWallet, none, none, none⟩).1.toOption).getD newWallet

lemma restore_claimedWallet :
    restoreEncryptedBackup (sampleFormat newImage) (.failing fun _ => false) (sampleRequest 1)
      ⟨some claimedWallet, none, none, none⟩ =
        (.ok restoredWallet, ⟨some restoredWallet, none, none, none⟩) := by
  decide +kernel

lemma reaches_claimedWallet :
    NonceHistory.Reaches samplePlatform (sampleFormat newImage) allowed (.new 1 0)
      ⟨⟨some claimedWallet, none, none, none⟩, true, [sampleContext.nonceKey]⟩ := by
  have hsnap : (step samplePlatform newWallet (.beginSnapshot 1)).isOk = true := by decide +kernel
  have hfinish : (step samplePlatform newImage (.finishSnapshot 1)).isOk = true := by decide +kernel
  have hclaim : (step samplePlatform (attempt (step samplePlatform) newImage (.finishSnapshot 1))
      sampleClaim).isOk = true := by
    decide +kernel
  exact ((Relation.ReflTransGen.refl.tail (NonceHistory.step_attempt rfl rfl hsnap)).tail
    (NonceHistory.step_attempt rfl rfl hfinish)).tail (NonceHistory.step_attempt rfl rfl hclaim)

end Sample

/-- A wallet exports a backup, claims a nonce, is restored from the backup, and claims the nonce
once more. -/
theorem requestNonce_claimed_twice :
    exportSnapshot newWallet 1 = .ok (newImage, attempt finishSnapshot newImage 1) ∧
      ∃ h, NonceHistory.Reaches samplePlatform (sampleFormat newImage) (fun _ _ _ _ => True)
          (.new 1 0) h ∧
        h.claimed = [sampleContext.nonceKey, sampleContext.nonceKey] := by
  have hexport : exportSnapshot newWallet 1 =
      .ok (newImage, attempt finishSnapshot newImage 1) := by
    decide +kernel
  have hrecover : (step samplePlatform restoredWallet (.finishRecovery 3)).isOk = true := by
    decide +kernel
  have hclaim : (step samplePlatform
      (attempt (step samplePlatform) restoredWallet (.finishRecovery 3))
      sampleClaim).isOk = true := by
    decide +kernel
  refine ⟨hexport, _, ((reaches_claimedWallet.tail
    (.restore (.failing fun _ => false) (sampleRequest 1) trivial restore_claimedWallet)).tail
    (NonceHistory.step_attempt rfl rfl hrecover)).tail
    (NonceHistory.step_attempt rfl rfl hclaim), rfl⟩

/-- The claim in the history up to the restore, which is the only one. -/
theorem requestNonce_singleUse_claimed : [sampleContext.nonceKey].Nodup ∧
    ∃ db₁ db₂, finishRecovery restoredWallet 3 = .ok db₁ ∧
      claimSignerRequestNonce samplePlatform db₁ sampleContext.toProviderIdentity sampleContext 2 =
        .ok db₂ := by
  have hbundle : acceptBundle (sampleFormat newImage) (some sampleBackend) (sampleBundle 1) 1 =
      .ok ((sampleBundle 1).manifest.get rfl, newImage) := by
    decide +kernel
  have hrows : newImage.requestNonces.rows = [] := by decide +kernel
  have h := requestNonce_singleUse_of_covers reaches_claimedWallet
  exact ⟨h.1, h.2 _ _ _ _ _ _ restore_claimedWallet hbundle sampleContext 3 2 rfl (by simp) rfl
    (by simp [hrows])⟩

end Catomicals.WalletStorage
