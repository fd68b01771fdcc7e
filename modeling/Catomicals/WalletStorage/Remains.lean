import Catomicals.WalletStorage.RestoreFaults

/-!
# What crashes leave of a restore

The files that crashes during a restore and the openings after it can leave. An opening ends with
the original or the new database, unless the original is in the precheck and nothing tells it apart
from one that was never moved.
-/
namespace Catomicals.WalletStorage

open Base Domain Base.Action CutoverPhase List

/-- What a recovery can plan under an active journal, with what it has found. -/
inductive ActivePlan (disk : Disk) (j : CutoverJournal) :
    List OpenAction × Option CrashRecoveryOutcome → Prop where
  | continued (moved : disk.rollback.isSome = true) (phase : j.phase = .installed)
      (live : disk.live.any (validateInstalledRecoveryDatabase j) = true) :
      ActivePlan disk j (continueInstall j, some (journalOutcome j .continued))
  | rolledBack (moved : disk.rollback.isSome = true) :
      ActivePlan disk j (rollBack j, some (journalOutcome j .rolledBack))
  | cleaned (there : disk.rollback = none)
      (live : disk.live.any (validateOriginalRecoveryDatabase j) = true)
      (phase : j.phase.isEarly = true) :
      ActivePlan disk j (keepLive j .recoveredCleaned, some (journalOutcome j .cleanedOrphan))
  | back (there : disk.rollback = none)
      (live : disk.live.any (validateOriginalRecoveryDatabase j) = true)
      (phase : j.phase.isEarly = false) :
      ActivePlan disk j (keepLive j .recoveredRolledBack, some (journalOutcome j .rolledBack))
  | kept (there : disk.rollback = none) (phase : j.phase = .installed)
      (live : disk.live.any (validateInstalledRecoveryDatabase j) = true) :
      ActivePlan disk j (keepLive j .recoveredContinued, some (journalOutcome j .continued))
  | rejected :
      ActivePlan disk j ([.pure fun _ => .error (.backup .invalidCutoverJournal)], none)

lemma activePlan_recoverActive (env : Env OpenStep) (disk : Disk) (j : CutoverJournal) :
    ActivePlan disk j (recoverActive env disk j) := by
  simp only [recoverActive, decide_eq_true_eq]
  split_ifs with hr hi ho he hi
  · exact .continued hr hi.1 hi.2.1
  · exact .rolledBack hr
  · exact .cleaned (by simpa using hr) ho.1 he
  · exact .back (by simpa using hr) ho.1 (by simpa using he)
  · exact .kept (by simpa using hr) hi.1 hi.2.1
  · exact .rejected

variable {db : Db} {phase : CutoverPhase}

section Visited

variable {env : Env OpenStep} {disk d u t : Disk} {j : CutoverJournal} {o : CrashRecoveryOutcome}

lemma mem_visited_keepLive :
    t ∈ visited (fun _ => false) (keepLive j phase) disk ↔
      t = disk ∨ t = { disk with prepared := none } ∨
        t = { disk with prepared := none, journal := some { j with phase := phase } } := by
  simp [keepLive, removePreparedFile, syncDirectory, persistRecoveryReceipt, mem_visited_change,
    mem_visited_inspect]

lemma mem_visited_continueInstall : t ∈ visited (fun _ => false) (continueInstall j) disk ↔
    t = disk ∨ t = { disk with prepared := none } ∨
      t = { disk with prepared := none, rollback := none } ∨
      t = { disk with
        prepared := none, rollback := none
        journal := some { j with phase := .recoveredContinued } } := by
  simp [continueInstall, removePreparedFile, removeRollbackFile, syncDirectory,
    persistRecoveryReceipt, mem_visited_change, mem_visited_inspect]

lemma mem_visited_validateFile {step : OpenStep} {file : Disk → Option Db} {valid : Db → Bool}
    {as : List OpenAction} :
    t ∈ visited (fun _ => false) (validateFile step file valid :: as) disk ↔
      t = disk ∨ (file disk).any valid = true ∧ t ∈ visited (fun _ => false) as disk := by
  by_cases h : (file disk).any valid = true <;> simp [mem_visited_cons, validateFile, h]

lemma mem_visited_rollBack (h : t ∈ visited (fun _ => false) (rollBack j) disk) :
    t = disk ∨ t = { disk with live := none } ∨
      t = { disk with live := disk.rollback, rollback := none } ∨
      t = ⟨disk.rollback, none, none, disk.journal⟩ ∨
      t = ⟨disk.rollback, none, none, some { j with phase := .recoveredRolledBack }⟩ := by
  simp only [rollBack, removeLiveFile, renameRollbackFile, removePreparedFile, syncDirectory,
    persistRecoveryReceipt, cons_append, nil_append, mem_visited_validateFile,
    mem_visited_change, mem_visited_inspect, mem_visited_nil] at h
  tauto

section Leads

/-- A recovery whose files are described wherever it is cut short, and when it ends. -/
structure Leads (I : Disk → Prop) (E : Disk → Option CrashRecoveryOutcome → Prop) (d : Disk)
    (plan : List OpenAction × Option CrashRecoveryOutcome) : Prop where
  visits : ∀ t ∈ visited (fun _ => false) plan.1 d, I t
  ends : ∀ u, exec (fun _ => false) plan.1 d = (.ok (), u) → E u plan.2

variable {I : Disk → Prop} {E : Disk → Option CrashRecoveryOutcome → Prop} {d : Disk}
  {j : CutoverJournal} {plan : List OpenAction} {outcome : Option CrashRecoveryOutcome}

lemma Leads.inspect (h : Leads I E d (plan, outcome)) (n : OpenStep) (e : StorageError) :
    Leads I E d (.inspect n e :: plan, outcome) where
  visits t ht := h.visits t ((mem_visited_inspect n e).mp ht)
  ends u hu := by
    obtain ⟨_, hv, hrest⟩ := exec_cons_eq_ok.mp hu
    cases hv
    exact h.ends u hrest

lemma leads_validate {step : OpenStep} {file : Disk → Option Db} {valid : Db → Bool}
    (hd : I d) (he : E d outcome) : Leads I E d ([validateFile step file valid], outcome) where
  visits t ht := by
    have htd : t = d := by
      obtain h | ⟨-, h⟩ := mem_visited_validateFile.mp ht
      · exact h
      · exact mem_visited_nil.mp h
    exact htd ▸ hd
  ends u hu := by
    obtain ⟨_, hv, hrest⟩ := exec_cons_eq_ok.mp hu
    simp only [validateFile, perform_io, Bool.false_eq_true, if_false] at hv
    split_ifs at hv
    cases hv
    cases hrest
    exact he

lemma leads_rejected (hd : I d) (e : StorageError) :
    Leads I E d ([.pure fun _ => .error e], outcome) where
  visits t ht := by
    have htd : t = d := by simpa [mem_visited_cons] using ht
    exact htd ▸ hd
  ends u hu := by simp [exec] at hu

lemma leads_keepLive (hd : I d) (hprep : I { d with prepared := none })
    (hr : I { d with prepared := none, journal := some { j with phase := phase } })
    (he : E { d with prepared := none, journal := some { j with phase := phase } } outcome) :
    Leads I E d (keepLive j phase, outcome) where
  visits t ht := by
    obtain rfl | rfl | rfl := mem_visited_keepLive.mp ht
    · exact hd
    · exact hprep
    · exact hr
  ends u hu := by
    rw [exec_keepLive] at hu
    cases hu
    exact he

lemma leads_continueInstall (hd : I d) (hprep : I { d with prepared := none })
    (hroll : I { d with prepared := none, rollback := none })
    (hr : I { d with
      prepared := none, rollback := none, journal := some { j with phase := .recoveredContinued } })
    (he : E { d with
      prepared := none, rollback := none
      journal := some { j with phase := .recoveredContinued } } outcome) :
    Leads I E d (continueInstall j, outcome) where
  visits t ht := by
    obtain rfl | rfl | rfl | rfl := mem_visited_continueInstall.mp ht
    · exact hd
    · exact hprep
    · exact hroll
    · exact hr
  ends u hu := by
    rw [exec_continueInstall] at hu
    cases hu
    exact he

lemma leads_rollBack (hd : I d) (hlive : I { d with live := none })
    (hmoved : I { d with live := d.rollback, rollback := none })
    (hprep : I ⟨d.rollback, none, none, d.journal⟩)
    (hr : I ⟨d.rollback, none, none, some { j with phase := .recoveredRolledBack }⟩)
    (he : E ⟨d.rollback, none, none, some { j with phase := .recoveredRolledBack }⟩ outcome) :
    Leads I E d (rollBack j, outcome) where
  visits t ht := by
    obtain rfl | rfl | rfl | rfl | rfl := mem_visited_rollBack ht
    · exact hd
    · exact hlive
    · exact hmoved
    · exact hprep
    · exact hr
  ends u hu := by
    cases hvalid : d.rollback.any (validateOriginalRecoveryDatabase j) with
    | true =>
      rw [exec_rollBack hvalid] at hu
      cases hu
      exact he
    | false => simp [exec_rollBack_of_invalid hvalid] at hu

end Leads

lemma mem_openCrashes (h : t ∈ openCrashes env disk) :
    t ∈ visited (fun _ => false) (recoverInterruptedCutover env disk).1 disk ∨
      ∃ u, exec (fun _ => false) (recoverInterruptedCutover env disk).1 disk = (.ok (), u) ∧
        t ∈ visited (fun _ => false)
          (openDatabaseConnection env ++ settle (recoverInterruptedCutover env disk).2) u := by
  have ht := visited_quiet h
  unfold openActions at ht
  simpa only [cons_append, nil_append, append_assoc, mem_visited_inspect,
    mem_visited_append] using ht

lemma openWallet_eq_ok (h : openWallet env disk = (.ok db, t)) :
    ∃ u, exec (fun _ => false) (recoverInterruptedCutover env disk).1 disk = (.ok (), u) ∧
      exec (fun _ => false)
        (openDatabaseConnection env ++ settle (recoverInterruptedCutover env disk).2) u =
          (.ok (), t) ∧
      t.live = some db := by
  unfold openWallet at h
  split at h
  · cases h
  · rename_i d hexec
    obtain ⟨hlive, rfl⟩ := Prod.mk.inj h
    have hq := exec_quiet_of_ok hexec
    unfold openActions at hq
    simp only [cons_append, nil_append, append_assoc, exec_cons_eq_ok,
      perform_inspect, Bool.false_eq_true, if_false, Except.ok.injEq, exists_eq_left'] at hq
    cases hrec : exec (fun _ => false) (recoverInterruptedCutover env disk).1 disk with
    | mk result u =>
      cases result with
      | error =>
        simp [exec_append_of_error hrec] at hq
      | ok =>
        rw [exec_append_of_ok hrec] at hq
        exact ⟨u, rfl, hq, orError_eq_ok.mp hlive⟩

variable (hlive : u.live = some db) {id : Uuid} (hid : o.recoveryId = some id)
include hlive hid

lemma mem_visited_settle
    (h : t ∈ visited (fun _ => false) (openDatabaseConnection env ++ settle (some o)) u) :
    t = u ∨
      t = { u with
        live := some (invalidateUnfinishedCeremoniesOnStartup db (env.clock .startup)) } ∨
      t = { u with live := some (openedDb (some o) (env.clock .startup) db) } ∨
      t = { u with
        live := some (openedDb (some o) (env.clock .startup) db), journal := none } := by
  obtain ⟨_, _, _, _⟩ := u
  subst hlive
  simp only [openDatabaseConnection, settle, completeInterruptedCutover, hid, cons_append,
    nil_append, mem_visited_cons, mem_visited_nil, perform_io, perform_change,
    perform_inspect, Bool.false_eq_true, if_false, onLive, Except.ok.injEq,
    exists_eq_left'] at h
  split_ifs at h <;> simp_all [openedDb]
  tauto

lemma exec_settle
    (h : exec (fun _ => false) (openDatabaseConnection env ++ settle (some o)) u = (.ok (), t)) :
    t = { u with live := some (openedDb (some o) (env.clock .startup) db), journal := none } := by
  obtain ⟨_, _, _, _⟩ := u
  subst hlive
  simp only [openDatabaseConnection, settle, completeInterruptedCutover, hid, cons_append,
    nil_append, exec_cons_eq_ok, exec_nil, perform_io, perform_change,
    perform_inspect, Bool.false_eq_true, if_false, onLive, Except.ok.injEq,
    exists_eq_left'] at h
  split_ifs at h <;> simp_all [openedDb]

end Visited

/-- The restored database, in the state in which it waits for the end of the recovery. -/
def Db.IsRestored (db : Db) (restored : Option Db) : Prop :=
  ∃ r ∈ restored, db.Holds r.contents .recovering

lemma Db.IsRestored.startup {restored : Option Db} (h : db.IsRestored restored) (now : Time) :
    (invalidateUnfinishedCeremoniesOnStartup db now).IsRestored restored := by
  obtain ⟨r, hr, hdb⟩ := h
  exact ⟨r, hr, hdb.startup now⟩

/-- The original in the precheck, without a record that this restore was rolled back. -/
structure Db.Frozen (db : Db) (original : Contents) (id : Uuid) : Prop where
  holds : db.Holds original .restorePrecheck
  fresh : ¬db.Recorded id

lemma Db.Frozen.startup {original : Contents} {id : Uuid} (h : db.Frozen original id) (now : Time) :
    (invalidateUnfinishedCeremoniesOnStartup db now).Frozen original id :=
  ⟨h.holds.startup now, fun hr => h.fresh (recorded_startup.mp hr)⟩

section Remains

variable (req : RestoreRequest) (epoch : ℕ) (original : Contents) (restored : Option Db)

/-- The restored database belongs to the journal of the restore. -/
structure Restores : Prop where
  pos : epoch ≠ 0
  restored : ∀ r ∈ restored, r.metadata.walletId = req.expectedWalletId ∧
    r.metadata.epoch = epoch

structure Matches : Prop extends Restores req epoch restored where
  wallet : original.authority.walletId = req.expectedWalletId
  next : original.authority.epoch + 1 = epoch

/-- The files that crashes during a restore, and during the openings after it, can leave. -/
inductive Remains : Disk → Prop where
  /-- no restore is under way -/
  | idle {db rollback prepared}
      (h : db.Holds original .normal ∨ db.Holds original .restorePrecheck ∨
        db.IsRestored restored) :
      Remains ⟨some db, rollback, prepared, none⟩
  /-- the original has not been moved, as far as the journal knows -/
  | kept {db prepared phase s} (h : db.Holds original s) (hs : s = .normal ∨ s = .restorePrecheck)
      (hphase : phase.isEarly = true ∨ phase = .recoveredCleaned) :
      Remains ⟨some db, none, prepared, some (req.journal epoch phase)⟩
  /-- the original has been moved, the new database may be in its place -/
  | moved {o live prepared phase}
      (ho : o.Frozen original req.recoveryId) (hlive : ∀ db ∈ live, db.IsRestored restored)
      (hphase : phase.isRecovered = false) :
      Remains ⟨live, some o, prepared, some (req.journal epoch phase)⟩
  /-- the original is back in its place, as the journal knows -/
  | back {db prepared phase} (h : db.Frozen original req.recoveryId)
      (hphase : phase = .originalMoved ∨ phase = .installed ∨ phase = .recoveredRolledBack) :
      Remains ⟨some db, none, prepared, some (req.journal epoch phase)⟩
  /-- the original has left the precheck again -/
  | rolledBack {db prepared} (h : db.Holds original .normal) :
      Remains ⟨some db, none, prepared, some (req.journal epoch .recoveredRolledBack)⟩
  /-- the new database is in place, the original is gone -/
  | installed {db prepared phase}
      (h : db.IsRestored restored) (hphase : phase = .installed ∨ phase = .recoveredContinued) :
      Remains ⟨some db, none, prepared, some (req.journal epoch phase)⟩

/-- The original is in the precheck, and neither a file nor the journal shows that it was moved. -/
def Disk.Stuck (d : Disk) : Prop :=
  (∃ db ∈ d.live, db.metadata.restoreState = .restorePrecheck) ∧
    (d.journal = none ∨ d.rollback = none ∧
      ∃ j ∈ d.journal, j.phase.isEarly = true ∨ j.phase = .recoveredCleaned)

/-- No restore is under way, or the new database is in place and the journal knows it. -/
def Disk.Finished (d : Disk) : Prop :=
  d.journal = none ∨ ∃ j ∈ d.journal, (j.phase = .installed ∨ j.phase = .recoveredContinued) ∧
    d.live.any (validateInstalledRecoveryDatabase j) = true

/-- The files and the outcome a recovery under a journal ends with. -/
inductive Ended (stuck : Prop) : Disk → Option CrashRecoveryOutcome → Prop where
  | cleaned {db prepared s} (h : db.Holds original s)
      (hs : s = .normal ∨ s = .restorePrecheck ∧ stuck) :
      Ended stuck ⟨some db, none, prepared, some (req.journal epoch .recoveredCleaned)⟩
        (some ⟨.cleanedOrphan, some req.recoveryId, req.now⟩)
  | rolledBack {db prepared} (h : db.Holds original .normal ∨ db.Frozen original req.recoveryId) :
      Ended stuck ⟨some db, none, prepared, some (req.journal epoch .recoveredRolledBack)⟩
        (some ⟨.rolledBack, some req.recoveryId, req.now⟩)
  | continued {db prepared} (h : db.IsRestored restored) :
      Ended stuck ⟨some db, none, prepared, some (req.journal epoch .recoveredContinued)⟩
        (some ⟨.continued, some req.recoveryId, req.now⟩)

end Remains

section Closure

variable {req : RestoreRequest} {epoch : ℕ} {original : Contents} {restored : Option Db}
  {env : Env OpenStep} {d t u : Disk} {stuck : Prop} {outcome : Option CrashRecoveryOutcome}
  {plan : List OpenAction} {prepared : Option PreparedFile} {s : RestoreState}
  {clock : OpenStep → Time}

lemma Db.IsRestored.openedDb_of_ne (h : db.IsRestored restored) {o : CrashRecoveryOutcome}
    (ho : o.kind ≠ .rolledBack) (now : Time) :
    (openedDb (some o) now db).IsRestored restored := by
  obtain ⟨r, hr, hdb⟩ := h
  exact ⟨r, hr, hdb.openedDb_of_ne ho⟩

lemma openedDb_rolledBack {id : Uuid} (h : db.Holds original .normal ∨ db.Frozen original id)
    (now occurredAt : Time) :
    (openedDb (some ⟨.rolledBack, some id, occurredAt⟩) now db).Holds original .normal := by
  obtain h | h := h
  · exact h.openedDb_rolledBack rfl rfl (.inl rfl)
  · exact h.holds.openedDb_rolledBack rfl rfl (.inr ⟨rfl, h.fresh⟩)

section

variable (h : Ended req epoch original restored stuck u outcome)
include h

lemma Ended.remains
    (ht : t ∈ visited (fun _ => false) (openDatabaseConnection env ++ settle outcome) u) :
    Remains req epoch original restored t := by
  cases h with
  | @cleaned _ _ s h hs =>
    have hs' : s = .normal ∨ s = .restorePrecheck := hs.imp_right And.left
    have hopen := h.openedDb_of_ne (o := ⟨.cleanedOrphan, some req.recoveryId, req.now⟩)
      (t := env.clock .startup) (by simp)
    obtain rfl | rfl | rfl | rfl := mem_visited_settle rfl rfl ht
    · exact .kept h hs' (.inr rfl)
    · exact .kept (h.startup _) hs' (.inr rfl)
    · exact .kept hopen hs' (.inr rfl)
    · obtain rfl | rfl := hs'
      · exact .idle (.inl hopen)
      · exact .idle (.inr (.inl hopen))
  | @rolledBack _ _ h =>
    have hopen := openedDb_rolledBack h (env.clock .startup) req.now
    obtain rfl | rfl | rfl | rfl := mem_visited_settle rfl rfl ht
    · exact h.elim .rolledBack fun h => .back h (.inr (.inr rfl))
    · exact h.elim (fun h => .rolledBack (h.startup _))
        fun h => .back (h.startup _) (.inr (.inr rfl))
    · exact .rolledBack hopen
    · exact .idle (.inl hopen)
  | @continued _ _ h =>
    have hopen := h.openedDb_of_ne (o := ⟨.continued, some req.recoveryId, req.now⟩) (by simp)
      (env.clock .startup)
    obtain rfl | rfl | rfl | rfl := mem_visited_settle rfl rfl ht
    · exact .installed h (.inr rfl)
    · exact .installed (h.startup _) (.inr rfl)
    · exact .installed hopen (.inr rfl)
    · exact .idle (.inr (.inr hopen))

lemma Ended.opened
    (hx : exec (fun _ => false) (openDatabaseConnection env ++ settle outcome) u = (.ok (), t))
    (hdb : t.live = some db) :
    db.Holds original .normal ∨ db.IsRestored restored ∨
      stuck ∧ db.Holds original .restorePrecheck := by
  cases h with
  | @cleaned _ _ _ h hs =>
    have hopen := h.openedDb_of_ne (o := ⟨.cleanedOrphan, some req.recoveryId, req.now⟩)
      (t := env.clock .startup) (by simp)
    rw [exec_settle rfl rfl hx] at hdb
    cases hdb
    obtain rfl | ⟨rfl, hstuck⟩ := hs
    · exact .inl hopen
    · exact .inr (.inr ⟨hstuck, hopen⟩)
  | @rolledBack _ _ h =>
    rw [exec_settle rfl rfl hx] at hdb
    cases hdb
    exact .inl (openedDb_rolledBack h _ _)
  | @continued _ _ h =>
    rw [exec_settle rfl rfl hx] at hdb
    cases hdb
    exact .inr (.inl (h.openedDb_of_ne (by simp) _))

end

/-- What a recovery leaves of the remains of a restore, wherever it is cut short. -/
abbrev Recovers (req : RestoreRequest) (epoch : ℕ) (original : Contents) (restored : Option Db)
    (d : Disk) : List OpenAction × Option CrashRecoveryOutcome → Prop :=
  Leads (Remains req epoch original restored) (Ended req epoch original restored d.Stuck) d

lemma Restores.valid (hr : Restores req epoch restored) (phase : CutoverPhase) :
    validateCutoverJournal (req.journal epoch phase) = true := by
  simp [validateCutoverJournal, RestoreRequest.journal, hr.pos]

lemma Matches.replaces (hm : Matches req epoch original restored) (phase : CutoverPhase) :
    (req.journal epoch phase).Replaces original := ⟨hm.wallet, hm.next⟩

lemma Restores.installs (hr : Restores req epoch restored) {r : Db} (h : r ∈ restored)
    (phase : CutoverPhase) : (req.journal epoch phase).Installs r.contents :=
  hr.restored r h

lemma Db.IsRestored.not_validateOriginal {j : CutoverJournal} (h : db.IsRestored restored) :
    ¬validateOriginalRecoveryDatabase j db = true := by
  obtain ⟨_, -, hdb⟩ := h
  rw [validateOriginal_iff hdb]
  simp

lemma recovers_of_journal (hm : Restores req epoch restored)
    (hd : d.journal = some (req.journal epoch phase))
    (h : Recovers req epoch original restored d
      (if phase.isRecovered then recoverReceipt (req.journal epoch phase)
        else recoverActive env d (req.journal epoch phase))) :
    Recovers req epoch original restored d (recoverInterruptedCutover env d) := by
  have hvalid := hm.valid phase
  simp only [recoverInterruptedCutover, hd]
  rw [if_pos hvalid]
  exact h.inspect _ _

section Cases

variable {o : Db} {live : Option Db}

section

variable (hm : Restores req epoch restored)
include hm

lemma recovers_kept (h : db.Holds original s) (hs : s = .normal ∨ s = .restorePrecheck)
    (hphase : phase.isEarly = true ∨ phase = .recoveredCleaned) :
    Recovers req epoch original restored (req.there epoch db prepared phase)
      (recoverInterruptedCutover env
        (req.there epoch db prepared phase)) := by
  have hd : ∀ prepared, Remains req epoch original restored
      (req.there epoch db prepared phase) := fun _ => .kept h hs hphase
  have hs' : s = .normal ∨ s = .restorePrecheck ∧ Disk.Stuck (req.there epoch db prepared phase) :=
    hs.imp_right fun hp => ⟨hp, ⟨db, rfl, h.state.trans hp⟩, .inr ⟨rfl, _, rfl, hphase⟩⟩
  apply recovers_of_journal hm rfl
  obtain hearly | rfl := hphase
  · rw [isRecovered_of_isEarly hearly]
    have hplan := activePlan_recoverActive env
      (req.there epoch db prepared phase) (req.journal epoch phase)
    generalize recoverActive _ _ _ = plan at hplan ⊢
    cases hplan with
    | cleaned =>
      exact leads_keepLive (hd _) (hd _) (.kept h hs (.inr rfl)) (.cleaned h hs')
    | back _ _ hlate => exact absurd (hearly.symm.trans hlate) (by decide)
    | kept _ hinst =>
      have hp : phase = .installed := hinst
      rw [hp] at hearly
      cases hearly
    | rejected => exact leads_rejected (hd prepared) _
    | continued moved | rolledBack moved => cases moved
  · exact leads_validate (hd prepared) (.cleaned h hs')

lemma recovers_back (h : db.Frozen original req.recoveryId)
    (hphase : phase = .originalMoved ∨ phase = .installed ∨ phase = .recoveredRolledBack) :
    Recovers req epoch original restored (req.there epoch db prepared phase)
      (recoverInterruptedCutover env
        (req.there epoch db prepared phase)) := by
  have hd : ∀ prepared, Remains req epoch original restored
      (req.there epoch db prepared phase) := fun _ => .back h hphase
  apply recovers_of_journal hm rfl
  by_cases hrec : phase.isRecovered = true
  · obtain rfl | rfl | rfl := hphase
    · cases hrec
    · cases hrec
    · exact leads_validate (hd prepared) (.rolledBack (.inr h))
  · rw [if_neg hrec]
    have hplan := activePlan_recoverActive env
      (req.there epoch db prepared phase) (req.journal epoch phase)
    generalize recoverActive _ _ _ = plan at hplan ⊢
    cases hplan with
    | cleaned _ _ hearly =>
      have hp : phase.isEarly = true := hearly
      obtain rfl | rfl | rfl := hphase <;> cases hp
    | back =>
      exact leads_keepLive (hd _) (hd _) (.back h (.inr (.inr rfl))) (.rolledBack (.inr h))
    | kept _ _ hlive =>
      have hvalid := (validateInstalled_iff h.holds).mp hlive
      cases hvalid.2
    | rejected => exact leads_rejected (hd prepared) _
    | continued moved | rolledBack moved => cases moved

lemma recovers_installed (h : db.IsRestored restored)
    (hphase : phase = .installed ∨ phase = .recoveredContinued) :
    Recovers req epoch original restored (req.there epoch db prepared phase)
      (recoverInterruptedCutover env
        (req.there epoch db prepared phase)) := by
  have hd : ∀ prepared, Remains req epoch original restored
      (req.there epoch db prepared phase) := fun _ => .installed h hphase
  apply recovers_of_journal hm rfl
  obtain rfl | rfl := hphase
  · have hplan := activePlan_recoverActive env
      (req.there epoch db prepared .installed) (req.journal epoch .installed)
    generalize recoverActive _ _ _ = plan at hplan ⊢
    cases hplan with
    | cleaned _ hlive | back _ hlive => exact absurd hlive h.not_validateOriginal
    | kept => exact leads_keepLive (hd _) (hd _) (.installed h (.inr rfl)) (.continued h)
    | rejected => exact leads_rejected (hd prepared) _
    | continued moved | rolledBack moved => cases moved
  · exact leads_validate (hd prepared) (.continued h)

end

lemma remains_back (h : db.Frozen original req.recoveryId) (hphase : phase.isRecovered = false) :
    Remains req epoch original restored
      (req.there epoch db prepared phase) := by
  by_cases hearly : phase.isEarly = true
  · exact .kept h.holds (.inr rfl) (.inl hearly)
  · refine .back h ?_
    cases phase <;> simp_all [isEarly, isRecovered]

lemma recovers_moved (hm : Matches req epoch original restored)
    (ho : o.Frozen original req.recoveryId)
    (hlive : ∀ db ∈ live, db.IsRestored restored) (hphase : phase.isRecovered = false) :
    Recovers req epoch original restored ⟨live, some o, prepared, some (req.journal epoch phase)⟩
      (recoverInterruptedCutover env
        ⟨live, some o, prepared, some (req.journal epoch phase)⟩) := by
  have hd : ∀ live prepared, (∀ db ∈ live, db.IsRestored restored) →
      Remains req epoch original restored
        ⟨live, some o, prepared, some (req.journal epoch phase)⟩ :=
    fun _ _ hlive => .moved ho hlive hphase
  apply recovers_of_journal hm.toRestores rfl
  rw [if_neg (by simp [hphase])]
  have hplan := activePlan_recoverActive env
    ⟨live, some o, prepared, some (req.journal epoch phase)⟩ (req.journal epoch phase)
  generalize recoverActive _ _ _ = plan at hplan ⊢
  cases hplan with
  | continued _ hinst hany =>
    have hp : phase = .installed := hinst
    subst hp
    cases live with
    | none => cases hany
    | some db =>
      have hdb := hlive db rfl
      exact leads_continueInstall (hd _ _ hlive) (hd _ _ hlive) (.installed hdb (.inl rfl))
        (.installed hdb (.inr rfl)) (.continued hdb)
  | rolledBack =>
    exact leads_rollBack (hd _ _ hlive) (hd _ _ (by simp)) (remains_back ho hphase)
      (remains_back ho hphase) (.back ho (.inr (.inr rfl))) (.rolledBack (.inr ho))
  | cleaned there | back there | kept there => cases there
  | rejected => exact leads_rejected (hd _ _ hlive) _

end Cases

lemma holds_of_idle (h : Remains req epoch original restored d) (hj : d.journal = none) :
    ∃ db c s, d.live = some db ∧ db.Holds c s ∧ (c = original ∧ s = .normal ∨
      c = original ∧ s = .restorePrecheck ∨ s = .recovering ∧ ∃ r ∈ restored, r.contents = c) := by
  cases h with
  | @idle db _ _ h =>
    obtain h | h | ⟨r, hr, h⟩ := h
    · exact ⟨db, _, _, rfl, h, .inl ⟨rfl, rfl⟩⟩
    · exact ⟨db, _, _, rfl, h, .inr (.inl ⟨rfl, rfl⟩)⟩
    · exact ⟨db, _, _, rfl, h, .inr (.inr ⟨rfl, r, hr, rfl⟩)⟩
  | _ => cases hj

lemma remains_of_idle {c : Contents} (h : d.Idle c s)
    (hc : c = original ∧ s = .normal ∨ c = original ∧ s = .restorePrecheck ∨
      s = .recovering ∧ ∃ r ∈ restored, r.contents = c) :
    Remains req epoch original restored d := by
  obtain ⟨_, _, _, _⟩ := d
  obtain ⟨rfl, _, rfl, hdb⟩ := h
  refine .idle ?_
  obtain ⟨rfl, rfl⟩ | ⟨rfl, rfl⟩ | ⟨rfl, r, hr, rfl⟩ := hc
  · exact .inl hdb
  · exact .inr (.inl hdb)
  · exact .inr (.inr ⟨r, hr, hdb⟩)

lemma Disk.eq_of_journal_none (hlive : d.live = some db) (hj : d.journal = none) :
    d = ⟨some db, d.rollback, d.prepared, none⟩ := by
  rw [← hlive, ← hj]

section Matches

variable (hm : Matches req epoch original restored) (h : Remains req epoch original restored d)
include hm h

/-- What a recovery under a journal makes of the remains of a restore. -/
theorem Remains.recovers (hj : d.journal ≠ none) (env : Env OpenStep) :
    Recovers req epoch original restored d (recoverInterruptedCutover env d) := by
  cases h with
  | idle => exact absurd rfl hj
  | kept h hs hphase => exact recovers_kept hm.toRestores h hs hphase
  | moved ho hlive hphase => exact recovers_moved hm ho hlive hphase
  | back h hphase => exact recovers_back hm.toRestores h hphase
  | rolledBack h =>
    exact recovers_of_journal hm.toRestores rfl
      (leads_validate (.rolledBack h) (.rolledBack (.inl h)))
  | installed h hphase => exact recovers_installed hm.toRestores h hphase

/-- Crashes during openings leave nothing new. -/
theorem Remains.openCrashes (ht : t ∈ openCrashes env d) :
    Remains req epoch original restored t := by
  by_cases hj : d.journal = none
  · obtain ⟨_, _, _, hlive, hdb, hc⟩ := holds_of_idle h hj
    rw [Disk.eq_of_journal_none hlive hj] at ht
    exact remains_of_idle (visited_openActions_idle hdb t ht) hc
  · have hrec := h.recovers hm hj env
    obtain ht | ⟨u, hu, ht⟩ := mem_openCrashes ht
    · exact hrec.visits t ht
    · exact (hrec.ends u hu).remains ht

/-- The database that an opening of the remains of a restore ends with, if it ends. -/
theorem Remains.opened (hopen : openWallet env d = (.ok db, t)) :
    db.Holds original .normal ∨ db.IsRestored restored ∨
      d.Stuck ∧ db.Holds original .restorePrecheck := by
  by_cases hj : d.journal = none
  · obtain ⟨db₀, c, s, hlive, hdb, hc⟩ := holds_of_idle h hj
    have hdisk := Disk.eq_of_journal_none hlive hj
    obtain ⟨_, hopen', hkeeps, -⟩ := openWallet_idle_of_clear hdisk (clear_of_openWallet_ok hopen)
    rw [hopen] at hopen'
    cases hopen'
    have hholds := hkeeps c s hdb
    obtain ⟨rfl, rfl⟩ | ⟨rfl, rfl⟩ | ⟨rfl, r, hr, rfl⟩ := hc
    · exact .inl hholds
    · exact .inr (.inr ⟨⟨⟨db₀, hlive, hdb.state⟩, .inl hj⟩, hholds⟩)
    · exact .inr (.inl ⟨r, hr, hholds⟩)
  · obtain ⟨u, hu, hx, hdb⟩ := openWallet_eq_ok hopen
    exact ((h.recovers hm hj env).ends u hu).opened hx hdb

end Matches

section Opens

lemma not_stuck_of_journal (hd : d.journal = some (req.journal epoch phase))
    (hlate : phase.isEarly = false) (hne : phase ≠ .recoveredCleaned) : ¬d.Stuck := by
  rintro ⟨_, hstuck⟩
  obtain hnone | ⟨-, _, hj, hphase⟩ := hstuck
  · simp [hnone] at hd
  · rw [hd] at hj
    cases hj
    obtain hearly | hcleaned := hphase
    · exact absurd (hlate.symm.trans hearly) (by decide)
    · exact hne hcleaned

lemma not_stuck_of_rollback {o : Db} (hd : d.rollback = some o) (hj : d.journal ≠ none) :
    ¬d.Stuck := by
  rintro ⟨_, hstuck⟩
  obtain hnone | ⟨hnone, _⟩ := hstuck
  · exact hj hnone
  · simp [hnone] at hd

lemma opens_installed (hm : Restores req epoch restored) (h : db.IsRestored restored)
    (hphase : phase = .installed ∨ phase = .recoveredContinued) :
    ∃ c s, Opens clock (req.there epoch db prepared phase) c s := by
  obtain ⟨_, hr, hdb⟩ := h
  have hvalid : validateInstalledRecoveryDatabase (req.journal epoch phase) db = true :=
    (validateInstalled_iff hdb).mpr ⟨hm.installs hr phase, rfl⟩
  obtain rfl | rfl := hphase
  · exact ⟨_, _, openWallet_installed (hm.valid _) rfl (hm.installs hr _) hdb⟩
  · exact ⟨_, _, _, openWallet_receipt (hm.valid _) rfl rfl hvalid, Db.holds_self _⟩

variable (hm : Matches req epoch original restored)
include hm

lemma openWallet_originalReceipt {kind : CrashRecoveryKind} (hphase : phase.isRecovered = true)
    (hplan : recoverReceipt (req.journal epoch phase) = ([validateFile .validateLive Disk.live
      (validateOriginalRecoveryDatabase (req.journal epoch phase))],
      some (journalOutcome (req.journal epoch phase) kind)))
    (h : db.Holds original s) (hs : s = .normal ∨ s = .restorePrecheck) :
    (openWallet (.quiet clock) (req.there epoch db prepared phase)).1 =
      .ok (openedDb (some (journalOutcome (req.journal epoch phase) kind))
        (clock .startup) db) := by
  have hvalid : validateOriginalRecoveryDatabase (req.journal epoch phase) db = true :=
    (validateOriginal_iff h).mpr ⟨hm.replaces phase, hs⟩
  exact openWallet_receipt (hm.valid phase) hphase hplan hvalid

lemma opens_kept (h : db.Holds original s) (hs : s = .normal ∨ s = .restorePrecheck)
    (hphase : phase.isEarly = true ∨ phase = .recoveredCleaned) :
    Opens clock (req.there epoch db prepared phase) original s := by
  obtain hearly | rfl := hphase
  · exact openWallet_early (hm.valid phase) hearly (hm.replaces phase) h hs
  · exact ⟨_, openWallet_originalReceipt hm rfl rfl h hs,
      h.openedDb_of_ne (by simp [journalOutcome])⟩

lemma opens_moved {o : Db} {live : Option Db}
    (ho : o.Frozen original req.recoveryId) (hlive : ∀ db ∈ live, db.IsRestored restored)
    (hphase : phase.isRecovered = false) :
    ∃ c s, Opens clock ⟨live, some o, prepared, some (req.journal epoch phase)⟩ c s := by
  have hj := hm.valid phase
  by_cases hinst : phase = .installed ∧ live ≠ none
  · obtain ⟨rfl, hne⟩ := hinst
    obtain ⟨db, rfl⟩ := Option.ne_none_iff_exists'.mp hne
    obtain ⟨_, hr, hdb⟩ := hlive db rfl
    exact ⟨_, _, openWallet_installed hj rfl (hm.installs hr _) hdb⟩
  · refine ⟨_, _, openWallet_rollBack hj hphase (hm.replaces phase) ho.holds ho.fresh fun hp => ?_⟩
    have hnone : live = none := by
      by_contra hne
      exact hinst ⟨hp, hne⟩
    rw [hnone]
    rfl

lemma opens_back (h : db.Frozen original req.recoveryId)
    (hphase : phase = .originalMoved ∨ phase = .installed ∨ phase = .recoveredRolledBack) :
    Opens clock (req.there epoch db prepared phase) original .normal := by
  have hj := hm.valid phase
  obtain rfl | rfl | rfl := hphase
  · exact openWallet_back hj rfl rfl (hm.replaces _) h.holds h.fresh
  · exact openWallet_back hj rfl rfl (hm.replaces _) h.holds h.fresh
  · exact ⟨_, openWallet_originalReceipt hm rfl rfl h.holds (.inr rfl),
      openedDb_rolledBack (.inr h) _ _⟩

/-- An undisturbed opening ends with a database, with the original if that is stuck in the
precheck. -/
theorem Remains.opens (h : Remains req epoch original restored d) (clock : OpenStep → Time) :
    ∃ db, (openWallet (.quiet clock) d).1 = .ok db ∧
      (d.Stuck → db.metadata.restoreState = .restorePrecheck) := by
  cases h with
  | @idle db rollback prepared =>
    obtain ⟨db', hopen, hdb'⟩ : Opens clock ⟨some db, rollback, prepared, none⟩ _ _ :=
      openWallet_idle db.holds_self
    refine ⟨db', hopen, fun ⟨⟨db₀, hlive, hstate⟩, _⟩ => ?_⟩
    cases hlive
    exact hdb'.state.trans hstate
  | kept h hs hphase =>
    obtain ⟨db', hopen, hdb'⟩ := opens_kept hm h hs hphase
    refine ⟨db', hopen, fun ⟨⟨db₀, hlive, hstate⟩, _⟩ => ?_⟩
    cases hlive
    rw [hdb'.state, ← h.state, hstate]
  | moved ho hlive hphase =>
    obtain ⟨_, _, db', hopen, -⟩ : ∃ c s, Opens clock _ c s := opens_moved hm ho hlive hphase
    exact ⟨db', hopen, fun hs => absurd hs (not_stuck_of_rollback rfl (by simp))⟩
  | back h hphase =>
    obtain ⟨db', hopen, -⟩ : Opens clock _ _ _ := opens_back hm h hphase
    refine ⟨db', hopen, fun hs => absurd hs ?_⟩
    obtain rfl | rfl | rfl := hphase <;> exact not_stuck_of_journal rfl rfl (by decide)
  | rolledBack h =>
    exact ⟨_, openWallet_originalReceipt hm rfl rfl h (.inl rfl),
      fun hs => absurd hs (not_stuck_of_journal rfl rfl (by decide))⟩
  | installed h hphase =>
    obtain ⟨_, _, db', hopen, -⟩ : ∃ c s, Opens clock _ c s :=
      opens_installed hm.toRestores h hphase
    refine ⟨db', hopen, fun hs => absurd hs ?_⟩
    obtain rfl | rfl := hphase <;> exact not_stuck_of_journal rfl rfl (by decide)

end Opens

section OtherEpoch

section

variable (hd : d.journal = some (req.journal epoch phase))
include hd

lemma not_finished_of_phase
    (hphase : phase ≠ .installed ∧ phase ≠ .recoveredContinued) : ¬d.Finished := by
  intro hfin
  obtain hnone | ⟨_, hj, hinst, -⟩ := hfin
  · simp [hnone] at hd
  · rw [hd] at hj
    cases hj
    exact hinst.elim hphase.1 hphase.2

lemma not_finished_of_live
    (hlive : d.live.any (validateInstalledRecoveryDatabase (req.journal epoch phase)) = false) :
    ¬d.Finished := by
  intro hfin
  obtain hnone | ⟨_, hj, -, hvalid⟩ := hfin
  · simp [hnone] at hd
  · rw [hd] at hj
    cases hj
    exact absurd (hlive.symm.trans hvalid) (by decide)

end

lemma validateOriginal_of_ne (hne : original.authority.epoch + 1 ≠ epoch)
    (h : db.Holds original s) :
    validateOriginalRecoveryDatabase (req.journal epoch phase) db = false := by
  rw [Bool.eq_false_iff, Ne, validateOriginal_iff h]
  exact fun hc => hne hc.1.2

variable (hm : Restores req epoch restored) (hne : original.authority.epoch + 1 ≠ epoch)
include hm hne

lemma openWallet_original_error (h : db.Holds original s) (hs : s ≠ .recovering)
    (hphase : phase ≠ .recoveredContinued) :
    Rejects clock (req.there epoch db prepared phase) := by
  have hvalid : validateOriginalRecoveryDatabase (req.journal epoch phase) db = false :=
    validateOriginal_of_ne hne h
  by_cases hrec : phase.isRecovered = true
  · have hcases : phase = .recoveredRolledBack ∨ phase = .recoveredCleaned := by
      cases phase <;> simp_all [isRecovered]
    obtain rfl | rfl := hcases
    · exact openWallet_receipt_error (hm.valid _) rfl rfl hvalid
    · exact openWallet_receipt_error (hm.valid _) rfl rfl hvalid
  · rw [Bool.not_eq_true] at hrec
    refine openWallet_mismatch (hm.valid phase) hrec (by simpa using hvalid) rfl ?_
    intro _
    rw [Option.any_some, Bool.eq_false_iff, Ne, validateInstalled_iff h]
    exact fun hc => hs hc.2

/-- The original that was moved aside does not come back, but a new database in its place stays. -/
lemma opens_moved_iff {o : Db} {live : Option Db} (ho : o.Holds original s)
    (hlive : ∀ db ∈ live, db.IsRestored restored) (hphase : phase.isRecovered = false) :
    (∃ db, (openWallet (.quiet clock)
      ⟨live, some o, prepared, some (req.journal epoch phase)⟩).1 = .ok db) ↔
      Disk.Finished ⟨live, some o, prepared, some (req.journal epoch phase)⟩ := by
  by_cases hinst : phase = .installed ∧ live ≠ none
  · obtain ⟨rfl, hsome⟩ := hinst
    obtain ⟨db, rfl⟩ := Option.ne_none_iff_exists'.mp hsome
    obtain ⟨_, hr, hdb⟩ := hlive db rfl
    obtain ⟨db', hopen, -⟩ := openWallet_installed (hm.valid _) rfl (hm.installs hr _) hdb
    refine iff_of_true ⟨db', hopen⟩ (.inr ⟨_, rfl, .inl rfl, ?_⟩)
    exact (validateInstalled_iff hdb).mpr ⟨hm.installs hr _, rfl⟩
  · have hnone : phase = .installed → live = none := by
      intro hp
      by_contra hsome
      exact hinst ⟨hp, hsome⟩
    have hlive' : live.any (validateOriginalRecoveryDatabase (req.journal epoch phase)) =
        false := by
      cases live with
      | none => rfl
      | some db => simpa using (hlive db rfl).not_validateOriginal
    have horig : (some o).any (validateOriginalRecoveryDatabase (req.journal epoch phase)) =
        false := validateOriginal_of_ne hne ho
    refine iff_of_false ?_ ?_
    · obtain ⟨_, he⟩ := openWallet_mismatch (hm.valid phase) hphase hlive' horig fun hp => by
        rw [hnone hp]
        rfl
      rintro ⟨_, hdb⟩
      cases he.symm.trans hdb
    · by_cases hp : phase = .installed
      · refine not_finished_of_live rfl ?_
        rw [hnone hp]
        rfl
      · refine not_finished_of_phase rfl ⟨hp, ?_⟩
        intro hc
        rw [hc] at hphase
        cases hphase

/-- What is left of a restore of another epoch's backup opens exactly if it has not begun or is as
good as over. -/
theorem Remains.opens_iff_finished (h : Remains req epoch original restored d)
    (clock : OpenStep → Time) : (∃ db, (openWallet (.quiet clock) d).1 = .ok db) ↔ d.Finished := by
  have hfalse : ∀ {d : Disk}, Rejects clock d → ¬d.Finished →
      ((∃ db, (openWallet (.quiet clock) d).1 = .ok db) ↔ d.Finished) := by
    rintro _ ⟨_, he⟩ hfin
    refine iff_of_false ?_ hfin
    rintro ⟨db, hdb⟩
    cases he.symm.trans hdb
  cases h with
  | @idle db rollback prepared =>
    obtain ⟨db', hopen, -⟩ : Opens clock ⟨some db, rollback, prepared, none⟩ _ _ :=
      openWallet_idle db.holds_self
    exact iff_of_true ⟨db', hopen⟩ (.inl rfl)
  | @kept _ _ phase _ h hs =>
    have hp : phase ≠ .installed ∧ phase ≠ .recoveredContinued := by
      cases phase <;> simp_all [isEarly]
    refine hfalse (openWallet_original_error hm hne h ?_ hp.2) (not_finished_of_phase rfl hp)
    obtain rfl | rfl := hs <;> decide
  | moved ho hlive hphase => exact opens_moved_iff hm hne ho.holds hlive hphase
  | @back _ _ phase h hphase =>
    have hp : phase ≠ .recoveredContinued := by
      obtain rfl | rfl | rfl := hphase <;> decide
    refine hfalse (openWallet_original_error hm hne h.holds (by decide) hp)
      (not_finished_of_live rfl ?_)
    rw [Option.any_some, Bool.eq_false_iff, Ne, validateInstalled_iff h.holds]
    simp
  | rolledBack h =>
    exact hfalse (openWallet_original_error hm hne h (by decide) (by decide))
      (not_finished_of_phase rfl (by decide))
  | @installed _ _ _ h hphase =>
    obtain ⟨r, hr, hdb⟩ := h
    obtain ⟨_, _, db', hopen, -⟩ : ∃ c s, Opens clock _ c s :=
      opens_installed hm ⟨r, hr, hdb⟩ hphase
    refine iff_of_true ⟨db', hopen⟩ (.inr ⟨_, rfl, hphase, ?_⟩)
    exact (validateInstalled_iff hdb).mpr ⟨hm.installs hr _, rfl⟩

end OtherEpoch

end Closure

end Catomicals.WalletStorage
