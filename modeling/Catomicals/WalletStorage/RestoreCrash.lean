import Catomicals.WalletStorage.Remains

/-!
# Crashes during a restore or an export

After a crash the next opening that runs to its end yields the original wallet in the normal state
or the restored one in the recovering state, unless it finds the original stuck in the precheck.
-/
namespace Catomicals.WalletStorage

open Base Domain List

section CleanUp

variable {faults : DropStep → Bool} {m t u : Machine}

lemma mem_visited_dropCutover (hact : m.cutoverActive = true)
    (h : t ∈ visited (fun _ => false) (dropCutover m) m) :
    t.disk = m.disk ∨ t.disk = { m.disk with live := none } ∨
      t.disk = { m.disk with live := m.disk.rollback, rollback := none } ∨
      t.disk = { m.disk with live := m.disk.rollback, rollback := none, journal := none } := by
  simp only [dropCutover, hact, if_true, cons_append, nil_append, mem_visited_inspect] at h
  split_ifs at h
  · simp only [cons_append, nil_append, mem_visited_inspect, mem_visited_change,
      mem_visited_nil] at h
    obtain rfl | rfl | rfl | rfl := h <;> simp
  · simp only [nil_append, mem_visited_inspect, mem_visited_change, mem_visited_nil] at h
    obtain rfl | rfl | rfl := h <;> simp

lemma mem_visited_dropCutover_of_inactive (hact : m.cutoverActive = false)
    (h : t ∈ visited faults (dropCutover m) m) : t = m := by
  simpa [dropCutover, hact] using h

lemma mem_visited_dropPrepared (h : t ∈ visited faults (dropPrepared m) u) :
    ∃ prepared, t.disk = { u.disk with prepared := prepared } := by
  have hq := visited_quiet h
  unfold dropPrepared at hq
  split_ifs at hq
  · simp only [mem_visited_change, mem_visited_nil] at hq
    obtain rfl | rfl := hq
    · exact ⟨t.disk.prepared, rfl⟩
    · exact ⟨none, rfl⟩
  · rw [mem_visited_nil.mp hq]
    exact ⟨u.disk.prepared, rfl⟩

lemma mem_visited_dropJournal (h : t ∈ visited faults (dropJournal m) u) :
    t.disk = u.disk ∨ m.journalCleanup = true ∧ t.disk = { u.disk with journal := none } := by
  have hq := visited_quiet h
  unfold dropJournal at hq
  split_ifs at hq with hcleanup
  · simp only [mem_visited_change, mem_visited_nil] at hq
    obtain rfl | rfl := hq
    · exact .inl rfl
    · exact .inr ⟨hcleanup, rfl⟩
  · rw [mem_visited_nil.mp hq]
    exact .inl rfl

/-- The cutover guard is on its way, and the other two have removed their files or not. -/
def InCleanUp (m : Machine) (d : Disk) : Prop :=
  ∃ u ∈ visited (fun _ => false) (dropCutover m) m, ∃ prepared journal,
    d = { u.disk with prepared := prepared, journal := journal } ∧
    (journal = u.disk.journal ∨ m.journalCleanup = true ∧ journal = none)

lemma inCleanUp_of_mem (h : t ∈ cleanUpCrashes faults (guards m) m) : InCleanUp m t.disk := by
  have hcut := exec_mem_visited faults (dropCutover m) m
  have hprep := exec_mem_visited faults (dropPrepared m) (exec faults (dropCutover m) m).2
  have hlast := exec_mem_visited faults (dropJournal m)
    (exec faults (dropPrepared m) (exec faults (dropCutover m) m).2).2
  -- what the last guard leaves, from wherever the second one has stopped
  have hjournal : ∀ v w, v ∈ visited faults (dropPrepared m) (exec faults (dropCutover m) m).2 →
      w ∈ visited faults (dropJournal m) v → InCleanUp m w.disk := by
    intro v w hv hw
    obtain ⟨prepared, hv⟩ := mem_visited_dropPrepared hv
    refine ⟨_, visited_quiet hcut, prepared, ?_⟩
    obtain hw | ⟨hcleanup, hw⟩ := mem_visited_dropJournal hw
    · exact ⟨_, by rw [hw, hv], .inl rfl⟩
    · exact ⟨none, by rw [hw, hv], .inr ⟨hcleanup, rfl⟩⟩
  simp only [guards, cleanUpCrashes, mem_append, mem_singleton] at h
  obtain h | h | h | rfl := h
  · exact ⟨t, visited_quiet h, t.disk.prepared, t.disk.journal, rfl, .inl rfl⟩
  · exact hjournal t t h (mem_visited_self _ _ _)
  · exact hjournal _ t hprep h
  · exact hjournal _ _ hprep hlast

end CleanUp

section Stages

variable {req : RestoreRequest} {env : Env Step} {image live db : Db} {restored : Option Db}
  {s : Stretch} {m u : Machine} {epoch : ℕ} {original : Contents}
  {prepared : Option PreparedFile}

lemma remains_dropCutover {o : Db} {file : Option Db} {p : Option PreparedFile}
    {phase : CutoverPhase}
    (hdisk : m.disk = ⟨file, some o, p, some (req.journal epoch phase)⟩)
    (hact : m.cutoverActive = true) (ho : o.Frozen original req.recoveryId)
    (hfile : ∀ db ∈ file, db.IsRestored restored) (hphase : phase.isRecovered = false)
    (hu : u ∈ visited (fun _ => false) (dropCutover m) m) :
    Remains req epoch original restored { u.disk with prepared := prepared } := by
  have hcut := mem_visited_dropCutover hact hu
  rw [hdisk] at hcut
  obtain h | h | h | h := hcut
  · rw [h]
    exact .moved ho hfile hphase
  · rw [h]
    exact .moved ho (by simp) hphase
  · rw [h]
    exact remains_back ho hphase
  · rw [h]
    exact .idle (.inr (.inl ho.holds))

/-- What a crash can leave of a restore in a stage, or in the clean-up after it. -/
lemma remains_of_stage (h : Accepted req image live)
    (himage : s.isStaged = true → image.stageable = true)
    (hrest : image.stageable = true → restored = some (stagedDb req env image))
    (hm : s.At req env (image.metadata.epoch + 1) image live m) {d : Disk} (hd : InCleanUp m d) :
    Remains req (image.metadata.epoch + 1) live.contents restored d := by
  obtain ⟨u, hu, _, journal, rfl, hj⟩ := hd
  have hlive : live.Holds live.contents .normal := ⟨rfl, h.normal⟩
  have hfrozen : (frozenDb req live).Frozen live.contents req.recoveryId :=
    ⟨frozenDb_holds req h.normal, fun hr => h.fresh ((recorded_frozenDb h.normal).mp hr)⟩
  have hstaged : s.isStaged = true → ∀ db : Db, db.Holds (stagedDb req env image).contents
      (stagedDb req env image).metadata.restoreState → db.IsRestored restored := by
    intro hs db hdb
    rw [(stagedDb_metadata req env (himage hs)).1] at hdb
    exact ⟨_, hrest (himage hs), hdb⟩
  -- a guard that is not active leaves the files alone, one that does not clean up the journal
  have hinact : m.cutoverActive = false → u = m :=
    fun hc => mem_visited_dropCutover_of_inactive hc hu
  have hkeeps : m.journalCleanup = false → journal = u.disk.journal := by
    intro hc
    obtain hj | ⟨hcleanup, -⟩ := hj
    · exact hj
    · exact absurd (hc.symm.trans hcleanup) (by decide)
  cases s with
  | untouched =>
    cases hm
    rw [hkeeps rfl, hinact rfl]
    exact .idle (.inl hlive)
  | loose =>
    cases hm
    rw [hkeeps rfl, hinact rfl]
    exact .kept hlive (.inl rfl) (.inl rfl)
  | staging =>
    obtain ⟨_, _, hphase, hdisk, hcleanup, hact⟩ := hm
    rw [hinact hact, hdisk] at hj ⊢
    obtain rfl | ⟨-, rfl⟩ := hj
    · exact .kept hlive (.inl rfl) (.inl hphase)
    · exact .idle (.inl hlive)
  | frozen =>
    obtain ⟨hdisk, hact⟩ := hm
    rw [hinact hact, hdisk] at hj ⊢
    obtain rfl | ⟨-, rfl⟩ := hj
    · exact .kept hfrozen.holds (.inr rfl) (.inl rfl)
    · exact .idle (.inr (.inl hfrozen.holds))
  | unguarded =>
    cases hm
    rw [hkeeps rfl, hinact rfl]
    exact .moved hfrozen (by simp [Stretch.entry]) rfl
  | moving | moved =>
    cases hm
    rw [hkeeps rfl]
    exact remains_dropCutover rfl rfl hfrozen (by simp) rfl hu
  | installing =>
    obtain ⟨hdisk, hcleanup, hact⟩ := hm
    rw [hkeeps hcleanup]
    refine remains_dropCutover hdisk hact hfrozen ?_ rfl hu
    intro db hdb
    cases hdb
    exact hstaged rfl _ (Db.holds_self _)
  | installed =>
    obtain ⟨db, hdb, rfl⟩ := hm
    rw [hkeeps rfl]
    refine remains_dropCutover rfl rfl hfrozen ?_ rfl hu
    intro _ hdb'
    cases hdb'
    exact hstaged rfl db hdb
  | committed =>
    cases hm
    rw [hkeeps rfl, hinact rfl]
    exact .installed (hstaged rfl _ ((Db.holds_self _).startup _)) (.inl rfl)
  | finished =>
    cases hm
    rw [hkeeps rfl, hinact rfl]
    exact .idle (.inr (.inr (hstaged rfl _ ((Db.holds_self _).startup _))))

lemma mem_runRestoreCrashes {disk d : Disk}
    (hd : d ∈ runRestoreCrashes env req image epoch live disk) :
    ∃ m ∈ visited (env.part Step.restoring).faults
        (restoreActions req epoch env image live.metadata.epoch) (.start disk), InCleanUp m d := by
  have hend := exec_mem_visited (env.part Step.restoring).faults
    (restoreActions req epoch env image live.metadata.epoch) (.start disk)
  simp only [runRestoreCrashes, mem_append, mem_map] at hd
  obtain ⟨m, hm, rfl⟩ | hd := hd
  · exact ⟨m, hm, m, mem_visited_self _ _ _, m.disk.prepared, m.disk.journal, rfl, .inl rfl⟩
  · split at hd
    · cases hd
    · rename_i e m hx
      rw [hx] at hend
      obtain ⟨_, ht, rfl⟩ := mem_map.mp hd
      exact ⟨m, hend, inCleanUp_of_mem ht⟩

theorem remains_of_runRestoreCrashes (h : Accepted req image live)
    (hrest : image.stageable = true → restored = some (stagedDb req env image)) {d : Disk}
    (hd : d ∈ runRestoreCrashes env req image (image.metadata.epoch + 1) live
      ⟨some live, none, none, none⟩) :
    Remains req (image.metadata.epoch + 1) live.contents restored d := by
  obtain ⟨m, hm, hclean⟩ := mem_runRestoreCrashes hd
  obtain ⟨_, himage, hs⟩ := visited_restoreActions req _ h.normal h.epoch m hm
  exact remains_of_stage h himage hrest hs hclean

end Stages

section Atomicity

variable (F : BundleFormat) (env : Env Step) (req : RestoreRequest)

/-- The database a restore installs over a live wallet, if it gets so far. -/
def replacement (live : Db) : Option Db :=
  match acceptBundle F req.backend req.bundle req.expectedWalletId with
  | .error _ => none
  | .ok (manifest, image) =>
    match checkAgainstLive manifest live.metadata req.expectedWalletId with
    | .error _ => none
    | .ok _ => (stageImage image (env.clock (.restoring .startupStaged)) req.now).toOption

/-- The files after a crash during a restore, and any number of crashes during openings. -/
inductive Crashed (disk : Disk) : Disk → Prop where
  | restore {d} (h : d ∈ restoreCrashes F env req disk) : Crashed disk d
  | opening {d d'} (h : Crashed disk d) (openEnv : Env OpenStep)
      (h' : d' ∈ openCrashes openEnv d) : Crashed disk d'

/-- The wallet opens, and every opening that runs to its end yields the original in the normal state
or the restored database in the recovering state. -/
def OpensWhole (live : Db) (restored : Option Db) (d : Disk) : Prop :=
  (∀ clock, ∃ db, (openWallet (.quiet clock) d).1 = .ok db) ∧
    ∀ openEnv db d', openWallet openEnv d = (.ok db, d') →
      db.Holds live.contents .normal ∧ db.metadata.epoch = live.metadata.epoch ∨
      db.IsRestored restored ∧ db.metadata.epoch = live.metadata.epoch + 1

variable {F env req} {disk d : Disk} {live image : Db} {manifest : BackupManifest}

lemma replacement_eq_some {r : Db} (h : replacement F env req live = some r) :
    ∃ manifest image, acceptBundle F req.backend req.bundle req.expectedWalletId =
        .ok (manifest, image) ∧ live.metadata.walletId = req.expectedWalletId ∧
      image.stageable = true ∧ r = stagedDb req env image := by
  unfold replacement at h
  split at h
  · cases h
  · rename_i manifest image hbundle
    split at h
    · cases h
    · rename_i epoch hcheck
      have hwal := (checkAgainstLive_eq_ok.mp hcheck).1
      cases hstage : stageImage image (env.clock (.restoring .startupStaged)) req.now with
      | error =>
        rw [hstage] at h
        cases h
      | ok db =>
        rw [hstage] at h
        refine ⟨manifest, image, hbundle, hwal, stageImage_isOk_iff.mp ⟨db, hstage⟩, ?_⟩
        rw [stagedDb, hstage, ← Option.some.inj h]
        rfl

lemma replacement_of_stageable {epoch : ℕ}
    (hbundle : acceptBundle F req.backend req.bundle req.expectedWalletId = .ok (manifest, image))
    (hcheck : checkAgainstLive manifest live.metadata req.expectedWalletId = .ok epoch)
    (himage : image.stageable = true) :
    replacement F env req live = some (stagedDb req env image) := by
  obtain ⟨_, hdb⟩ := stageImage_isOk_iff.mpr himage
  simp only [replacement, hbundle, hcheck, stagedDb]
  rw [hdb]
  rfl

lemma checkAgainstLive_congr {db : Db} {s : RestoreState} (h : db.Holds live.contents s) :
    checkAgainstLive manifest db.metadata req.expectedWalletId =
      checkAgainstLive manifest live.metadata req.expectedWalletId := by
  have hw : db.metadata.walletId = live.metadata.walletId := h.walletId
  have he : db.metadata.epoch = live.metadata.epoch := h.epoch
  unfold checkAgainstLive
  rw [hw, he]

/-- A crash strikes a restore with the wallet at rest, or after it has accepted an image. -/
lemma idle_or_accepted (hlive : disk.live = some live) (hjournal : disk.journal = none)
    (hd : d ∈ restoreCrashes F env req disk) :
    d.Idle live.contents live.metadata.restoreState ∨
      ∃ manifest image live', acceptBundle F req.backend req.bundle req.expectedWalletId =
          .ok (manifest, image) ∧
        checkAgainstLive manifest live.metadata req.expectedWalletId =
          .ok (image.metadata.epoch + 1) ∧
        live'.Holds live.contents live.metadata.restoreState ∧
        (∀ id, live'.Recorded id ↔ live.Recorded id) ∧
        d ∈ runRestoreCrashes env req image (image.metadata.epoch + 1) live'
          ⟨some live', none, none, none⟩ := by
  have hdisk : disk = ⟨some live, disk.rollback, disk.prepared, none⟩ := by
    rw [← hlive, ← hjournal]
  obtain rfl | ⟨manifest, image, hbundle, hd | ⟨live', _, _, hopen, hcheck, hd⟩⟩ :=
    mem_restoreCrashes hd
  · exact .inl ⟨hjournal, live, hlive, live.holds_self⟩
  · rw [hdisk] at hd
    exact .inl (visited_openActions_idle live.holds_self d hd)
  · obtain ⟨rfl, hholds, hrecd⟩ := opened_live hlive hjournal hopen
    obtain ⟨-, -, himage⟩ := acceptBundle_eq_ok hbundle
    obtain ⟨-, -, -, rfl⟩ := checkAgainstLive_eq_ok.mp hcheck
    rw [checkAgainstLive_congr hholds] at hcheck
    rw [← himage] at hd hcheck
    exact .inr ⟨manifest, image, live', hbundle, hcheck, hholds, hrecd, hd⟩

section SameEpoch

variable (hepoch : ∀ m ∈ req.bundle.manifest, m.recoveryEpoch = live.metadata.epoch)
include hepoch

lemma image_epoch (hbundle : acceptBundle F req.backend req.bundle req.expectedWalletId =
    .ok (manifest, image)) : image.metadata.epoch = live.metadata.epoch := by
  obtain ⟨-, -, himage⟩ := acceptBundle_eq_ok hbundle
  rw [himage]
  exact hepoch manifest (acceptBundle_manifest hbundle)

lemma matches_replacement (F : BundleFormat) (env : Env Step) :
    Matches { req with expectedWalletId := live.metadata.walletId } (live.metadata.epoch + 1)
      live.contents (replacement F env req live) where
  pos := by omega
  wallet := rfl
  next := rfl
  restored := by
    intro r hr
    obtain ⟨_, _, hbundle, hwal, himage, rfl⟩ := replacement_eq_some hr
    obtain ⟨-, hepoch', hwal'⟩ := stagedDb_metadata req env himage
    rw [hepoch', hwal', image_epoch hepoch hbundle, (acceptBundle_eq_ok hbundle).2.1]
    exact ⟨hwal.symm, rfl⟩

variable (hlive : disk.live = some live) (hjournal : disk.journal = none)
  (hnormal : live.metadata.restoreState = .normal) (hfresh : ¬live.Recorded req.recoveryId)
include hlive hjournal hnormal hfresh

lemma remains_of_restoreCrashes (hd : d ∈ restoreCrashes F env req disk) :
    Remains { req with expectedWalletId := live.metadata.walletId } (live.metadata.epoch + 1)
      live.contents (replacement F env req live) d := by
  obtain hidle | ⟨_, _, _, hbundle, hcheck, hholds, hrecd, hd⟩ :=
    idle_or_accepted hlive hjournal hd
  · rw [hnormal] at hidle
    exact remains_of_idle hidle (.inl ⟨rfl, rfl⟩)
  · rw [hnormal] at hholds
    have hwal := (checkAgainstLive_eq_ok.mp hcheck).1
    have hcheck' := (checkAgainstLive_congr hholds).trans hcheck
    obtain ⟨hacc, -⟩ := accepted_of_checks hbundle hholds
      (fun hr => hfresh ((hrecd _).mp hr)) hcheck'
    rw [hwal, ← image_epoch hepoch hbundle, ← hholds.contents]
    exact remains_of_runRestoreCrashes hacc
      (fun himage => replacement_of_stageable hbundle hcheck himage) hd

/-- Whatever crashes have struck a restore and the openings after it, the files are its remains. -/
theorem Crashed.remains (h : Crashed F env req disk d) :
    Remains { req with expectedWalletId := live.metadata.walletId } (live.metadata.epoch + 1)
      live.contents (replacement F env req live) d := by
  induction h with
  | restore h => exact remains_of_restoreCrashes hepoch hlive hjournal hnormal hfresh h
  | opening _ _ h' ih => exact ih.openCrashes (matches_replacement hepoch F env) h'

/-- A restore of a backup of the live epoch is atomic, whatever crashes strike it and the openings
after it, exactly as long as the original is not stuck in the precheck. -/
theorem restoreEncryptedBackup_crashAtomic_iff (hcrash : Crashed F env req disk d) :
    OpensWhole live (replacement F env req live) d ↔ ¬d.Stuck := by
  have hm := matches_replacement hepoch F env
  have hremains := hcrash.remains hepoch hlive hjournal hnormal hfresh
  constructor
  · rintro ⟨_, hwhole⟩ hstuck
    obtain ⟨db, hopen, hstate⟩ := hremains.opens hm fun _ => 0
    have hprec := hstate hstuck
    obtain ⟨h, -⟩ | ⟨⟨r, -, h⟩, -⟩ := hwhole (.quiet fun _ => 0) db _ (Prod.ext hopen rfl)
    · simp [h.state] at hprec
    · simp [h.state] at hprec
  · intro hfree
    refine ⟨fun clock => ?_, fun openEnv db d' hopen => ?_⟩
    · obtain ⟨db, hopen, -⟩ := hremains.opens hm clock
      exact ⟨db, hopen⟩
    · obtain h | h | ⟨hstuck, -⟩ := hremains.opened hm hopen
      · exact .inl ⟨h, h.epoch⟩
      · obtain ⟨r, hr, hdb⟩ := h
        exact .inr ⟨⟨r, hr, hdb⟩, hdb.epoch.trans (hm.restored r hr).2⟩
      · exact absurd hstuck hfree

end SameEpoch

section AnyEpoch

variable {epoch : ℕ} {live' : Db}

def Disk.Opens (d : Disk) : Prop := ∀ clock, ∃ db, (openWallet (.quiet clock) d).1 = .ok db

lemma opens_of_idle {c : Contents} {s : RestoreState} (h : d.Idle c s) : d.Opens := by
  obtain ⟨_, rollback, prepared, _⟩ := d
  obtain ⟨rfl, db, rfl, hdb⟩ := h
  intro clock
  obtain ⟨db', hopen, -⟩ : Opens clock ⟨some db, rollback, prepared, none⟩ c s :=
    openWallet_idle hdb
  exact ⟨db', hopen⟩

lemma restores_replacement
    (hbundle : acceptBundle F req.backend req.bundle req.expectedWalletId = .ok (manifest, image)) :
    Restores req (image.metadata.epoch + 1) (replacement F env req live) where
  pos := by omega
  restored := by
    intro r hr
    obtain ⟨_, _, hbundle', -, himage, rfl⟩ := replacement_eq_some hr
    cases hbundle.symm.trans hbundle'
    obtain ⟨-, hepoch, hwal⟩ := stagedDb_metadata req env himage
    exact ⟨hwal.trans (acceptBundle_eq_ok hbundle).2.1, hepoch⟩

/-- Over a wallet that is not in the normal state: the wallet as it was, and maybe a journal. -/
lemma mem_runRestoreCrashes_of_not_normal (hstate : live'.metadata.restoreState ≠ .normal)
    (hd : d ∈ runRestoreCrashes env req image epoch live' ⟨some live', none, none, none⟩) :
    ∃ prepared, d = ⟨some live', none, prepared, none⟩ ∨ ∃ phase : CutoverPhase,
      phase.isEarly = true ∧ d = req.there epoch live' prepared phase := by
  obtain ⟨m, hm, u, hu, prepared, _, rfl, hj⟩ := mem_runRestoreCrashes hd
  obtain ⟨s, hstaged, hs⟩ := visited_restoreActions_of_not_normal req epoch hstate m hm
  refine ⟨prepared, ?_⟩
  have hinact : m.cutoverActive = false → u = m :=
    fun hc => mem_visited_dropCutover_of_inactive hc hu
  cases s with
  | untouched =>
    cases hs
    rw [hinact rfl] at hj ⊢
    obtain rfl | ⟨-, rfl⟩ := hj <;> exact .inl rfl
  | loose =>
    cases hs
    rw [hinact rfl] at hj ⊢
    obtain rfl | ⟨-, rfl⟩ := hj
    · exact .inr ⟨.preparing, rfl, rfl⟩
    · exact .inl rfl
  | staging =>
    obtain ⟨_, phase, hphase, hdisk, -, hact⟩ := hs
    rw [hinact hact, hdisk] at hj ⊢
    obtain rfl | ⟨-, rfl⟩ := hj
    · exact .inr ⟨phase, hphase, rfl⟩
    · exact .inl rfl
  | _ => cases hstaged

/-- Such a wallet opens under a new journal exactly if it is in the precheck and the backup is of
its epoch. -/
lemma opens_early_iff {prepared : Option PreparedFile} {phase : CutoverPhase}
    (hepoch : epoch ≠ 0) (hwal : live'.metadata.walletId = req.expectedWalletId)
    (hstate : live'.metadata.restoreState ≠ .normal) (hphase : phase.isEarly = true) :
    (req.there epoch live' prepared phase).Opens ↔
      live'.metadata.epoch + 1 = epoch ∧ live'.metadata.restoreState = .restorePrecheck := by
  have hj : validateCutoverJournal (req.journal epoch phase) = true := by
    simp [validateCutoverJournal, RestoreRequest.journal, hepoch]
  by_cases hvalid : validateOriginalRecoveryDatabase (req.journal epoch phase) live' = true
  · obtain ⟨hrepl, hs⟩ := (validateOriginal_iff live'.holds_self).mp hvalid
    refine iff_of_true (fun clock => ?_) ⟨hrepl.2, hs.resolve_left hstate⟩
    obtain ⟨db, hopen, -⟩ := openWallet_early hj hphase hrepl live'.holds_self hs
    exact ⟨db, hopen⟩
  · refine iff_of_false ?_ ?_
    · obtain ⟨_, he⟩ : Rejects (fun _ => 0) (req.there epoch live' prepared phase) := by
        refine openWallet_mismatch hj (CutoverPhase.isRecovered_of_isEarly hphase)
          (by simpa using hvalid) rfl fun hp => ?_
        have hp' : phase = .installed := hp
        rw [hp'] at hphase
        cases hphase
      intro hopens
      obtain ⟨_, hdb⟩ := hopens fun _ => 0
      cases he.symm.trans hdb
    · rintro ⟨he, hs⟩
      exact hvalid ((validateOriginal_iff live'.holds_self).mpr ⟨⟨hwal, he⟩, .inr hs⟩)

variable (hlive : disk.live = some live) (hjournal : disk.journal = none)
  (hfresh : ¬live.Recorded req.recoveryId)
include hlive hjournal hfresh

/-- After a crash during a restore the wallet opens exactly if the backup is of its epoch and it was
in the normal state or the precheck, or if the crash came before the journal was written or after it
was told of the new database. -/
theorem restoreCrashes_opens_iff (hd : d ∈ restoreCrashes F env req disk) :
    d.Opens ↔ (∀ m ∈ req.bundle.manifest, m.recoveryEpoch = live.metadata.epoch) ∧
        (live.metadata.restoreState = .normal ∨ live.metadata.restoreState = .restorePrecheck) ∨
      d.Finished := by
  obtain hidle | ⟨_, image, live', hbundle, hcheck, hholds, hrecd, hd⟩ :=
    idle_or_accepted hlive hjournal hd
  · exact iff_of_true (opens_of_idle hidle) (.inr (.inl hidle.1))
  · have hmani : (∀ m ∈ req.bundle.manifest, m.recoveryEpoch = live.metadata.epoch) ↔
        live.contents.authority.epoch + 1 = image.metadata.epoch + 1 := by
      obtain ⟨-, -, himage⟩ := acceptBundle_eq_ok hbundle
      rw [acceptBundle_manifest hbundle, himage]
      simp [Db.contents, Db.authority, eq_comm]
    have hwal := (checkAgainstLive_eq_ok.mp hcheck).1
    have hr : Restores req (image.metadata.epoch + 1) (replacement F env req live) :=
      restores_replacement hbundle
    rw [hmani]
    by_cases hnormal : live.metadata.restoreState = .normal
    · rw [hnormal] at hholds
      obtain ⟨hacc, -⟩ := accepted_of_checks hbundle hholds
        (fun hr => hfresh ((hrecd _).mp hr)) ((checkAgainstLive_congr hholds).trans hcheck)
      have hremains := remains_of_runRestoreCrashes hacc
        (fun himage => replacement_of_stageable hbundle hcheck himage) hd
      rw [hholds.contents] at hremains
      by_cases hepoch : live.contents.authority.epoch + 1 = image.metadata.epoch + 1
      · refine iff_of_true (fun clock => ?_) (.inl ⟨hepoch, .inl hnormal⟩)
        obtain ⟨db, hopen, -⟩ := hremains.opens ⟨hr, hwal, hepoch⟩ clock
        exact ⟨db, hopen⟩
      · have hiff := hremains.opens_iff_finished hr hepoch
        constructor
        · exact fun h => .inr ((hiff fun _ => 0).mp (h _))
        · intro h clock
          exact (hiff clock).mpr (h.resolve_left fun hc => hepoch hc.1)
    · have hstate : live'.metadata.restoreState ≠ .normal := fun hc =>
        hnormal (hholds.state.symm.trans hc)
      obtain ⟨prepared, rfl | ⟨phase, hphase, rfl⟩⟩ := mem_runRestoreCrashes_of_not_normal hstate hd
      · exact iff_of_true (opens_of_idle ⟨rfl, live', rfl, hholds⟩) (.inr (.inl rfl))
      · rw [opens_early_iff (by omega) (hholds.walletId.trans hwal) hstate hphase, hholds.state,
          hholds.epoch]
        have hnot : ¬(req.there (image.metadata.epoch + 1) live' prepared phase).Finished := by
          refine not_finished_of_phase rfl ?_
          cases phase <;> simp_all [CutoverPhase.isEarly]
        simp [hnormal, hnot]

end AnyEpoch

end Atomicity

def newRestoreCrashes : List Disk :=
  restoreCrashes (sampleFormat newImage) (.failing fun _ => false) (sampleRequest 1) newDisk

def precheckDisk : Disk :=
  ⟨some (frozenDb (sampleRequest 1) newWallet), none,
    some (.written (stagedDb (sampleRequest 1) (.failing fun _ => false) newImage)),
    some ((sampleRequest 1).journal 2 .ready)⟩

/-- A crash right after the live wallet has been put into the precheck leaves it there. -/
theorem restoreEncryptedBackup_not_crashAtomic :
    newDisk.live = some newWallet ∧ newWallet.metadata.restoreState = .normal ∧
      (∀ m ∈ (sampleRequest 1).bundle.manifest, m.recoveryEpoch = newWallet.metadata.epoch) ∧
      precheckDisk ∈ newRestoreCrashes ∧
      ¬OpensWhole newWallet (replacement (sampleFormat newImage) (.failing fun _ => false)
        (sampleRequest 1) newWallet) precheckDisk := by
  have hmem : precheckDisk ∈ newRestoreCrashes := by decide +kernel
  have hopen : (openWallet (.quiet fun _ => 0) precheckDisk).1.toOption.map
      (fun db => db.metadata.restoreState) = some .restorePrecheck := by
    decide +kernel
  refine ⟨rfl, rfl, by simp [sampleRequest, sampleBundle, newWallet, initializeWallet], hmem, ?_⟩
  rintro ⟨hopens, hwhole⟩
  obtain ⟨db, hdb⟩ := hopens fun _ => 0
  rw [hdb] at hopen
  have hprec : db.metadata.restoreState = .restorePrecheck := by
    simpa [Except.toOption] using hopen
  obtain ⟨h, -⟩ | ⟨⟨_, -, h⟩, -⟩ := hwhole (.quiet fun _ => 0) db _ (Prod.ext hdb rfl)
  · simp [h.state] at hprec
  · simp [h.state] at hprec

def movedDisk : Disk :=
  ⟨none, some (frozenDb (sampleRequest 1) newWallet),
    some (.written (stagedDb (sampleRequest 1) (.failing fun _ => false) newImage)),
    some ((sampleRequest 1).journal 2 .ready)⟩

/-- After a crash that has struck right after the original was moved, the wallet opens whole. -/
theorem restoreEncryptedBackup_crashAtomic_moved :
    movedDisk ∈ newRestoreCrashes ∧
      OpensWhole newWallet (replacement (sampleFormat newImage) (.failing fun _ => false)
        (sampleRequest 1) newWallet) movedDisk := by
  have hmem : movedDisk ∈ newRestoreCrashes := by decide +kernel
  refine ⟨hmem, (restoreEncryptedBackup_crashAtomic_iff ?_ rfl rfl rfl ?_ (.restore hmem)).mpr ?_⟩
  · simp [sampleRequest, sampleBundle, newWallet, initializeWallet]
  · simp [Db.Recorded, newWallet, initializeWallet]
  · exact not_stuck_of_rollback rfl (by simp [movedDisk])

def laterImage : Db :=
  attempt beginSnapshot (attempt finishRecovery (attempt beginRecovering (attempt cutoverRestore
    (attempt beginRestorePrecheck newWallet 1) 2) 3) 4) 5

def journalDisk : Disk :=
  ⟨some newWallet, none, none, some ((sampleRequest 2).journal 3 .preparing)⟩

/-- A crash right after the journal of the restore of a later backup was written: the wallet opens
no more. -/
theorem restoreCrashes_bricks :
    checkAgainstLive ((sampleBundle 2).manifest.get rfl) newWallet.metadata 1 = .ok 3 ∧
      acceptBundle (sampleFormat laterImage) (some sampleBackend) (sampleBundle 2) 1 =
        .ok ((sampleBundle 2).manifest.get rfl, laterImage) ∧
      journalDisk ∈ restoreCrashes (sampleFormat laterImage) (.failing fun _ => false)
        (sampleRequest 2) newDisk ∧
      ¬journalDisk.Opens := by
  have hbundle : acceptBundle (sampleFormat laterImage) (some sampleBackend) (sampleBundle 2) 1 =
      .ok ((sampleBundle 2).manifest.get rfl, laterImage) := by
    decide +kernel
  have hmem : journalDisk ∈ restoreCrashes (sampleFormat laterImage) (.failing fun _ => false)
      (sampleRequest 2) newDisk := by
    decide +kernel
  have hopen : (openWallet (.quiet fun _ => 0) journalDisk).1.toOption = none := by
    decide +kernel
  refine ⟨rfl, hbundle, hmem, fun hopens => ?_⟩
  obtain ⟨_, hdb⟩ := hopens fun _ => 0
  rw [hdb] at hopen
  cases hopen

/-- After a crash during the restore of a backup of its own epoch a new wallet opens. -/
theorem restoreCrashes_opens_moved : movedDisk ∈ newRestoreCrashes ∧ movedDisk.Opens := by
  have hmem : movedDisk ∈ newRestoreCrashes := by decide +kernel
  refine ⟨hmem, (restoreCrashes_opens_iff rfl rfl ?_ hmem).mpr (.inl ⟨?_, .inl rfl⟩)⟩
  · simp [Db.Recorded, newWallet, initializeWallet]
  · simp [sampleRequest, sampleBundle, newWallet, initializeWallet]

/-- The databases that a crash during an export can leave. Its other steps write to the bundle. -/
def exportCrashes (db : Db) (now : Time) : List Db :=
  match beginSnapshot db now with
  | .error _ => [db]
  | .ok image => db :: image :: (finishSnapshot image now).toOption.toList

/-- The wallet opens and takes calls, and an export and a restore of it can begin. -/
def Disk.Resumes (d : Disk) : Prop :=
  ∀ clock now, ∃ db, (openWallet (.quiet clock) d).1 = .ok db ∧
    ensureMutationsAllowed db.metadata = .ok () ∧
    (∃ db', beginSnapshot db now = .ok db') ∧ ∃ db', beginRestorePrecheck db now = .ok db'

section Export

variable {db crash : Db} {now : Time} {rollback : Option Db} {prepared : Option PreparedFile}

lemma beginSnapshot_isOk_iff : (∃ db', beginSnapshot db now = .ok db') ↔
    db.metadata.restoreState = .normal := by
  simp only [beginSnapshot, transitionRestore_eq_ok, exists_and_left, exists_eq', and_true]

lemma beginRestorePrecheck_isOk_iff : (∃ db', beginRestorePrecheck db now = .ok db') ↔
    db.metadata.restoreState = .normal := by
  simp only [beginRestorePrecheck, requireRestoreState, ok_iff, exists_and_left, exists_eq',
    and_true]

lemma resumes_iff : (⟨some db, rollback, prepared, none⟩ : Disk).Resumes ↔
    db.metadata.restoreState = .normal := by
  constructor
  · intro h
    obtain ⟨_, hopen, -, hbegin, -⟩ := h (fun _ => 0) 0
    obtain ⟨_, hopen', hdb⟩ : Opens _ ⟨some db, rollback, prepared, none⟩ _ _ :=
      openWallet_idle db.holds_self
    rw [hopen] at hopen'
    cases hopen'
    exact hdb.state.symm.trans (beginSnapshot_isOk_iff.mp hbegin)
  · intro hnormal clock now
    obtain ⟨db', hopen, hdb⟩ : Opens clock ⟨some db, rollback, prepared, none⟩ _ _ :=
      openWallet_idle db.holds_self
    have hstate := hdb.state.trans hnormal
    exact ⟨db', hopen, by simp [ensureMutationsAllowed, hstate], beginSnapshot_isOk_iff.mpr hstate,
      beginRestorePrecheck_isOk_iff.mpr hstate⟩

/-- After a crash during an export the wallet can be used as before, unless the crash came between
the two commits that begin and finish the snapshot. -/
theorem exportCrashes_resumes_iff (hnormal : db.metadata.restoreState = .normal)
    (hcrash : crash ∈ exportCrashes db now) :
    (⟨some crash, rollback, prepared, none⟩ : Disk).Resumes ↔ beginSnapshot db now ≠ .ok crash := by
  obtain ⟨image, (hbegin : beginSnapshot db now = _), himage, -⟩ :=
    transitionRestore_isOk hnormal .snapshotting now
  obtain ⟨live, (hfinish : finishSnapshot image now = _), hlive, -⟩ :=
    transitionRestore_isOk himage .normal now
  have hne : ∀ db' : Db, db'.metadata.restoreState = .normal → image ≠ db' := by
    rintro _ h rfl
    simp [himage] at h
  simp only [exportCrashes, hbegin, hfinish, Except.toOption, Option.toList, mem_cons,
    not_mem_nil, or_false] at hcrash
  rw [resumes_iff, hbegin]
  obtain rfl | rfl | rfl := hcrash
  · simpa [hnormal] using hne _ hnormal
  · simp [himage]
  · simpa [hlive] using hne _ hlive

end Export

/-- A crash right after the snapshot was finished does no harm. -/
theorem exportCrashes_resumes_finished :
    attempt finishSnapshot newImage 1 ∈ exportCrashes newWallet 1 ∧
      (⟨some (attempt finishSnapshot newImage 1), none, none, none⟩ : Disk).Resumes := by
  have hmem : attempt finishSnapshot newImage 1 ∈ exportCrashes newWallet 1 := by decide +kernel
  exact ⟨hmem, (exportCrashes_resumes_iff rfl hmem).mpr (by decide +kernel)⟩

/-- After a crash right after the snapshot has begun, neither an export nor a restore can begin. -/
theorem exportCrashes_stuck :
    newWallet.metadata.restoreState = .normal ∧ newImage ∈ exportCrashes newWallet 1 ∧
      ∀ clock now, ∃ db, (openWallet (.quiet clock) ⟨some newImage, none, none, none⟩).1 = .ok db ∧
        (¬∃ db', beginSnapshot db now = .ok db') ∧
        ¬∃ db', beginRestorePrecheck db now = .ok db' := by
  refine ⟨rfl, by decide +kernel, fun clock _ => ?_⟩
  obtain ⟨db, hopen, hdb⟩ : Opens clock ⟨some newImage, none, none, none⟩ _ _ :=
    openWallet_idle newImage.holds_self
  refine ⟨db, hopen, ?_⟩
  rw [beginSnapshot_isOk_iff, beginRestorePrecheck_isOk_iff, hdb.state]
  decide

end Catomicals.WalletStorage
