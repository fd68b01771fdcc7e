import Catomicals.WalletStorage.Effects

/-!
# Work from earlier epochs after a restore

A cutover invalidates intents, authorizations and nonce claims, but no signing jobs and operations.
It stops all the work of the earlier epochs exactly if none was under way.
-/
namespace Catomicals.WalletStorage

open Base Domain Rows IntentRow Authority OperationRow Option

variable {P : Platform} {db db' : Db} {s s' : Authority} {m : Option Creation} {id : Uuid}
  {now : Time}

/-- Two rows of one intent, which differ at most in the status and its time. -/
def IntentRow.SameTerms (i i' : IntentRow) : Prop :=
  ∃ status updatedAt, i' = { i with status := status, updatedAt := updatedAt }

lemma IntentRow.SameTerms.refl (i : IntentRow) : i.SameTerms i := ⟨i.status, i.updatedAt, rfl⟩

lemma IntentRow.SameTerms.epoch_eq {i i' : IntentRow} (h : i.SameTerms i') :
    i'.epoch = i.epoch := by
  obtain ⟨_, _, rfl⟩ := h
  rfl

lemma IntentRow.sameTerms_moved (i : IntentRow) (next : IntentStatus) (now : Time) :
    i.SameTerms (i.moved next now) := ⟨next, now, rfl⟩

namespace Effect

section

variable (h : Effect s m s')
include h

lemma walletId_eq : s'.walletId = s.walletId := by cases h <;> rfl

lemma epoch_le : s.epoch ≤ s'.epoch := by
  cases h
  case cutover => exact Nat.le_succ _
  all_goals exact le_rfl

theorem intents :
    Evolves IntentRow.SameTerms (fun i => i.epoch = s.epoch) s.intents s'.intents := by
  cases h
  case intentCreated own inserted => exact inserted.evolves .refl own.2
  case intentMoved own changed | approved changed | jobEnded changed =>
    exact changed.evolves .refl (sameTerms_moved _ _ _)
  case frostNonceClaimed spent => exact spent.moved.evolves .refl (sameTerms_moved _ _ _)
  case jobCreated spent _ _ _ _ _ _ | operationCreated spent _ _ _ _ _ _ =>
    exact spent.moved.evolves .refl (sameTerms_moved _ _ _)
  case cutover now =>
    exact update_evolves (f := fun i : IntentRow => i.moved .invalidated now) (fun _ => rfl)
      IntentRow.SameTerms.refl fun i => i.sameTerms_moved .invalidated now
  all_goals exact evolves_refl .refl

/-- An operation keeps its terms, and a new one is for an intent of the current epoch. -/
theorem operations :
    Evolves
      (fun o o' => o'.toNewPersonalSigningOperation = o.toNewPersonalSigningOperation ∧
        (o'.status = o.status ∨ o.status.Moves o'.status))
      (fun o => o.walletId = s.walletId ∧
        validateNewPersonalOperation o.toNewPersonalSigningOperation = .ok () ∧
        ∃ i, s.intents.get o.intentId = some i ∧ i.epoch = s.epoch)
      s.operations s'.operations := by
  cases h
  case operationCreated spent fingerprint own forIntent session valid inserted =>
    refine inserted.evolves (fun _ => ⟨rfl, .inl rfl⟩) ⟨own, valid, _, ?_, spent.intentOwn.2⟩
    exact (congrArg s.intents.get forIntent).trans spent.moved.1
  case operationMoved moves same changed =>
    exact changed.evolves (fun _ => ⟨rfl, .inl rfl⟩) ⟨same, .inr moves⟩
  all_goals exact evolves_refl fun _ => ⟨rfl, .inl rfl⟩

end

/-- What a job can change into: it leaves `signing` only with its intent, of the current epoch. -/
def JobChange (s : Authority) (j j' : SigningJobRow) : Prop :=
  j'.toNewSigningJob = j.toNewSigningJob ∧
    j'.operationBindingDigest = j.operationBindingDigest ∧
    (j' = j ∨ j.status = .signing ∧ j'.status ≠ .signing ∧
      ∃ i, s.intents.get j.intentId = some i ∧ i.epoch = s.epoch)

/-- A new job is for an intent of the current epoch and has a session of its own. -/
def JobNew (s : Authority) (j : SigningJobRow) : Prop :=
  j.walletId = s.walletId ∧ j.operationBindingDigest.isSome ∧
    (∀ id j₁, s.jobs.get id = some j₁ → j₁.sessionId ≠ j.sessionId) ∧
    ∃ i, s.intents.get j.intentId = some i ∧ i.epoch = s.epoch

variable (h : Effect s m s')
include h

theorem jobs_cases :
    (∃ j, JobNew s j ∧ Inserted s.jobs j s'.jobs) ∨
      Evolves (JobChange s) (fun _ => False) s.jobs s'.jobs := by
  cases h
  case jobCreated spent digest own forIntent session only inserted =>
    refine .inl ⟨_, ⟨own, rfl, only, _, ?_, spent.intentOwn.2⟩, inserted⟩
    exact (congrArg s.intents.get forIntent).trans spent.moved.1
  case jobEnded signing ended same digest forIntent own jobChanged intentChanged =>
    refine .inr (jobChanged.evolves (fun _ => ⟨rfl, rfl, .inl rfl⟩)
      ⟨same, digest, .inr ⟨signing, ended, _, ?_, own.2⟩⟩)
    exact (congrArg s.intents.get forIntent.symm).trans intentChanged.1
  all_goals exact .inr (evolves_refl fun _ => ⟨rfl, rfl, .inl rfl⟩)

theorem jobs : Evolves (JobChange s) (JobNew s) s.jobs s'.jobs := by
  rcases h.jobs_cases with ⟨_, hnew, hins⟩ | hevolves
  · exact hins.evolves (fun _ => ⟨rfl, rfl, .inl rfl⟩) hnew
  · exact hevolves.mono (fun _ _ hchng => hchng) fun _ => False.elim

theorem receipts :
    s'.receipts = s.receipts ∨ ∃ r o, s.operations.get r.operationId = some o ∧
      o.status = r.round.expectedStatus ∧ Inserted s.receipts r s'.receipts := by
  cases h
  case receiptRecorded operation status inserted => exact .inr ⟨_, _, operation, status, inserted⟩
  all_goals exact .inl rfl

end Effect

inductive Work where
  | operation (id : Uuid)
  | job (id : Uuid)

/-- The epoch in which work was authorized: that of the intent whose authorization it spent. -/
def Authority.authorizedIn (s : Authority) : Work → Option ℕ
  | .operation id =>
    (s.operations.get id).bind fun o => (s.intents.get o.intentId).map IntentRow.epoch
  | .job id => (s.jobs.get id).bind fun j => (s.intents.get j.intentId).map IntentRow.epoch

/-- A receipt was recorded for the work, it was frozen or finalized, or an executor claimed it. -/
def Advanced (s s' : Authority) : Work → Prop
  | .operation id =>
    (∃ r, r.operationId = id ∧ s.receipts.get r.key = none ∧ s'.receipts.get r.key = some r) ∨
    ∃ o o', s.operations.get id = some o ∧ s'.operations.get id = some o' ∧
      o'.status ≠ o.status ∧ (o'.status = .collectingShares ∨ o'.status = .finalized)
  | .job id =>
    (s.executorClaims.get id = none ∧ (s'.executorClaims.get id).isSome) ∨
    ∃ j j', s.jobs.get id = some j ∧ s'.jobs.get id = some j' ∧ j'.status ≠ j.status ∧
      j'.status = .finalized

/-- Whatever calls follow, no work authorized up to the epoch `e` advances. -/
def Fenced (P : Platform) (e : ℕ) (db : Db) : Prop :=
  ∀ db₁ db₂ w e₁, Reaches (step P) db db₁ → Steps (step P) db₁ db₂ →
    db₁.authority.authorizedIn w = some e₁ → e₁ ≤ e → ¬Advanced db₁.authority db₂.authority w

def SigningJobRow.claimable (j : SigningJobRow) : Bool :=
  j.status = .signing ∧ j.walletId ≠ 0 ∧ j.profileId ≠ 0 ∧ j.sessionId ≠ .zeros ∧
    j.signingMessageDigest ≠ .zeros ∧ j.operationBindingDigest ≠ some .zeros

/-- No operation is collecting, and every job an executor could claim has been claimed. -/
def Authority.Quiet (s : Authority) : Prop :=
  (∀ o ∈ s.operations.rows, o.status.isCollecting = false) ∧
    ∀ j ∈ s.jobs.rows, j.claimable = true → (s.executorClaims.get j.jobId).isSome

instance (s : Authority) : Decidable s.Quiet := by
  unfold Authority.Quiet
  infer_instance

section Advanced

theorem Effect.executorClaims (h : Effect s m s') :
    s'.executorClaims = s.executorClaims ∨ ∃ j e, s.jobs.get j.jobId = some j ∧
      j.claimable = true ∧ e.jobId = j.jobId ∧ e.sessionId = j.sessionId ∧
      Inserted s.executorClaims e s'.executorClaims := by
  cases h
  case executorClaimed j _ c job matching only nonzero inserted =>
    simp only [ChainExecutorClaim.matches, Bool.decide_and, Bool.and_eq_true,
      decide_eq_true_eq] at matching
    obtain ⟨hwal, hprof, -, -, hsess, hmsg, hdig, hstatus, -⟩ := matching
    obtain ⟨hw, hp, hs, hm, hd⟩ := nonzero
    refine .inr ⟨j, _, job, decide_eq_true ⟨hstatus, ?_⟩, rfl, hsess.symm, inserted⟩
    rw [hwal, hprof, hsess, hmsg, hdig]
    exact ⟨hw, hp, hs, hm, fun h => hd (some.inj h)⟩
  all_goals exact .inl rfl

lemma collecting_of_moves {a b : OperationStatus} (h : a.Moves b) : a.isCollecting = true := by
  cases h with
  | freeze => rfl
  | finalize => rfl
  | terminate hs => simpa [OperationStatus.isCollecting] using hs

lemma collecting_of_advanced (h : Effect s m s') (hadv : Advanced s s' (.operation id)) :
    ∃ o, s.operations.get id = some o ∧ o.status.isCollecting = true := by
  rcases hadv with ⟨r, rfl, hnone, hsome⟩ | ⟨o, _, ho, ho', hne, -⟩
  · rcases h.receipts with heq | ⟨_, o, ho, hstatus, hins⟩
    · simp [heq, hnone] at hsome
    · rw [hins.2, hnone] at hsome
      split_ifs at hsome
      cases hsome
      refine ⟨o, ho, ?_⟩
      rw [hstatus]
      cases r.round <;> rfl
  · obtain ⟨_, hget, -, hstatus⟩ := h.operations.keeps id o ho
    cases hget.symm.trans ho'
    exact ⟨o, ho, collecting_of_moves (hstatus.resolve_left hne)⟩

lemma claimable_of_advanced (h : Effect s m s') (hadv : Advanced s s' (.job id)) :
    ∃ j, s.jobs.get id = some j ∧ (j.claimable = true ∧ s.executorClaims.get id = none ∨
      ∃ i, s.intents.get j.intentId = some i ∧ i.epoch = s.epoch) := by
  rcases hadv with ⟨hnone, hsome⟩ | ⟨j, _, hj, hj', hne, -⟩
  · rcases h.executorClaims with heq | ⟨j, _, hj, hclaim, hid, -, hins⟩
    · simp [heq, hnone] at hsome
    · have hkey : id = j.jobId := by
        by_contra hne
        simp [hins.2, hid, hne, hnone] at hsome
      exact ⟨j, hkey ▸ hj, .inl ⟨hclaim, hnone⟩⟩
  · obtain ⟨_, hget, -, -, hchng⟩ := h.jobs.keeps id j hj
    cases hget.symm.trans hj'
    rcases hchng with rfl | ⟨-, -, hint⟩
    · exact absurd rfl hne
    · exact ⟨j, hj, .inr hint⟩

end Advanced

structure Stopped (e : ℕ) (s : Authority) : Prop where
  epoch : e < s.epoch
  operations : ∀ id o i, s.operations.get id = some o → s.intents.get o.intentId = some i →
    i.epoch ≤ e → o.status.isCollecting = false
  jobs : ∀ id j i, s.jobs.get id = some j → s.intents.get j.intentId = some i → i.epoch ≤ e →
    j.claimable = true → (s.executorClaims.get id).isSome

section Stopped

variable {e : ℕ}

lemma Effect.intent_of_le (h : Effect s m s') (hepoch : e < s.epoch) {i' : IntentRow}
    (hi' : s'.intents.get id = some i') (hle : i'.epoch ≤ e) :
    ∃ i, s.intents.get id = some i ∧ i.epoch ≤ e := by
  rcases h.intents.origin id i' hi' with ⟨i, hi, hterms⟩ | ⟨-, _⟩
  · exact ⟨i, hi, hterms.epoch_eq ▸ hle⟩
  · omega

theorem Stopped.step (hs : Stopped e s) (h : Effect s m s') : Stopped e s' where
  epoch := lt_of_lt_of_le hs.epoch h.epoch_le
  operations := by
    intro id o' i' ho' hi' hle
    obtain ⟨i, hi, hle⟩ := h.intent_of_le hs.epoch hi' hle
    rcases h.operations.origin id o' ho' with ⟨o, ho, hsame, hstatus⟩ | ⟨-, -, -, i₁, hi₁, hnew⟩
    · rw [hsame] at hi
      have hover := hs.operations id o i ho hi hle
      rcases hstatus with heq | hmoves
      · rwa [heq]
      · simp [collecting_of_moves hmoves] at hover
    · cases hi₁.symm.trans hi
      have := hs.epoch
      omega
  jobs := by
    intro id j' _ hj' hi' hle hclaim
    obtain ⟨i, hi, hle⟩ := h.intent_of_le hs.epoch hi' hle
    rcases h.jobs.origin id j' hj' with ⟨_, hj, -, -, heq | ⟨-, hended, -⟩⟩ |
      ⟨-, -, -, -, i₁, hi₁, hnew⟩
    · subst heq
      have hclm := hs.jobs id j' i hj hi hle hclaim
      rcases h.executorClaims with heq | ⟨_, _, -, -, -, -, hins⟩
      · rwa [heq]
      · rw [hins.2]
        split_ifs
        · rfl
        · exact hclm
    · simp [SigningJobRow.claimable, hended] at hclaim
    · cases hi₁.symm.trans hi
      have := hs.epoch
      omega

lemma Stopped.not_advanced (hs : Stopped e s) (h : Effect s m s') {w : Work} {e₁ : ℕ}
    (hw : s.authorizedIn w = some e₁) (hle : e₁ ≤ e) : ¬Advanced s s' w := by
  intro hadv
  cases w with
  | operation id =>
    obtain ⟨o, ho, hcoll⟩ := collecting_of_advanced h hadv
    simp only [authorizedIn, ho, bind_some, map_eq_some_iff] at hw
    obtain ⟨i, hi, rfl⟩ := hw
    simp [hs.operations id o i ho hi hle] at hcoll
  | job id =>
    obtain ⟨j, hj, hcase⟩ := claimable_of_advanced h hadv
    simp only [authorizedIn, hj, bind_some, map_eq_some_iff] at hw
    obtain ⟨i, hi, rfl⟩ := hw
    rcases hcase with ⟨hclaim, hnone⟩ | ⟨_, hi₁, _⟩
    · simpa [hnone] using hs.jobs id j i hj hi hle hclaim
    · cases hi₁.symm.trans hi
      have := hs.epoch
      omega

lemma Stopped.fenced (hs : Stopped e db.authority) : Fenced P e db := by
  rintro db₁ _ _ _ hreach ⟨_, hstep⟩ hw hle
  have hs₁ : Stopped e db₁.authority :=
    hreach.invariant (I := fun db => Stopped e db.authority) hs
      fun _ _ _ hs h => hs.step (step_does h).effect
  exact hs₁.not_advanced (step_does hstep).effect hw hle

lemma jobId_of_get {t : Rows fun j : SigningJobRow => j.jobId} {j : SigningJobRow}
    (h : t.get id = some j) : j.jobId = id := (get_eq_some_iff.mp h).2

variable (h : cutoverRestore db now = .ok db')
include h

lemma cutoverRestore_keeps :
    db'.metadata.restoreState = .cutover ∧ db'.metadata.epoch = db.metadata.epoch + 1 ∧
      db'.operations = db.operations ∧ db'.jobs = db.jobs ∧ db'.receipts = db.receipts ∧
      db'.executorClaims = db.executorClaims := by
  simp only [cutoverRestore, ok_iff] at h
  obtain ⟨-, -, -, rfl⟩ := h
  exact ⟨rfl, rfl, rfl, rfl, rfl, rfl⟩

lemma stopped_of_quiet (hquiet : db.authority.Quiet) : Stopped db.metadata.epoch db'.authority := by
  obtain ⟨-, _, hops, hjobs, -, hclaims⟩ := cutoverRestore_keeps h
  constructor
  · show db.metadata.epoch < db'.metadata.epoch
    omega
  · intro id o i ho _ _
    have ho : db.operations.get id = some o := hops ▸ ho
    exact hquiet.1 o (mem_of_get ho)
  · intro id j i hj _ _ hclaim
    have hj : db.jobs.get id = some j := hjobs ▸ hj
    have hid := jobId_of_get hj
    have hclm := hquiet.2 j (mem_of_get hj) hclaim
    show (db'.executorClaims.get id).isSome
    rwa [hclaims, ← hid]

end Stopped

structure WellFormed (s : Authority) : Prop where
  intents : ∀ id i, s.intents.get id = some i → i.epoch ≤ s.epoch
  operations : ∀ id o, s.operations.get id = some o → o.walletId = s.walletId ∧
    validateNewPersonalOperation o.toNewPersonalSigningOperation = .ok () ∧
    ∃ i, s.intents.get o.intentId = some i
  jobs : ∀ id j, s.jobs.get id = some j → j.walletId = s.walletId ∧
    (j.status = .signing → j.operationBindingDigest.isSome) ∧
    ∃ i, s.intents.get j.intentId = some i
  sessions : Unique (fun j => j.sessionId) s.jobs
  claims : ∀ id e, s.executorClaims.get id = some e →
    ∃ j, s.jobs.get id = some j ∧ j.sessionId = e.sessionId

section WellFormed

lemma Effect.intents_keep (h : Effect s m s') (hi : ∃ i, s.intents.get id = some i) :
    ∃ i, s'.intents.get id = some i := by
  obtain ⟨i, hi⟩ := hi
  obtain ⟨i', hi', -⟩ := h.intents.keeps id i hi
  exact ⟨i', hi'⟩

lemma Effect.sessions_step (h : Effect s m s') (hs : Unique (fun j => j.sessionId) s.jobs) :
    Unique (fun j => j.sessionId) s'.jobs := by
  refine hs.step ?_
  rcases h.jobs_cases with ⟨n, ⟨-, -, honly, -⟩, hins⟩ | hevolves
  · exact .inl ⟨n, hins, honly⟩
  · refine .inr (hevolves.mono (fun j j' hchng => ?_) fun _ => id)
    rw [hchng.1]

theorem WellFormed.step (hs : WellFormed s) (h : Effect s m s') : WellFormed s' where
  intents := by
    intro id i' hi'
    have hle := h.epoch_le
    rcases h.intents.origin id i' hi' with ⟨i, hi, hterms⟩ | ⟨-, _⟩
    · have := hs.intents id i hi
      rw [hterms.epoch_eq]
      omega
    · omega
  operations := by
    intro id o' ho'
    rw [h.walletId_eq]
    rcases h.operations.origin id o' ho' with ⟨o, ho, hsame, -⟩ | ⟨-, hown, hvalid, i, hi, -⟩
    · obtain ⟨hown, hvalid, hi⟩ := hs.operations id o ho
      rw [hsame]
      exact ⟨hown, hvalid, h.intents_keep hi⟩
    · exact ⟨hown, hvalid, h.intents_keep ⟨i, hi⟩⟩
  jobs := by
    intro id j' hj'
    rw [h.walletId_eq]
    rcases h.jobs.origin id j' hj' with ⟨j, hj, hsame, -, hchng⟩ | ⟨-, hown, hdig, -, i, hi, -⟩
    · obtain ⟨hown, hdig, hi⟩ := hs.jobs id j hj
      refine ⟨hsame ▸ hown, ?_, hsame ▸ h.intents_keep hi⟩
      rcases hchng with rfl | ⟨-, hended, -⟩
      · exact hdig
      · exact fun hsing => absurd hsing hended
    · exact ⟨hown, fun _ => hdig, h.intents_keep ⟨i, hi⟩⟩
  sessions := h.sessions_step hs.sessions
  claims := by
    intro id e he
    have hkept : ∀ j, s.jobs.get id = some j → j.sessionId = e.sessionId →
        ∃ j', s'.jobs.get id = some j' ∧ j'.sessionId = e.sessionId := by
      intro j hj hsess
      obtain ⟨j', hj', hsame, -⟩ := h.jobs.keeps id j hj
      exact ⟨j', hj', hsame ▸ hsess⟩
    rcases h.executorClaims with heq | ⟨j, _, hj, -, hid, hsess, hins⟩
    · obtain ⟨j, hj, hsess⟩ := hs.claims id e (heq ▸ he)
      exact hkept j hj hsess
    · rw [hins.2] at he
      split_ifs at he with hkey
      · cases he
        rw [hid] at hkey
        exact hkept j (hkey ▸ hj) hsess.symm
      · obtain ⟨j, hj, hsess⟩ := hs.claims id e he
        exact hkept j hj hsess

/-- A database that calls make from a new wallet is well formed. -/
theorem wellFormed_of_reaches {walletId : Uuid}
    (h : Reaches (step P) (initializeWallet walletId now) db) : WellFormed db.authority := by
  refine h.invariant (I := fun db => WellFormed db.authority) ?_
    fun _ _ _ hs h => hs.step (step_does h).effect
  constructor
  all_goals
    intros
    simp_all [Db.authority, initializeWallet]

lemma exists_normal (h : db.metadata.restoreState = .cutover) :
    ∃ db₁, Reaches (step P) db db₁ ∧ db₁.metadata.restoreState = .normal ∧
      db₁.authority = db.authority := by
  let db₁ := (db.setRestoreState .recovering 0).log ("restore." ++ "recovering") none 0
  let db₂ := (db₁.setRestoreState .normal 0).log ("restore." ++ "normal") none 0
  have h₁ : step P db (.beginRecovering 0) = .ok db₁ := by
    simp only [step, beginRecovering, transitionRestore, requireRestoreState, require, h, if_true]
    rfl
  have h₂ : step P db₁ (.finishRecovery 0) = .ok db₂ := rfl
  exact ⟨db₂, .tail (.single ⟨_, h₁⟩) ⟨_, h₂⟩, rfl, rfl⟩

lemma ensureMutationsAllowed_normal {metadata : WalletMetadata}
    (h : metadata.restoreState = .normal) : ensureMutationsAllowed metadata = .ok () := by
  simp [ensureMutationsAllowed, h]

/-- A receipt that an operation accepts until it expires. -/
def OperationRow.receipt (o : OperationRow) (signerId : UInt16) (round : SigningRound) :
    ReceiptRow where
  operationId := o.operationId
  signerId := signerId
  round := round
  deviceId := 0
  deviceGeneration := 1
  requestBindingDigest := .zeros
  payload := [0]
  receivedAt := o.expiresAt

variable {o : OperationRow}

section Collecting

variable {round : SigningRound} (hnormal : db.metadata.restoreState = .normal)
  (ho : db.operations.get id = some o) (hown : o.walletId = db.metadata.walletId)
  (hstatus : o.status = round.expectedStatus)
include hnormal ho hown hstatus

lemma receipt_advances {signerId : UInt16}
    (hsgn : signerId = o.selectedParticipants.1 ∨ signerId = o.selectedParticipants.2)
    (hrange : signerId ≠ 0 ∧ signerId ≤ 3) (hnone : db.receipts.get (id, signerId, round) = none) :
    ∃ db', Steps (step P) db db' ∧ Advanced db.authority db'.authority (.operation id) := by
  have hid : o.operationId = id := (get_eq_some_iff.mp ho).2
  have hfree : db.receipts.get (o.receipt signerId round).key = none := by
    rw [← hnone, ← hid]
    rfl
  obtain ⟨receipts, hinsert⟩ := exists_insert? hfree
  have hins := inserted_of_insert? hinsert
  have hget : db.operations.get (o.receipt signerId round).operationId = some o := by
    rw [← ho, ← hid]
    rfl
  have hok : recordPersonalSigningReceipt db (o.receipt signerId round) =
      .ok ({ db with receipts := receipts }.log round.receivedEvent (some (.uuid o.operationId))
        o.expiresAt) := by
    simp only [recordPersonalSigningReceipt, ok_iff, hfree]
    exact ⟨⟨hrange.1, hrange.2, by simp [receipt], by simp [receipt],
      by simp [receipt]⟩, ensureMutationsAllowed_normal hnormal, o, hget, hown,
      ⟨hstatus, hsgn, le_rfl⟩, by simp [receipt, maxInteger], receipts, hinsert, rfl⟩
  refine ⟨_, ⟨.recordPersonalSigningReceipt (o.receipt signerId round), hok⟩, .inl ?_⟩
  exact ⟨o.receipt signerId round, hid, hfree, (hins.2 _).trans (if_pos rfl)⟩

lemma move_advances {r₁ r₂ : ReceiptRow} (hne : o.selectedParticipants.1 ≠ o.selectedParticipants.2)
    (h₁ : db.receipts.get (id, o.selectedParticipants.1, round) = some r₁)
    (h₂ : db.receipts.get (id, o.selectedParticipants.2, round) = some r₂) :
    ∃ db', Steps (step P) db db' ∧ Advanced db.authority db'.authority (.operation id) := by
  have hcount : 2 ≤ db.receiptCount id round := by
    have hk₁ := key_of_get h₁
    have hk₂ := key_of_get h₂
    simp only [ReceiptRow.key, Prod.mk.injEq] at hk₁ hk₂
    refine two_le_count (mem_of_get h₁) (mem_of_get h₂) (fun heq => hne ?_) ?_ ?_
    · rw [← hk₁.2.1, ← hk₂.2.1, heq]
    · simp [hk₁]
    · simp [hk₂]
  have hmove : ∀ (change : OperationRow → OperationRow)
      (hchng : ∀ o, (change o).operationId = o.operationId),
      ∃ operations, db.moveOperation id o.operationBindingDigest
        (fun o' => o'.status = round.expectedStatus ∧ o.expiresAt ≤ o'.expiresAt) change hchng =
          .ok { db with operations := operations } ∧ operations.get id = some (change o) := by
    intro _ hchng
    obtain ⟨operations, hupdate⟩ := exists_updateAt
      (p := fun o' => o'.walletId = db.metadata.walletId ∧
        o'.operationBindingDigest = o.operationBindingDigest ∧
        decide (o'.status = round.expectedStatus ∧ o.expiresAt ≤ o'.expiresAt))
      hchng ho (by simp [hown, hstatus])
    obtain ⟨o', ho', -, hchg⟩ := changed_of_updateAt hupdate
    cases ho.symm.trans ho'
    refine ⟨operations, ?_, ?_⟩
    · simp only [Db.moveOperation, ok_iff]
      exact ⟨operations, hupdate, rfl⟩
    · rw [hchg.2.2, if_pos (get_eq_some_iff.mp ho).2.symm]
  cases round with
  | commitment =>
    obtain ⟨operations, hok, hget⟩ := hmove
      (fun o' => { o' with status := .collectingShares, signingPackage := some [0],
                           updatedAt := o.expiresAt }) fun _ => rfl
    have hfreeze : freezePersonalSigningOperation db id o.operationBindingDigest [0] o.expiresAt =
        .ok ({ db with operations := operations }.log "personal_signing.commitments_frozen"
          (some (.uuid id)) o.expiresAt) := by
      simp only [freezePersonalSigningOperation, ok_iff]
      exact ⟨by simp, ensureMutationsAllowed_normal hnormal, hcount, _, hok, rfl⟩
    refine ⟨_, ⟨.freezePersonalSigningOperation id _ _ _, hfreeze⟩, .inr ⟨o, _, ho, hget, ?_⟩⟩
    simp [hstatus, SigningRound.expectedStatus]
  | signatureShare =>
    obtain ⟨operations, hok, hget⟩ := hmove
      (fun o' => { o' with status := .finalized, finalSignature := some [0],
                           updatedAt := o.expiresAt }) fun _ => rfl
    have hcompl : completePersonalSigningOperation db id o.operationBindingDigest [0]
        o.expiresAt = .ok ({ db with operations := operations }.log "personal_signing.finalized"
          (some (.uuid id)) o.expiresAt) := by
      simp only [completePersonalSigningOperation, ok_iff]
      exact ⟨ensureMutationsAllowed_normal hnormal, hcount, _, hok, rfl⟩
    refine ⟨_, ⟨.completePersonalSigningOperation id _ _ _, hcompl⟩, .inr ⟨o, _, ho, hget, ?_⟩⟩
    simp [hstatus, SigningRound.expectedStatus]

end Collecting

/-- A collecting operation can advance whenever the wallet allows mutations. -/
theorem operation_advances (hs : WellFormed db.authority)
    (hnormal : db.metadata.restoreState = .normal) (ho : db.operations.get id = some o)
    (hcoll : o.status.isCollecting = true) :
    ∃ db', Steps (step P) db db' ∧ Advanced db.authority db'.authority (.operation id) := by
  obtain ⟨hown, hvalid, -⟩ := hs.operations id o ho
  simp only [validateNewPersonalOperation, require_eq_ok] at hvalid
  obtain ⟨-, -, -, -, hlt, hrange₁, hrange₂, -⟩ := hvalid
  have hnz : ∀ n : UInt16, 1 ≤ n → n ≠ 0 := by
    intro n hn hzero
    subst hzero
    exact absurd hn (by decide)
  obtain ⟨round, hround⟩ : ∃ round : SigningRound, o.status = round.expectedStatus := by
    simp only [OperationStatus.isCollecting, decide_eq_true_eq] at hcoll
    rcases hcoll with h | h
    · exact ⟨.commitment, h⟩
    · exact ⟨.signatureShare, h⟩
  cases h₁ : db.receipts.get (id, o.selectedParticipants.1, round) with
  | none =>
    exact receipt_advances hnormal ho hown hround (.inl rfl) ⟨hnz _ hrange₁.1, hrange₁.2⟩ h₁
  | some =>
    cases h₂ : db.receipts.get (id, o.selectedParticipants.2, round) with
    | none =>
      exact receipt_advances hnormal ho hown hround (.inr rfl) ⟨hnz _ hrange₂.1, hrange₂.2⟩ h₂
    | some => exact move_advances hnormal ho hown hround (UInt16.ne_of_lt hlt) h₁ h₂

/-- A claim that fits a job until it expires. -/
def SigningJobRow.executorClaim (j : SigningJobRow) (digest : Bytes32) : ChainExecutorClaim where
  walletId := j.walletId
  profileId := j.profileId
  signingSuiteId := j.signingSuiteId
  backendRequirement := j.backendRequirement
  sessionId := j.sessionId
  reviewDomainDigest := .replicate 1
  signingMessageDigest := j.signingMessageDigest
  operationBindingDigest := digest
  claimedAt := j.expiresAt

/-- A claimable job that is not claimed can be claimed whenever the wallet allows mutations. -/
theorem job_advances {j : SigningJobRow} (hs : WellFormed db.authority)
    (hnormal : db.metadata.restoreState = .normal) (hj : db.jobs.get id = some j)
    (hclaim : j.claimable = true) (hnone : db.executorClaims.get id = none) :
    ∃ db', Steps (step P) db db' ∧ Advanced db.authority db'.authority (.job id) := by
  simp only [SigningJobRow.claimable, decide_eq_true_eq] at hclaim
  obtain ⟨hsing, hwal, hprof, hsess, hmsg, hdig⟩ := hclaim
  obtain ⟨hown, hsome, -⟩ := hs.jobs id j hj
  obtain ⟨digest, hjdigest⟩ := isSome_iff_exists.mp (hsome hsing)
  have hmatch : (j.executorClaim digest).matches j = true := by
    simp [ChainExecutorClaim.matches, SigningJobRow.executorClaim, hjdigest, hsing]
  -- a job that fits the claim has its session, so it is this one
  obtain ⟨j', hfind⟩ : ∃ j', db.jobs.find? (j.executorClaim digest).matches = some j' := by
    rw [← isSome_iff_exists, Rows.find?, List.find?_isSome]
    exact ⟨j, mem_of_get hj, hmatch⟩
  obtain ⟨hmem, hmatch'⟩ := find?_eq_some hfind
  have hj' := get_of_mem hmem
  have hsess' : j'.sessionId = j.sessionId := by
    simp only [ChainExecutorClaim.matches, decide_eq_true_eq] at hmatch'
    exact hmatch'.2.2.2.2.1
  have hid' : j'.jobId = id := hs.sessions _ j' id j hj' hj hsess'
  have honly : ¬db.executorClaims.any
      (fun e => e.sessionId = (j.executorClaim digest).sessionId) = true := by
    intro hany
    obtain ⟨e, he, heq⟩ := any_eq_true.mp hany
    obtain ⟨j₁, hj₁, hsess₁⟩ := hs.claims _ e (get_of_mem he)
    have hsame := hs.sessions _ j₁ id j hj₁ hj (hsess₁.trans (of_decide_eq_true heq))
    exact absurd (get_of_mem he) (by simp [hsame, hnone])
  obtain ⟨claims, hinsert⟩ :=
    exists_insert? (t := db.executorClaims) (r := { j.executorClaim digest with jobId := j'.jobId })
      (by rw [← hnone, ← hid'])
  have hok : claimChainExecutor db (j.executorClaim digest) =
      .ok ({ db with executorClaims := claims }.log "chain_executor.claimed"
        (some (.uuid j'.jobId)) j.expiresAt) := by
    simp only [claimChainExecutor, ok_iff]
    refine ⟨⟨hwal, hprof, hsess, (show Bytes32.replicate 1 ≠ .zeros by decide), hmsg, ?_⟩,
      ensureMutationsAllowed_normal hnormal, hown.symm, j', hfind, honly, claims, hinsert, rfl⟩
    exact fun hzero => hdig (hjdigest.trans (congrArg some hzero))
  refine ⟨_, ⟨.claimChainExecutor (j.executorClaim digest), hok⟩, .inl ⟨hnone, ?_⟩⟩
  have hget : claims.get id = _ := (inserted_of_insert? hinsert).2 id
  rw [if_pos hid'.symm] at hget
  show (claims.get id).isSome
  rw [hget]
  rfl

end WellFormed

lemma authorizedIn_of_cutover (hs : WellFormed db.authority) (h : cutoverRestore db now = .ok db')
    {w : Work} {intentId : Uuid}
    (hw : db'.authority.authorizedIn w = (db'.intents.get intentId).map IntentRow.epoch)
    (hi : ∃ i, db.intents.get intentId = some i) :
    ∃ e, db'.authority.authorizedIn w = some e ∧ e ≤ db.metadata.epoch := by
  obtain ⟨i, hi⟩ := hi
  obtain ⟨i', hi', hterms⟩ := (cutoverRestore_does h).effect.intents.keeps intentId i hi
  have hi' : db'.intents.get intentId = some i' := hi'
  refine ⟨i'.epoch, by rw [hw, hi', map_some], ?_⟩
  rw [hterms.epoch_eq]
  exact hs.intents intentId i hi

lemma quiet_of_fenced (hs : WellFormed db.authority) (h : cutoverRestore db now = .ok db')
    (hfenced : Fenced P db.metadata.epoch db') :
    db.authority.Quiet := by
  obtain ⟨hstate, -, hops, hjobs, _, hclaims⟩ := cutoverRestore_keeps h
  have hs' : WellFormed db'.authority := hs.step (cutoverRestore_does h).effect
  obtain ⟨db₁, hreach, hnormal, hauth⟩ := exists_normal (P := P) hstate
  have hs₁ : WellFormed db₁.authority := hauth ▸ hs'
  have hstop : ∀ w e, db'.authority.authorizedIn w = some e → e ≤ db.metadata.epoch →
      ¬∃ db₂, Steps (step P) db₁ db₂ ∧ Advanced db₁.authority db₂.authority w := by
    rintro w e hw hle ⟨db₂, hstep, hadv⟩
    exact hfenced db₁ db₂ w e hreach hstep (hauth ▸ hw) hle hadv
  constructor
  · intro o ho
    by_contra hcoll
    have hget : db.operations.get o.operationId = some o := get_of_mem ho
    obtain ⟨-, -, hi⟩ := hs.operations _ o hget
    obtain ⟨e, hw, hle⟩ := authorizedIn_of_cutover (w := .operation o.operationId) hs h
      (by simp [authorizedIn, Db.authority, hops, hget]) hi
    refine hstop _ e hw hle (operation_advances hs₁ hnormal ?_ (by simpa using hcoll))
    rw [show db₁.operations = db.operations from
      (congrArg operations hauth).trans hops]
    exact hget
  · intro j hj hclaim
    have hget : db.jobs.get j.jobId = some j := get_of_mem hj
    by_contra hunclm
    obtain ⟨-, -, hi⟩ := hs.jobs _ j hget
    obtain ⟨e, hw, hle⟩ := authorizedIn_of_cutover (w := .job j.jobId) hs h
      (by simp [authorizedIn, Db.authority, hjobs, hget]) hi
    refine hstop _ e hw hle (job_advances hs₁ hnormal ?_ hclaim ?_)
    · rw [show db₁.jobs = db.jobs from (congrArg jobs hauth).trans hjobs]
      exact hget
    · rw [show db₁.executorClaims = db.executorClaims from
        (congrArg executorClaims hauth).trans hclaims]
      exact not_isSome_iff_eq_none.mp hunclm

/-- A cutover stops the work of the earlier epochs, whatever calls follow, exactly if it finds no
operation collecting and no claimable job unclaimed. -/
theorem cutoverRestore_fences_iff {walletId : Uuid} {created now : Time}
    (hdb : Reaches (step P) (initializeWallet walletId created) db)
    (h : cutoverRestore db now = .ok db') :
    Fenced P db.metadata.epoch db' ↔ db.authority.Quiet := by
  constructor
  · exact quiet_of_fenced (wellFormed_of_reaches hdb) h
  · intro hquiet
    exact (stopped_of_quiet h hquiet).fenced

def samplePlatform : Platform where
  sha256 := fun _ => .zeros
  jsonValid := fun _ => true
  sqliteJsonValid := fun _ => true
  parsePersonalIntent := fun _ => some ⟨5, 6, 1, "", (1, 2, 3), 2, "", ""⟩
  decodeHex32 := fun _ => some .zeros

def sampleIntent : NewTransactionIntentV2 where
  id := 1
  txDigest := .replicate 1
  policyHash := .zeros
  sessionId := .replicate 2
  expiresAt := 100
  createdAt := 0
  network := .regtest
  protocolVersion := 1
  action := .transfer
  signerId := "frost:participant-0"
  approvalNonce := .replicate 3
  intentSchemaVersion := 2

def sampleOperation : NewPersonalSigningOperation where
  operationId := 4
  walletId := 7
  profileId := 5
  signerSetId := 6
  signerEpoch := 1
  intentId := 1
  sessionId := .replicate 2
  taprootSighash := .replicate 1
  policyDigest := .zeros
  chainSnapshotDigest := .zeros
  groupPubkeyXonly := .zeros
  profileBindingDigest := .zeros
  operationBindingDigest := .replicate 5
  allowedParticipants := (1, 2, 3)
  selectedParticipants := (1, 2)
  threshold := 2
  maxSigners := 3
  expiresAt := 100
  createdAt := 3

def approvalCalls : List Call :=
  [.registry (.setWebauthnProfile ⟨7, "user", "rp", "https://rp", 1, 0⟩),
    .registry (.insertPasskeyRecord ⟨"credential", "label", "null", "passkey", .active, 0⟩),
    .createTransactionIntentV2 sampleIntent ⟨1, .policyInput, "null", .zeros, "snapshot"⟩,
    .beginPasskeyApproval ⟨2, 1, 1, 50⟩ ⟨.replicate 4, "credential"⟩,
    .completePasskeyApprovalAtomic
      ⟨2, 1, .replicate 4, "credential", "rp", "https://rp", 1, "null", 3, 90, 2⟩]

def interruptedCalls : List Call :=
  approvalCalls ++ [.createPersonalSigningOperation 3 sampleOperation 3, .beginRestorePrecheck 4]

def interruptedDb : Db := run (step samplePlatform) (initializeWallet 7 0) interruptedCalls

def restoredDb : Db := attempt (step samplePlatform) interruptedDb (.cutoverRestore 5)

def recoveredDb : Db :=
  run (step samplePlatform) restoredDb [.beginRecovering 6, .finishRecovery 7]

def sampleReceipt : ReceiptRow := sampleOperation.row.receipt 1 .commitment

/-- After the cutover from epoch 1 to epoch 2, the operation authorized in epoch 1 records a
receipt. -/
theorem cutoverRestore_not_fences :
    Steps (step samplePlatform) interruptedDb restoredDb ∧ interruptedDb.metadata.epoch = 1 ∧
      restoredDb.metadata.epoch = 2 ∧ ¬Fenced samplePlatform 1 restoredDb := by
  have hcutover : (step samplePlatform interruptedDb (.cutoverRestore 5)).isOk = true := by
    decide +kernel
  refine ⟨steps_attempt hcutover, by decide +kernel, by decide +kernel, fun hfenced => ?_⟩
  have hreach : Reaches (step samplePlatform) restoredDb recoveredDb := reaches_run _ _
  have hrec : (step samplePlatform recoveredDb
      (.recordPersonalSigningReceipt sampleReceipt)).isOk = true := by decide +kernel
  refine hfenced recoveredDb _ (.operation 4) 1 hreach (steps_attempt hrec) (by decide +kernel)
    le_rfl (.inl ⟨sampleReceipt, rfl, by decide +kernel, by decide +kernel⟩)

/-- The operation has been terminated before the restore. -/
def settledDb : Db :=
  run (step samplePlatform) (initializeWallet 7 0) (approvalCalls ++
    [.createPersonalSigningOperation 3 sampleOperation 3,
      .terminatePersonalSigningOperation 4 (.replicate 5) .failed "invalid_share" 4,
      .beginRestorePrecheck 5])

theorem cutoverRestore_fences_iff_settled :
    (settledDb.operations.get 4).isSome = true ∧
      Fenced samplePlatform settledDb.metadata.epoch
        (attempt (step samplePlatform) settledDb (.cutoverRestore 6)) := by
  have hcutover : (step samplePlatform settledDb (.cutoverRestore 6)).isOk = true := by
    decide +kernel
  refine ⟨by decide +kernel, ?_⟩
  exact (cutoverRestore_fences_iff (reaches_run _ _) (eq_ok_attempt hcutover)).mpr
    (by decide +kernel)

/-- In every run of storage calls the executor of a session is claimed once, and its claim stays. A
restore of a backup, which brings an older database, is no such call. -/
theorem run_executors_stay (P : Platform) (walletId : Uuid) (created : Time)
    (calls more : List Call) :
    let db := run (step P) (initializeWallet walletId created) calls
    let db' := run (step P) db more
    (∀ id e, db.executorClaims.get id = some e → db'.executorClaims.get id = some e) ∧
      Unique (fun e => e.sessionId) db'.executorClaims := by
  intro db db'
  have hreach : Reaches (step P) db db' := reaches_run _ _
  constructor
  · intro id e he
    refine hreach.invariant (I := fun db => db.executorClaims.get id = some e) he ?_
    intro _ _ _ he hstep
    rcases (step_does hstep).effect.executorClaims with heq | ⟨_, _, -, -, -, -, hins⟩
    · exact (congrArg (Rows.get · id) heq).trans he
    · refine (hins.2 id).trans ((if_neg ?_).trans he)
      rintro rfl
      cases he.symm.trans hins.1
  · intro id e id' e' he he' hsess
    have hwell := wellFormed_of_reaches ((reaches_run _ calls).trans hreach)
    obtain ⟨j, hj, hsess₁⟩ := hwell.claims id e he
    obtain ⟨j', hj', hsess₂⟩ := hwell.claims id' e' he'
    exact hwell.sessions id j id' j' hj hj' (hsess₁.trans (hsess.trans hsess₂.symm))

end Catomicals.WalletStorage
