import Catomicals.WalletStorage.Calls

/-!
# What a call can do to the signing authority

One relation says everything a call can do to the rows that decide who may sign what, and a second
one which call moves the statuses. Every invariant is then a case analysis over one of the two.
-/
namespace Catomicals.WalletStorage

open Base Domain Rows

/-- The part of the database that holds intents, authorizations, claims, jobs and operations. -/
structure Authority where
  walletId : Uuid
  epoch : ℕ
  intents : Rows IntentRow.id
  authorizations : Rows AuthorizationRow.id
  nonceClaims : Rows NonceClaimRow.fingerprint
  jobs : Rows fun j : SigningJobRow => j.jobId
  executorClaims : Rows ExecutorClaimRow.jobId
  operations : Rows fun o : OperationRow => o.operationId
  receipts : Rows ReceiptRow.key
  requestNonces : Rows RequestNonceRow.key

def Db.authority (db : Db) : Authority where
  walletId := db.metadata.walletId
  epoch := db.metadata.epoch
  intents := db.intents
  authorizations := db.authorizations
  nonceClaims := db.nonceClaims
  jobs := db.jobs
  executorClaims := db.executorClaims
  operations := db.operations
  receipts := db.receipts
  requestNonces := db.requestNonces

def IntentRow.moved (i : IntentRow) (next : IntentStatus) (now : Time) : IntentRow :=
  { i with status := next, updatedAt := now }

def AuthorizationRow.consumed (a : AuthorizationRow) (now : Time) : AuthorizationRow :=
  { a with consumedAt := some now }

inductive CreationKind where
  | job (id : Uuid)
  | operation (id : Uuid)
  | frostNonce

/-- A signing job, a personal signing operation or a FROST nonce claim that was created. -/
structure Creation where
  kind : CreationKind
  (authorizationId intentId : Uuid)
  sessionId : Bytes32
  epoch : ℕ
  /-- the binding digest of a job or an operation, the fingerprint of a nonce -/
  bindingDigest : Bytes32

/-- What a call creates from an authorization if it succeeds. -/
def creation (db : Db) : Call → Option Creation
  | .createSigningJob authorizationId job digest _ =>
    some ⟨.job job.jobId, authorizationId, job.intentId, job.sessionId, db.metadata.epoch, digest⟩
  | .createPersonalSigningOperation authorizationId o _ =>
    some ⟨.operation o.operationId, authorizationId, o.intentId, o.sessionId, db.metadata.epoch,
      o.operationBindingDigest⟩
  | .claimFrostNonce c =>
    some ⟨.frostNonce, c.authorizationId, c.intentId, c.sessionId, db.metadata.epoch, c.fingerprint⟩
  | _ => none

def Spending.creation (sp : Spending) (kind : CreationKind) (epoch : ℕ) : Creation :=
  ⟨kind, sp.origin.authorizationId, sp.origin.intentId, sp.sessionId, epoch, sp.fingerprint⟩

/-- The authorization `a` was available and of the current epoch, as is the intent `i`, whose
session and signer the claim carries. -/
structure Spent (s : Authority) (a : AuthorizationRow) (i : IntentRow) (sp : Spending) (now : Time)
    (authorizations : Rows AuthorizationRow.id) (nonceClaims : Rows NonceClaimRow.fingerprint)
    (intents : Rows IntentRow.id) : Prop where
  authorizationId : a.id = sp.origin.authorizationId
  intentId : i.id = sp.origin.intentId
  forIntent : a.intentId = i.id
  authorizationOwn : a.walletId = s.walletId ∧ a.epoch = s.epoch
  intentOwn : i.walletId = s.walletId ∧ i.epoch = s.epoch
  available : a.consumedAt = none ∧ a.invalidatedAt = none
  approved : i.status = .approved
  signer : i.v2.map IntentSecurity.signerId = some sp.origin.signerId
  session : i.sessionId = sp.sessionId
  consumed : Changed s.authorizations a (a.consumed now) authorizations
  claimed : Inserted s.nonceClaims (sp.claim s.walletId s.epoch now) nonceClaims
  moved : Changed s.intents i (i.moved .signing now) intents

inductive OperationStatus.Moves : OperationStatus → OperationStatus → Prop where
  | freeze : Moves .collectingCommitments .collectingShares
  | finalize : Moves .collectingShares .finalized
  | terminate {s t : OperationStatus} : s = .collectingCommitments ∨ s = .collectingShares →
      t = .aborted ∨ t = .expired ∨ t = .failed → Moves s t

/-- Everything a call can do to the signing authority, with what it creates from an
authorization. -/
inductive Effect (s : Authority) : Option Creation → Authority → Prop where
  | aside : Effect s none s
  | intentCreated {i intents} (own : i.walletId = s.walletId ∧ i.epoch = s.epoch)
      (inserted : Inserted s.intents i intents) : Effect s none { s with intents := intents }
  | intentMoved {i next now intents} (own : i.walletId = s.walletId ∧ i.epoch = s.epoch)
      (changed : Changed s.intents i (i.moved next now) intents) :
      Effect s none { s with intents := intents }
  | approved {i a now intents authorizations} (intentEpoch : i.epoch = s.epoch)
      (forIntent : a.intentId = i.id) (own : a.walletId = s.walletId ∧ a.epoch = s.epoch)
      (fresh : a.consumedAt = none)
      (only : ∀ id b, s.authorizations.get id = some b → b.intentId ≠ i.id)
      (inserted : Inserted s.authorizations a authorizations)
      (changed : Changed s.intents i (i.moved .approved now) intents) :
      Effect s none { s with intents := intents, authorizations := authorizations }
  | authorizationConsumed {a now authorizations} (available : a.consumedAt = none)
      (legacy : ∀ i, s.intents.get a.intentId = some i → i.v2 = none)
      (changed : Changed s.authorizations a (a.consumed now) authorizations) :
      Effect s none { s with authorizations := authorizations }
  | nonceClaimed {n nonceClaims} (free : n.origin = none)
      (inserted : Inserted s.nonceClaims n nonceClaims) :
      Effect s none { s with nonceClaims := nonceClaims }
  | frostNonceClaimed {a i sp now authorizations nonceClaims intents}
      (spent : Spent s a i sp now authorizations nonceClaims intents) :
      Effect s (some (sp.creation .frostNonce s.epoch)) { s with
        authorizations := authorizations, nonceClaims := nonceClaims, intents := intents }
  | jobCreated {a i sp now authorizations nonceClaims intents jobs} {job : NewSigningJob}
      (spent : Spent s a i sp now authorizations nonceClaims intents)
      (digest : a.bindingDigest = sp.fingerprint) (own : job.walletId = s.walletId)
      (forIntent : job.intentId = i.id) (session : job.sessionId = sp.sessionId)
      (only : ∀ id j, s.jobs.get id = some j → j.sessionId ≠ job.sessionId)
      (inserted : Inserted s.jobs (job.row sp.fingerprint) jobs) :
      Effect s (some (sp.creation (.job job.jobId) s.epoch)) { s with
        authorizations := authorizations, nonceClaims := nonceClaims, intents := intents,
        jobs := jobs }
  | executorClaimed {j executorClaims} {c : ChainExecutorClaim} (job : s.jobs.get j.jobId = some j)
      (matching : c.matches j = true)
      (only : ∀ id e, s.executorClaims.get id = some e → e.sessionId ≠ c.sessionId)
      (nonzero : c.walletId ≠ 0 ∧ c.profileId ≠ 0 ∧ c.sessionId ≠ .zeros ∧
        c.signingMessageDigest ≠ .zeros ∧ c.operationBindingDigest ≠ .zeros)
      (inserted : Inserted s.executorClaims { c with jobId := j.jobId } executorClaims) :
      Effect s none { s with executorClaims := executorClaims }
  | jobEnded {j j' i next now intents jobs} (signing : j.status = .signing)
      (ended : j'.status ≠ .signing) (same : j'.toNewSigningJob = j.toNewSigningJob)
      (digest : j'.operationBindingDigest = j.operationBindingDigest)
      (forIntent : i.id = j.intentId) (own : i.walletId = s.walletId ∧ i.epoch = s.epoch)
      (jobChanged : Changed s.jobs j j' jobs)
      (intentChanged : Changed s.intents i (i.moved next now) intents) :
      Effect s none { s with jobs := jobs, intents := intents }
  | operationCreated {a i sp now authorizations nonceClaims intents operations}
      {o : NewPersonalSigningOperation}
      (spent : Spent s a i sp now authorizations nonceClaims intents)
      (fingerprint : o.operationBindingDigest = sp.fingerprint) (own : o.walletId = s.walletId)
      (forIntent : o.intentId = i.id) (session : o.sessionId = sp.sessionId)
      (valid : validateNewPersonalOperation o = .ok ())
      (inserted : Inserted s.operations o.row operations) :
      Effect s (some (sp.creation (.operation o.operationId) s.epoch)) { s with
        authorizations := authorizations, nonceClaims := nonceClaims, intents := intents,
        operations := operations }
  | receiptRecorded {r o receipts} (operation : s.operations.get r.operationId = some o)
      (status : o.status = r.round.expectedStatus) (inserted : Inserted s.receipts r receipts) :
      Effect s none { s with receipts := receipts }
  | operationMoved {o o' operations} (moves : o.status.Moves o'.status)
      (same : o'.toNewPersonalSigningOperation = o.toNewPersonalSigningOperation)
      (changed : Changed s.operations o o' operations) :
      Effect s none { s with operations := operations }
  | requestNonceClaimed {r requestNonces} (inserted : Inserted s.requestNonces r requestNonces) :
      Effect s none { s with requestNonces := requestNonces }
  | cutover (now : Time) :
      Effect s none { s with
        epoch := s.epoch + 1
        intents := s.intents.update (fun i => i.epoch < s.epoch + 1 ∧ i.status.isOpen)
          (fun i => { i with status := .invalidated, updatedAt := now }) fun _ => rfl
        authorizations := s.authorizations.update
          (fun a => a.epoch < s.epoch + 1 ∧ a.consumedAt = none ∧ a.invalidatedAt = none)
          (fun a => { a with invalidatedAt := some now }) fun _ => rfl
        nonceClaims := s.nonceClaims.update
          (fun n => n.epoch < s.epoch + 1 ∧ n.invalidatedAt = none)
          (fun n => { n with invalidatedAt := some now }) fun _ => rfl }

/-- The tables whose rows have a status of signing work. -/
structure SigningWork where
  intents : Rows IntentRow.id
  jobs : Rows fun j : SigningJobRow => j.jobId
  operations : Rows fun o : OperationRow => o.operationId

def Authority.work (s : Authority) : SigningWork := ⟨s.intents, s.jobs, s.operations⟩

def Db.work (db : Db) : SigningWork := db.authority.work

def OperationStatus.isCollecting (s : OperationStatus) : Bool :=
  s = .collectingCommitments ∨ s = .collectingShares

def OperationStatus.isTerminated (s : OperationStatus) : Bool :=
  s = .aborted ∨ s = .expired ∨ s = .failed

inductive WorkStep (w : SigningWork) : Call → SigningWork → Prop where
  | aside {c} : WorkStep w c w
  | intentCreated {c i intents} (pending : i.status = .pending)
      (inserted : Inserted w.intents i intents) : WorkStep w c { w with intents := intents }
  | transition {i next now intents} (allowed : i.status.mayTransitionTo next = true)
      (changed : Changed w.intents i (i.moved next now) intents) :
      WorkStep w (.transitionTransactionIntent i.id i.status next now)
        { w with intents := intents }
  | approved {c i now intents} (pending : i.status = .pending)
      (changed : Changed w.intents i (i.moved .approved now) intents) :
      WorkStep w c { w with intents := intents }
  | frostNonceClaimed {c i now intents} (approved : i.status = .approved)
      (changed : Changed w.intents i (i.moved .signing now) intents) :
      WorkStep w c { w with intents := intents }
  | jobCreated {c i now intents jobs} {job : NewSigningJob} {digest : Bytes32}
      (approved : i.status = .approved) (forIntent : job.intentId = i.id)
      (changed : Changed w.intents i (i.moved .signing now) intents)
      (inserted : Inserted w.jobs (job.row digest) jobs) :
      WorkStep w c { w with intents := intents, jobs := jobs }
  | jobEnded {c j j' i next now intents jobs} (signing : i.status = .signing)
      (ended : next = .signed ∨ next = .invalidated) (forIntent : i.id = j.intentId)
      (same : j'.toNewSigningJob = j.toNewSigningJob)
      (jobChanged : Changed w.jobs j j' jobs)
      (changed : Changed w.intents i (i.moved next now) intents) :
      WorkStep w c { w with intents := intents, jobs := jobs }
  | operationCreated {c i now intents operations} {o : NewPersonalSigningOperation}
      (approved : i.status = .approved) (forIntent : o.intentId = i.id)
      (changed : Changed w.intents i (i.moved .signing now) intents)
      (inserted : Inserted w.operations o.row operations) :
      WorkStep w c { w with intents := intents, operations := operations }
  | operationFrozen {c o o' operations} (collecting : o.status = .collectingCommitments)
      (next : o'.status = .collectingShares)
      (same : o'.toNewPersonalSigningOperation = o.toNewPersonalSigningOperation)
      (changed : Changed w.operations o o' operations) :
      WorkStep w c { w with operations := operations }
  | operationCompleted {o o' digest signature now operations}
      (collecting : o.status = .collectingShares) (next : o'.status = .finalized)
      (same : o'.toNewPersonalSigningOperation = o.toNewPersonalSigningOperation)
      (changed : Changed w.operations o o' operations) :
      WorkStep w (.completePersonalSigningOperation o.operationId digest signature now)
        { w with operations := operations }
  | operationTerminated {o o' digest status reason now operations}
      (collecting : o.status.isCollecting = true) (next : o'.status.isTerminated = true)
      (same : o'.toNewPersonalSigningOperation = o.toNewPersonalSigningOperation)
      (changed : Changed w.operations o o' operations) :
      WorkStep w (.terminatePersonalSigningOperation o.operationId digest status reason now)
        { w with operations := operations }
  | cutover {c} (now : Time) (epoch : ℕ) :
      WorkStep w c { w with
        intents := w.intents.update (fun i => i.epoch < epoch ∧ i.status.isOpen)
          (fun i => { i with status := .invalidated, updatedAt := now }) fun _ => rfl }

/-- What a call does to the signing authority and, of that, to the statuses of signing work. -/
structure Does (db : Db) (m : Option Creation) (c : Call) (db' : Db) : Prop where
  effect : Effect db.authority m db'.authority
  work : WorkStep db.work c db'.work

variable {P : Platform} {db db' : Db} {c : Call} {id : Uuid} {now : Time} {digest : Bytes32}
  {jobId : Uuid}

lemma Does.of_authority (h : db'.authority = db.authority) : Does db none c db' := by
  have hwork : db'.work = db.work := congrArg Authority.work h
  exact ⟨h ▸ .aside, hwork ▸ .aside⟩

lemma changed_of_moveIntent {p : IntentRow → Prop} [DecidablePred p] {next : IntentStatus}
    {intents : Rows IntentRow.id} (h : db.moveIntent id (fun i => p i) next now = some intents) :
    ∃ i, db.intents.get id = some i ∧ p i ∧ Changed db.intents i (i.moved next now) intents :=
  changed_of_updateAt h

variable {change : OperationRow → OperationRow}

lemma changed_of_moveOperation {p : OperationRow → Prop} [DecidablePred p]
    {hchng : ∀ o, (change o).operationId = o.operationId}
    (h : db.moveOperation id digest (fun o => p o) change hchng = .ok db') :
    ∃ o operations, o.operationId = id ∧ p o ∧ Changed db.operations o (change o) operations ∧
      db' = { db with operations := operations } := by
  simp only [Db.moveOperation, ok_iff] at h
  obtain ⟨operations, hupdate, rfl⟩ := h
  obtain ⟨o, ho, hp, hchg⟩ := changed_of_updateAt hupdate
  exact ⟨o, operations, (get_eq_some_iff.mp ho).2, of_decide_eq_true hp.2.2, hchg, rfl⟩

lemma authorizedIntent_eq_some {authorizationId intentId : Uuid} {a : AuthorizationRow}
    {i : IntentRow} {security : IntentSecurity}
    (h : db.authorizedIntent authorizationId intentId = some (a, i, security)) :
    db.authorizations.get authorizationId = some a ∧
      (a.intentId = intentId ∧ a.walletId = db.metadata.walletId ∧ a.epoch = db.metadata.epoch) ∧
      db.intents.get intentId = some i ∧ i.v2 = some security := by
  simp only [Db.authorizedIntent, Option.bind_eq_bind, Option.bind_eq_some_iff, Option.pure_def,
    Option.some.injEq, Prod.mk.injEq, guard] at h
  obtain ⟨a', ha, _, hguard, _, hi, _, hv, rfl, rfl, rfl⟩ := h
  have hown : a'.intentId = intentId ∧ a'.walletId = db.metadata.walletId ∧
      a'.epoch = db.metadata.epoch := by
    by_contra hn
    simp [hn] at hguard
  exact ⟨ha, hown, hown.1 ▸ hi, hv⟩

lemma spent_of_spend {sp : Spending} {claimedTwice : StorageError} {a : AuthorizationRow}
    {i : IntentRow} (h : db.spend sp claimedTwice now = .ok db')
    (ha : db.authorizations.get sp.origin.authorizationId = some a)
    (hown : a.intentId = sp.origin.intentId ∧ a.walletId = db.metadata.walletId ∧
      a.epoch = db.metadata.epoch) (hi : db.intents.get sp.origin.intentId = some i)
    (hsgn : i.v2.map IntentSecurity.signerId = some sp.origin.signerId)
    (hsess : i.sessionId = sp.sessionId) :
    ∃ authorizations nonceClaims intents,
      Spent db.authority a i sp now authorizations nonceClaims intents ∧
      db' = { db with
        authorizations := authorizations, nonceClaims := nonceClaims, intents := intents } := by
  simp only [Db.spend, ok_iff] at h
  obtain ⟨authorizations, hconsume, nonceClaims, hclaim, intents, hmove, rfl⟩ := h
  obtain ⟨_, ha', hfree, hcons⟩ := changed_of_updateAt hconsume
  obtain ⟨_, hi', hstat, hmoved⟩ := changed_of_moveIntent hmove
  cases ha.symm.trans ha'
  cases hi.symm.trans hi'
  have hid : a.id = sp.origin.authorizationId := key_of_get ha
  have hiid : i.id = sp.origin.intentId := key_of_get hi
  refine ⟨authorizations, nonceClaims, intents, ?_, rfl⟩
  exact
    { authorizationId := hid
      intentId := hiid
      forIntent := hown.1.trans hiid.symm
      authorizationOwn := hown.2
      intentOwn := ⟨hstat.1, hstat.2.1⟩
      available := ⟨hfree.1, hfree.2.1⟩
      approved := hstat.2.2.1
      signer := hsgn
      session := hsess
      consumed := hcons
      claimed := inserted_of_insert? hclaim
      moved := hmoved }

lemma approved_does {intentId : Uuid} {expiresAt : Time} {p : IntentRow → Prop}
    [DecidablePred p] {intents : Rows IntentRow.id} {authorizations : Rows AuthorizationRow.id}
    (hissue : db.issueAuthorization id intentId digest expiresAt now = .ok authorizations)
    (hmove : db.moveIntent intentId (fun i => p i) .approved now = some intents)
    (hp : ∀ i, p i → i.epoch = db.metadata.epoch ∧ i.status = .pending) :
    Does db none c { db with intents := intents, authorizations := authorizations } := by
  simp only [Db.issueAuthorization, ok_iff] at hissue
  obtain ⟨honly, hinsert⟩ := hissue
  obtain ⟨i, hi, hpi, hchg⟩ := changed_of_moveIntent hmove
  have hid : i.id = intentId := key_of_get hi
  refine ⟨.approved (hp i hpi).1 hid.symm ⟨rfl, rfl⟩ rfl ?_ (inserted_of_insert? hinsert) hchg,
    .approved (hp i hpi).2 hchg⟩
  intro _ b hb heq
  simp only [any_eq_true, decide_eq_true_eq, not_exists, not_and] at honly
  exact honly b (mem_of_get hb) (heq.trans hid)

lemma consumeAuthorization_does {epoch : ℕ} (h : consumeAuthorization db id epoch now = .ok db') :
    Does db none c db' := by
  simp only [consumeAuthorization, ok_iff] at h
  obtain ⟨-, -, hlegacy, _, hupdate, rfl⟩ := h
  obtain ⟨a, ha, hp, hchg⟩ := changed_of_updateAt hupdate
  refine ⟨.authorizationConsumed hp.2.1 ?_ hchg, .aside⟩
  intro i hi
  by_contra hv2
  refine hlegacy (any_eq_true.mpr ⟨a, mem_of_get ha, ?_⟩)
  have hid : i.id = a.intentId := key_of_get hi
  have hv2' : i.v2.isSome = true := Option.isSome_iff_ne_none.mpr hv2
  have haid : a.id = id := key_of_get ha
  simp only [haid, hp.1, decide_eq_true_eq, true_and]
  exact any_eq_true.mpr ⟨i, mem_of_get hi, by simp [hid, hv2']⟩

lemma claimChainExecutor_does {claim : ChainExecutorClaim}
    (h : claimChainExecutor db claim = .ok db') : Does db none c db' := by
  simp only [claimChainExecutor, ok_iff] at h
  obtain ⟨hnz, -, -, _, hfind, honly, _, hinsert, rfl⟩ := h
  obtain ⟨hmem, hmatch⟩ := find?_eq_some hfind
  refine ⟨.executorClaimed (get_of_mem hmem) hmatch ?_
    ⟨hnz.1, hnz.2.1, hnz.2.2.1, hnz.2.2.2.2.1, hnz.2.2.2.2.2⟩
    (inserted_of_insert? hinsert), .aside⟩
  intro _ e he heq
  exact honly (any_eq_true.mpr ⟨e, mem_of_get he, by simp [heq]⟩)

lemma endJob_does {open_ : SigningJobRow → Bool} {close : SigningJobRow → SigningJobRow}
    {hclose : ∀ j, (close j).jobId = j.jobId} {next : IntentStatus}
    (h : db.endJob jobId open_ close hclose next now = .ok db')
    (hnext : next = .signed ∨ next = .invalidated) (hended : ∀ j, (close j).status ≠ .signing)
    (hsame : ∀ j, (close j).toNewSigningJob = j.toNewSigningJob)
    (hdig : ∀ j, (close j).operationBindingDigest = j.operationBindingDigest) :
    Does db none c db' := by
  simp only [Db.endJob, ok_iff, Option.filter_eq_some_iff] at h
  obtain ⟨job, ⟨hjob, -⟩, _, hupdate, _, hmove, rfl⟩ := h
  obtain ⟨_, hj, hsing, hjobs⟩ := changed_of_updateAt hupdate
  obtain ⟨i, hi, hp, hintents⟩ := changed_of_moveIntent hmove
  cases hjob.symm.trans hj
  have hid : i.id = job.intentId := key_of_get hi
  exact ⟨.jobEnded hsing (hended job) (hsame job) (hdig job) hid ⟨hp.1, hp.2.1⟩ hjobs hintents,
    .jobEnded hp.2.2 hnext hid (hsame job) hjobs hintents⟩

lemma recordPersonalSigningReceipt_does {r : ReceiptRow}
    (h : recordPersonalSigningReceipt db r = .ok db') : Does db none c db' := by
  simp only [recordPersonalSigningReceipt, ok_iff] at h
  obtain ⟨-, h⟩ := h
  split at h
  · -- a receipt that was recorded before is accepted and changes nothing
    simp only [ok_iff] at h
    obtain ⟨_, -, rfl⟩ := h
    exact .of_authority rfl
  · simp only [ok_iff] at h
    obtain ⟨-, _, ho, -, hstat, -, _, hinsert, rfl⟩ := h
    exact ⟨.receiptRecorded ho hstat.1 (inserted_of_insert? hinsert), .aside⟩

lemma createSigningJob_does {authorizationId : Uuid} {job : NewSigningJob}
    (h : createSigningJob db authorizationId job digest now = .ok db') :
    Does db (creation db (.createSigningJob authorizationId job digest now)) c db' := by
  simp only [createSigningJob, ok_iff, Prod.exists, Db.insertJob] at h
  obtain ⟨-, -, -, hwal, _, -, -, -, a, i, _, hauth, hchecks, _,
    ⟨honly, hinsert⟩, _, hspend, rfl⟩ := h
  obtain ⟨ha, haown, hi, hv2⟩ := authorizedIntent_eq_some hauth
  obtain ⟨authorizations, nonceClaims, intents, hspent, rfl⟩ := spent_of_spend hspend ha haown hi
    (by rw [hv2]; rfl) hchecks.2.2.2.2.1
  have hspent : Spent db.authority a i _ now authorizations nonceClaims intents := { hspent with }
  have hins := inserted_of_insert? hinsert
  refine ⟨.jobCreated hspent hchecks.1 hwal.symm hspent.intentId.symm rfl ?_ hins,
    .jobCreated hspent.approved hspent.intentId.symm hspent.moved hins⟩
  intro _ j hj heq
  exact honly (any_eq_true.mpr ⟨j, mem_of_get hj, by simp [heq]⟩)

lemma createPersonalSigningOperation_does {authorizationId : Uuid} {o : NewPersonalSigningOperation}
    (h : consumeAuthorizationAndCreatePersonalSigningOperation P db authorizationId o now =
      .ok db') :
    Does db (creation db (.createPersonalSigningOperation authorizationId o now)) c db' := by
  simp only [consumeAuthorizationAndCreatePersonalSigningOperation, ok_iff] at h
  obtain ⟨hvalid, -, hown, h⟩ := h
  split at h
  · split_ifs at h
  · simp only [ok_iff, Prod.exists] at h
    obtain ⟨a, i, _, hauth, _, -, hchecks, -, -, _, hinsert, _, hspend, rfl⟩ := h
    obtain ⟨ha, haown, hi, hv2⟩ := authorizedIntent_eq_some hauth
    obtain ⟨authorizations, nonceClaims, intents, hspent, rfl⟩ := spent_of_spend hspend ha haown hi
      (by rw [hv2]; rfl) hchecks.2.2.2.1
    have hspent : Spent db.authority a i _ now authorizations nonceClaims intents := { hspent with }
    have hins := inserted_of_insert? hinsert
    exact ⟨.operationCreated hspent rfl hown.1.symm hspent.intentId.symm rfl hvalid hins,
      .operationCreated hspent.approved hspent.intentId.symm hspent.moved hins⟩

lemma transitionRestore_authority {source target : RestoreState}
    (h : transitionRestore db source target now = .ok db') : db'.authority = db.authority := by
  simp only [transitionRestore, ok_iff] at h
  obtain ⟨_, _, rfl⟩ := h
  rfl

lemma beginRestorePrecheck_authority (h : beginRestorePrecheck db now = .ok db') :
    db'.authority = db.authority := by
  simp only [beginRestorePrecheck, ok_iff] at h
  obtain ⟨_, _, rfl⟩ := h
  rfl

lemma cutoverRestore_does (h : cutoverRestore db now = .ok db') :
    Does db none (.cutoverRestore now) db' := by
  simp only [cutoverRestore, ok_iff] at h
  obtain ⟨-, -, -, rfl⟩ := h
  exact ⟨.cutover now, .cutover now _⟩

/-- Every call does one of the listed things to the signing authority. -/
theorem step_does (h : step P db c = .ok db') : Does db (creation db c) c db' := by
  cases c with
  | registry =>
    simp only [step, registryCall, ok_iff] at h
    obtain ⟨_, _, _, _, _, _, rfl⟩ := h
    exact .of_authority rfl
  | createTransactionIntent =>
    simp only [step, createTransactionIntent, ok_iff] at h
    obtain ⟨-, _, hinsert, rfl⟩ := h
    have hins := inserted_of_insert? hinsert
    exact ⟨.intentCreated ⟨rfl, rfl⟩ hins, .intentCreated rfl hins⟩
  | createTransactionIntentV2 =>
    simp only [step, createTransactionIntentV2, ok_iff] at h
    obtain ⟨-, -, -, _, hinsert, -, _, -, rfl⟩ := h
    have hins := inserted_of_insert? hinsert
    exact ⟨.intentCreated ⟨rfl, rfl⟩ hins, .intentCreated rfl hins⟩
  | transitionTransactionIntent id expected =>
    simp only [step, transitionTransactionIntent, ok_iff] at h
    obtain ⟨hallow, -, -, _, hmove, rfl⟩ := h
    obtain ⟨i, hi, hp, hchg⟩ := changed_of_moveIntent hmove
    obtain rfl : i.id = id := key_of_get hi
    obtain rfl : i.status = expected := hp.2.2
    exact ⟨.intentMoved ⟨hp.1, hp.2.1⟩ hchg, .transition hallow hchg⟩
  | beginApprovalCeremonyAtomic =>
    simp only [step, beginApprovalCeremonyAtomic, ok_iff] at h
    obtain ⟨_, _, _, _, _, _, _, _, rfl⟩ := h
    exact .of_authority rfl
  | beginPasskeyApproval =>
    simp only [step, beginPasskeyApproval, ok_iff] at h
    obtain ⟨_, _, _, _, _, _, _, _, _, _, rfl⟩ := h
    exact .of_authority rfl
  | approveAndIssueAuthorization =>
    simp only [step, approveAndIssueAuthorization, ok_iff] at h
    obtain ⟨-, _, -, _, -, -, -, -, _, -, -, -, -, _, -, _, hmove, _, hissue, rfl⟩ := h
    exact { approved_does hissue hmove fun i hi => hi with }
  | completePasskeyApprovalAtomic =>
    simp only [step, completePasskeyApprovalAtomic, ok_iff] at h
    obtain ⟨-, -, -, _, -, _, -, -, -, -, _, -, -, -, _, -, _, -, _, hmove, _, hissue, rfl⟩ := h
    exact { approved_does hissue hmove fun i hi => ⟨hi.1, hi.2.1⟩ with }
  | createSigningJob => exact createSigningJob_does h
  | claimChainExecutor => exact claimChainExecutor_does h
  | completeSigningJob =>
    simp only [step, completeSigningJob, ok_iff] at h
    obtain ⟨-, -, _, hend, rfl⟩ := h
    exact { endJob_does hend (.inl rfl) (fun _ => by simp) (fun _ => rfl) fun _ => rfl with }
  | terminateSigningJob _ _ status =>
    simp only [step, terminateSigningJob, ok_iff] at h
    obtain ⟨hstat, -, _, hend, rfl⟩ := h
    have hended : status ≠ .signing := by
      rcases hstat.1 with rfl | rfl | rfl <;> simp
    exact { endJob_does hend (.inr rfl) (fun _ => hended) (fun _ => rfl) fun _ => rfl with }
  | consumeAuthorization => exact consumeAuthorization_does h
  | claimNonce =>
    simp only [step, claimNonce, ok_iff] at h
    obtain ⟨-, _, hinsert, rfl⟩ := h
    exact ⟨.nonceClaimed rfl (inserted_of_insert? hinsert), .aside⟩
  | createPersonalSigningOperation => exact createPersonalSigningOperation_does h
  | recordPersonalSigningReceipt => exact recordPersonalSigningReceipt_does h
  | freezePersonalSigningOperation =>
    simp only [step, freezePersonalSigningOperation, ok_iff] at h
    obtain ⟨-, -, -, _, hmove, rfl⟩ := h
    obtain ⟨_, _, -, hp, hchg, rfl⟩ := changed_of_moveOperation hmove
    refine ⟨.operationMoved ?_ ?_ hchg, .operationFrozen hp.1 ?_ ?_ hchg⟩
    · rw [hp.1]
      exact .freeze
    all_goals rfl
  | completePersonalSigningOperation =>
    simp only [step, completePersonalSigningOperation, ok_iff] at h
    obtain ⟨-, -, _, hmove, rfl⟩ := h
    obtain ⟨_, _, rfl, hp, hchg, rfl⟩ := changed_of_moveOperation hmove
    refine ⟨.operationMoved ?_ ?_ hchg, .operationCompleted hp.1 ?_ ?_ hchg⟩
    · rw [hp.1]
      exact .finalize
    all_goals rfl
  | terminatePersonalSigningOperation _ _ status =>
    simp only [step, terminatePersonalSigningOperation, ok_iff] at h
    obtain ⟨hstat, -, _, hmove, rfl⟩ := h
    obtain ⟨_, _, rfl, hp, hchg, rfl⟩ := changed_of_moveOperation hmove
    have hnext : status.isTerminated = true := by
      simpa [OperationStatus.isTerminated] using hstat.1
    refine ⟨.operationMoved (.terminate hp hstat.1) ?_ hchg,
      .operationTerminated (by simpa [OperationStatus.isCollecting] using hp) hnext ?_ hchg⟩
    all_goals rfl
  | claimFrostNonce =>
    simp only [step, consumeAuthorizationAndClaimFrostNonce, ok_iff] at h
    obtain ⟨-, _, ha, haown, hfree, _, hi, _, hv2, -, hbind, _, hspend, rfl⟩ := h
    obtain ⟨_, _, _, hspent, rfl⟩ := spent_of_spend hspend ha
      ⟨hfree.1, haown⟩ hi (by rw [hv2, Option.map_some, hbind.1]) hbind.2.1
    exact ⟨.frostNonceClaimed hspent, .frostNonceClaimed hspent.approved hspent.moved⟩
  | claimSignerRequestNonce =>
    simp only [step, claimSignerRequestNonce, ok_iff] at h
    obtain ⟨-, -, -, -, -, -, -, _, hinsert, rfl⟩ := h
    exact ⟨.requestNonceClaimed (inserted_of_insert? hinsert), .aside⟩
  | beginSnapshot | finishSnapshot | beginRecovering | finishRecovery =>
    exact .of_authority (transitionRestore_authority h)
  | beginRestorePrecheck => exact .of_authority (beginRestorePrecheck_authority h)
  | cutoverRestore => exact cutoverRestore_does h
  | startup =>
    cases h
    apply Does.of_authority
    simp only [invalidateUnfinishedCeremoniesOnStartup]
    split_ifs <;> rfl
  | recordCutoverRecovery =>
    cases h
    apply Does.of_authority
    unfold recordCutoverRecovery
    split_ifs <;> rfl

end Catomicals.WalletStorage
