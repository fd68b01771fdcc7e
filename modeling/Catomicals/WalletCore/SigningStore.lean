import Catomicals.ThresholdSigner.Personal
import Catomicals.WalletCore.Approval
import Catomicals.WalletStorage.IntentMoves

/-!
# The store of the personal signing coordinator

A store is any state with the calls of the port and a view of its operations and receipts: a call
that fails leaves the view as it was, and one that succeeds changes it in one way. The wallet
database is such a store.
-/
namespace Catomicals.WalletCore

open Base Rows Method WalletStorage ThresholdSigner

/-- The errors of the coordinator; another error is kept itself, not its text. -/
inductive PersonalSigningError where
  | providerIdentityDrift | invalidParticipantPair | expired | operationNotFound
  | operationAlreadyActive
  | authorization (e : GateError)
  | responseBindingMismatch
  | wrongPhase
  | storage (e : StorageError)
  /-- `Signing` with the text of an error of the session machine -/
  | machine (e : OrchestrationError)
  /-- `Signing` with any other text -/
  | signing (text : String)
  deriving DecidableEq

def PersonalSigningError.isStorage : PersonalSigningError → Bool
  | .storage _ => true
  | _ => false

@[ext]
structure Books where
  record : Uuid → Option OperationRow
  receipt : Uuid × UInt16 × SigningRound → Option ReceiptRow

namespace Books

variable (b : Books)

def setRecord (o : OperationRow) : Books :=
  { b with record := fun id => if id = o.operationId then some o else b.record id }

def addReceipt (r : ReceiptRow) : Books :=
  { b with receipt := fun key => if key = r.key then some r else b.receipt key }

@[simp] lemma record_setRecord (o : OperationRow) (id : Uuid) :
    (b.setRecord o).record id = if id = o.operationId then some o else b.record id := rfl

@[simp] lemma receipt_addReceipt (r : ReceiptRow) (key : Uuid × UInt16 × SigningRound) :
    (b.addReceipt r).receipt key = if key = r.key then some r else b.receipt key := rfl

def Moved (id : Uuid) (p : OperationStatus → Bool) (change : OperationRow → OperationRow)
    (b' : Books) : Prop :=
  ∃ o, b.record id = some o ∧ p o.status = true ∧ b' = b.setRecord (change o)

/-- A receipt is recorded, unless there is one for its key. -/
def Received (r : ReceiptRow) (b' : Books) : Prop :=
  (b.receipt r.key = none → b' = b.addReceipt r) ∧ (b.receipt r.key ≠ none → b' = b)

lemma Received.record {b b' : Books} {r : ReceiptRow} (h : b.Received r b') :
    b'.record = b.record := by
  by_cases hnone : b.receipt r.key = none
  · rw [h.1 hnone]; rfl
  · rw [h.2 hnone]

end Books

def operationOver : OperationStatus → Bool
  | .finalized | .aborted | .expired | .failed => true
  | .collectingCommitments | .collectingShares => false

def frozenRow (signingPackage : Bytes) (now : Time) (o : OperationRow) : OperationRow :=
  { o with status := .collectingShares, signingPackage := some signingPackage, updatedAt := now }

def completedRow (signature : Bytes) (now : Time) (o : OperationRow) : OperationRow :=
  { o with status := .finalized, finalSignature := some signature, updatedAt := now }

def terminatedRow (status : OperationStatus) (reason : String) (now : Time) (o : OperationRow) :
    OperationRow :=
  { o with status := status, terminalReason := some reason, updatedAt := now }

/-- A call of the store ends as `R` says, or it fails as one and leaves its books. -/
def Keeps {σ α : Type} (books : σ → Books) (s : σ) (x : Method σ PersonalSigningError α)
    (R : α → Books → Prop) : Prop :=
  x.wp (fun r s' =>
    match r with
    | .ok a => R a (books s')
    | .error e => e.isStorage = true ∧ books s' = books s) s

structure PersonalSigningStore where
  State : Type
  createAuthorizedOperation : Uuid → NewPersonalSigningOperation → Time →
    Method State PersonalSigningError OperationRow
  operation : Uuid → Method State PersonalSigningError (Option OperationRow)
  receipts : Uuid → Method State PersonalSigningError (List ReceiptRow)
  recordReceipt : ReceiptRow → Method State PersonalSigningError Unit
  (freeze complete : Uuid → Bytes32 → Bytes → Time → Method State PersonalSigningError Unit)
  terminate : Uuid → Bytes32 → OperationStatus → String → Time →
    Method State PersonalSigningError Unit
  /-- what the store holds -/
  books : State → Books
  id_of_record : ∀ {s id o}, (books s).record id = some o → o.operationId = id
  key_of_receipt : ∀ {s key r}, (books s).receipt key = some r → r.key = key
  group_of_record : ∀ {s id o}, (books s).record id = some o → o.threshold = 2 ∧ o.maxSigners = 3
  create_keeps : ∀ authorizationId o now s,
    Keeps books s (createAuthorizedOperation authorizationId o now) fun row b =>
      row = o.row ∧ (books s).record o.operationId = none ∧
        (∀ signerId round, (books s).receipt (o.operationId, signerId, round) = none) ∧
        b = (books s).setRecord row
  operation_keeps : ∀ id s, Keeps books s (operation id) fun row b =>
    row = (books s).record id ∧ b = books s
  receipts_keeps : ∀ id s, Keeps books s (receipts id) fun rows b =>
    (∀ r, r ∈ rows ↔ (books s).receipt r.key = some r ∧ r.operationId = id) ∧
      (rows.map ReceiptRow.key).Nodup ∧ b = books s
  recordReceipt_keeps : ∀ r s, Keeps books s (recordReceipt r) fun _ b => (books s).Received r b
  freeze_keeps : ∀ id binding package now s,
    Keeps books s (freeze id binding package now) fun _ b =>
      (books s).Moved id (· = .collectingCommitments) (frozenRow package now) b
  complete_keeps : ∀ id binding signature now s,
    Keeps books s (complete id binding signature now) fun _ b =>
      (books s).Moved id (· = .collectingShares) (completedRow signature now) b
  terminate_keeps : ∀ id binding status reason now s,
    Keeps books s (terminate id binding status reason now) fun _ b =>
      operationOver status = true ∧
        (books s).Moved id (fun old => !operationOver old) (terminatedRow status reason now) b

/-- What the schema keeps: each receipt belongs to an operation, and each of these is 2 of 3. -/
structure Consistent (db : Db) : Prop where
  owned : ∀ key r, db.receipts.get key = some r →
    (db.operations.get r.operationId).isSome = true
  group : ∀ id o, db.operations.get id = some o → o.threshold = 2 ∧ o.maxSigners = 3

abbrev SigningDb := { db : Db // Consistent db }

variable {db db' : Db} {change : OperationRow → OperationRow}

namespace SigningDb

def books (db : Db) : Books := ⟨fun id => db.operations.get id, fun key => db.receipts.get key⟩

section Effects

variable {P : Platform} {id : Uuid} {digest : Bytes32} {now : Time}

lemma books_of_create {authorizationId : Uuid} {o : NewPersonalSigningOperation}
    (h : consumeAuthorizationAndCreatePersonalSigningOperation P db authorizationId o
      now = .ok db') :
    db.operations.get o.operationId = none ∧ books db' = (books db).setRecord o.row ∧
      o.threshold = 2 ∧ o.maxSigners = 3 := by
  simp only [consumeAuthorizationAndCreatePersonalSigningOperation,
    WalletStorage.validateNewPersonalOperation, ok_iff] at h
  obtain ⟨⟨-, hthr, hmax, -⟩, -, -, h⟩ := h
  split at h
  · split_ifs at h
  · simp only [ok_iff, WalletStorage.Db.spend] at h
    obtain ⟨⟨_, _, _⟩, -, h⟩ := h
    obtain ⟨_, -, -, -, -, _, hinsert, _, ⟨_, -, _, -, _, -, rfl⟩, rfl⟩ := h
    obtain ⟨hnone, hget⟩ := inserted_of_insert? hinsert
    refine ⟨hnone, ?_, hthr, hmax⟩
    ext id' : 2
    · exact hget id'
    · rfl

lemma books_of_receipt {r : ReceiptRow} (h : recordPersonalSigningReceipt db r = .ok db') :
    (db.receipts.get r.key = none → (db.operations.get r.operationId).isSome = true ∧
        books db' = (books db).addReceipt r) ∧
      (db.receipts.get r.key ≠ none → db' = db) := by
  simp only [recordPersonalSigningReceipt, ok_iff] at h
  obtain ⟨-, h⟩ := h
  split at h
  · rename_i existing hexis
    simp only [ok_iff] at h
    obtain ⟨-, rfl⟩ := h
    refine ⟨fun hnone => ?_, fun _ => rfl⟩
    simp [hnone] at hexis
  · rename_i hnone
    simp only [ok_iff] at h
    obtain ⟨-, _, ho, -, -, -, _, hinsert, rfl⟩ := h
    obtain ⟨-, hget⟩ := inserted_of_insert? hinsert
    refine ⟨fun _ => ⟨by rw [ho]; rfl, ?_⟩, fun hsome => absurd hnone hsome⟩
    ext key : 2
    · rfl
    · exact hget key

lemma books_of_move {p : OperationRow → Prop} [DecidablePred p] {q : OperationStatus → Bool}
    {hchng : ∀ o, (change o).operationId = o.operationId}
    (h : db.moveOperation id digest (fun o => p o) change hchng = .ok db')
    (hq : ∀ o, p o → q o.status = true) : (books db).Moved id q change (books db') := by
  obtain ⟨o, _, rfl, hp, ⟨hpre, -, hget⟩, rfl⟩ := WalletStorage.changed_of_moveOperation h
  refine ⟨o, hpre, hq o hp, ?_⟩
  ext key : 2
  · rw [Books.record_setRecord, hchng]
    exact hget key
  · rfl

lemma books_of_freeze {package : Bytes}
    (h : freezePersonalSigningOperation db id digest package now = .ok db') :
    (books db).Moved id (· = .collectingCommitments) (frozenRow package now) (books db') := by
  simp only [freezePersonalSigningOperation, ok_iff] at h
  obtain ⟨-, -, -, _, hmove, rfl⟩ := h
  apply books_of_move hmove
  intro o hp
  exact decide_eq_true hp.1

lemma books_of_complete {signature : Bytes}
    (h : completePersonalSigningOperation db id digest signature now = .ok db') :
    (books db).Moved id (· = .collectingShares) (completedRow signature now) (books db') := by
  simp only [completePersonalSigningOperation, ok_iff] at h
  obtain ⟨-, -, _, hmove, rfl⟩ := h
  apply books_of_move hmove
  intro o hp
  exact decide_eq_true hp.1

lemma books_of_terminate {status : OperationStatus} {reason : String}
    (h : terminatePersonalSigningOperation db id digest status reason now = .ok db') :
    operationOver status = true ∧
      (books db).Moved id (fun old => !operationOver old) (terminatedRow status reason now)
        (books db') := by
  simp only [terminatePersonalSigningOperation, ok_iff] at h
  obtain ⟨⟨hstat, -⟩, -, _, hmove, rfl⟩ := h
  constructor
  · rcases hstat with rfl | rfl | rfl <;> rfl
  · apply books_of_move hmove
    intro o hp
    rcases hp with hp | hp <;> rw [hp] <;> rfl

end Effects

lemma consistent_of_setRecord {o : OperationRow} (h : Consistent db)
    (hbooks : books db' = (books db).setRecord o) (hgroup : o.threshold = 2 ∧ o.maxSigners = 3) :
    Consistent db' := by
  have hrec : ∀ id, db'.operations.get id =
      if id = o.operationId then some o else db.operations.get id :=
    fun id => congrFun (congrArg Books.record hbooks) id
  have hrcpt : ∀ key, db'.receipts.get key = db.receipts.get key :=
    fun key => congrFun (congrArg Books.receipt hbooks) key
  constructor
  · intro key r hr
    rw [hrcpt] at hr
    rw [hrec]
    split_ifs
    · rfl
    · exact h.owned key r hr
  · intro id o' ho'
    rw [hrec] at ho'
    split_ifs at ho'
    · cases ho'
      exact hgroup
    · exact h.group id o' ho'

lemma consistent_of_moved {id : Uuid} {p : OperationStatus → Bool} (h : Consistent db)
    (hmoved : (books db).Moved id p change (books db'))
    (hchng : ∀ o, (change o).threshold = o.threshold ∧ (change o).maxSigners = o.maxSigners) :
    Consistent db' := by
  obtain ⟨o, ho, -, hbooks⟩ := hmoved
  apply consistent_of_setRecord h hbooks
  rw [(hchng o).1, (hchng o).2]
  exact h.group id o ho

lemma consistent_of_receipt {r : ReceiptRow} (h : Consistent db)
    (hok : recordPersonalSigningReceipt db r = .ok db') : Consistent db' := by
  obtain ⟨hnew, hold⟩ := books_of_receipt hok
  by_cases hnone : db.receipts.get r.key = none
  · obtain ⟨hop, hbooks⟩ := hnew hnone
    have hrec : ∀ id, db'.operations.get id = db.operations.get id :=
      fun id => congrFun (congrArg Books.record hbooks) id
    have hrcpt : ∀ key, db'.receipts.get key =
        if key = r.key then some r else db.receipts.get key :=
      fun key => congrFun (congrArg Books.receipt hbooks) key
    constructor
    · intro key r' hr'
      rw [hrcpt] at hr'
      rw [hrec]
      split_ifs at hr'
      · cases hr'
        exact hop
      · exact h.owned key r' hr'
    · intro id o ho
      rw [hrec] at ho
      exact h.group id o ho
  · rwa [hold hnone]

/-- A transaction of the database that keeps its schema. -/
def transact (f : Db → Except StorageError Db)
    (hf : ∀ db db', Consistent db → f db = .ok db' → Consistent db') :
    Method SigningDb PersonalSigningError Unit := fun s =>
  match h : f s.1 with
  | .ok db' => (.ok (), ⟨db', hf s.1 db' s.2 h⟩)
  | .error e => (.error (.storage e), s)

lemma transact_keeps {f : Db → Except StorageError Db}
    {hf : ∀ db db', Consistent db → f db = .ok db' → Consistent db'} {s : SigningDb}
    {R : Unit → Books → Prop} (h : ∀ db', f s.1 = .ok db' → R () (books db')) :
    Keeps (fun s => books s.1) s (transact f hf) R := by
  unfold Keeps wp transact
  split
  · rename_i db' hok
    exact h db' hok
  · exact ⟨rfl, rfl⟩

/-- `ORDER BY CASE round WHEN 'commitment' THEN 1 ELSE 2 END, signer_id`. -/
def receiptLe (a b : ReceiptRow) : Bool :=
  match a.round, b.round with
  | .commitment, .signatureShare => true
  | .signatureShare, .commitment => false
  | .commitment, .commitment | .signatureShare, .signatureShare => a.signerId ≤ b.signerId

def personalSigningReceipts (db : Db) (operationId : Uuid) : List ReceiptRow :=
  ((db.receipts.deleteWhere fun r => r.operationId ≠ operationId).orderBy receiptLe).rows

/-- `consume_authorization_and_create_personal_signing_operation`, then read back. -/
def createAuthorizedOperation (P : Platform) (authorizationId : Uuid)
    (o : NewPersonalSigningOperation) (now : Time) :
    Method SigningDb PersonalSigningError OperationRow := do
  transact (fun db => consumeAuthorizationAndCreatePersonalSigningOperation P db
    authorizationId o now) fun _ _ hdb h =>
      consistent_of_setRecord hdb (books_of_create h).2.1 (books_of_create h).2.2
  let s ← get
  lift (orError (s.1.operations.get o.operationId)
    (.storage .personalSigningOperationConflict))

lemma create_keeps (P : Platform) (authorizationId : Uuid)
    (o : NewPersonalSigningOperation) (now : Time) (s : SigningDb) :
    Keeps (fun s => books s.1) s (createAuthorizedOperation P authorizationId o now) fun row b =>
      row = o.row ∧ (books s.1).record o.operationId = none ∧
        (∀ signerId round, (books s.1).receipt (o.operationId, signerId, round) = none) ∧
        b = (books s.1).setRecord row := by
  have htransact : Keeps (fun s => books s.1) s (transact
      (fun db => consumeAuthorizationAndCreatePersonalSigningOperation P db
        authorizationId o now) fun _ _ hdb h =>
        consistent_of_setRecord hdb (books_of_create h).2.1 (books_of_create h).2.2)
      fun _ b => (books s.1).record o.operationId = none ∧ b = (books s.1).setRecord o.row :=
    transact_keeps fun _ h => ⟨(books_of_create h).1, (books_of_create h).2.1⟩
  rw [Keeps, createAuthorizedOperation, wp_bind]
  apply wp_mono htransact
  intro r s' hr
  cases r with
  | error => exact hr
  | ok =>
    obtain ⟨hnone, hbooks⟩ := hr
    have hrow : s'.1.operations.get o.operationId = some o.row :=
      (congrFun (congrArg Books.record hbooks) o.operationId).trans (if_pos rfl)
    have hrcpts : ∀ signerId round,
        (books s.1).receipt (o.operationId, signerId, round) = none := by
      intro signerId round
      cases hr : (books s.1).receipt (o.operationId, signerId, round) with
      | none => rfl
      | some r =>
        have hid : r.operationId = o.operationId := congrArg Prod.fst (key_of_get hr)
        have howned := s.2.owned _ r hr
        rw [hid] at howned
        have hsome : ((books s.1).record o.operationId).isSome = true := howned
        simp [hnone] at hsome
    simp only [wp_bind, wp_get, hrow]
    exact ⟨rfl, hnone, hrcpts, hbooks⟩

/-- `WalletStorage` as the store of the coordinator. -/
def walletStorage (P : Platform) : PersonalSigningStore where
  State := SigningDb
  createAuthorizedOperation := createAuthorizedOperation P
  operation := fun id s => (.ok (s.1.operations.get id), s)
  receipts := fun id s => (.ok (personalSigningReceipts s.1 id), s)
  recordReceipt := fun r => transact (recordPersonalSigningReceipt · r)
    fun _ _ => consistent_of_receipt
  freeze := fun id binding package now =>
    transact (freezePersonalSigningOperation · id binding package now)
      fun _ _ hdb h => consistent_of_moved hdb (books_of_freeze h) fun _ => ⟨rfl, rfl⟩
  complete := fun id binding signature now =>
    transact (completePersonalSigningOperation · id binding signature now)
      fun _ _ hdb h => consistent_of_moved hdb (books_of_complete h) fun _ => ⟨rfl, rfl⟩
  terminate := fun id binding status reason now =>
    transact (terminatePersonalSigningOperation · id binding status reason now)
      fun _ _ hdb h => consistent_of_moved hdb (books_of_terminate h).2 fun _ => ⟨rfl, rfl⟩
  books := fun s => books s.1
  id_of_record := key_of_get
  key_of_receipt := key_of_get
  group_of_record := fun {s id o} h => s.2.group id o h
  create_keeps := create_keeps P
  operation_keeps := fun _ _ => ⟨rfl, rfl⟩
  receipts_keeps := fun id s =>
    ⟨fun _ => by simp [books, personalSigningReceipts, orderBy, get_eq_some_iff], nodup _, rfl⟩
  recordReceipt_keeps := by
    intro r s
    apply transact_keeps
    intro db' h
    obtain ⟨hnew, hold⟩ := books_of_receipt h
    exact ⟨fun hnone => (hnew hnone).2, fun hsome => by rw [hold hsome]⟩
  freeze_keeps := fun _ _ _ _ _ => transact_keeps fun _ => books_of_freeze
  complete_keeps := fun _ _ _ _ _ => transact_keeps fun _ => books_of_complete
  terminate_keeps := fun _ _ _ _ _ _ => transact_keeps fun _ => books_of_terminate

end SigningDb

namespace PersonalSigningStore

lemma keeps_orFault {σ α : Type} {books : σ → Books} {x : Method σ PersonalSigningError α}
    {R : α → Books → Prop} {s : σ × List (Option StorageError)} (h : Keeps books s.1 x R) :
    Keeps (fun s => books s.1) s (x.orFault .storage) R :=
  wp_orFault (fun _ => ⟨rfl, rfl⟩) h

/-- The store with a script of faults, an entry for each call. -/
def faulty (K : PersonalSigningStore) : PersonalSigningStore where
  State := K.State × List (Option StorageError)
  createAuthorizedOperation := fun authorizationId o now =>
    (K.createAuthorizedOperation authorizationId o now).orFault .storage
  operation := fun id => (K.operation id).orFault .storage
  receipts := fun id => (K.receipts id).orFault .storage
  recordReceipt := fun r => (K.recordReceipt r).orFault .storage
  freeze := fun id binding package now => (K.freeze id binding package now).orFault .storage
  complete := fun id binding signature now =>
    (K.complete id binding signature now).orFault .storage
  terminate := fun id binding status reason now =>
    (K.terminate id binding status reason now).orFault .storage
  books := fun s => K.books s.1
  id_of_record := K.id_of_record
  key_of_receipt := K.key_of_receipt
  group_of_record := K.group_of_record
  create_keeps := fun _ _ _ _ => keeps_orFault (K.create_keeps _ _ _ _)
  operation_keeps := fun _ _ => keeps_orFault (K.operation_keeps _ _)
  receipts_keeps := fun _ _ => keeps_orFault (K.receipts_keeps _ _)
  recordReceipt_keeps := fun _ _ => keeps_orFault (K.recordReceipt_keeps _ _)
  freeze_keeps := fun _ _ _ _ _ => keeps_orFault (K.freeze_keeps _ _ _ _ _)
  complete_keeps := fun _ _ _ _ _ => keeps_orFault (K.complete_keeps _ _ _ _ _)
  terminate_keeps := fun _ _ _ _ _ _ => keeps_orFault (K.terminate_keeps _ _ _ _ _ _)

end PersonalSigningStore

end Catomicals.WalletCore
