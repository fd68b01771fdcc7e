import Catomicals.Base.Runs
import Catomicals.WalletStorage.Operations

/-!
# Restore states, and runs of calls

The transitions of the restore state, the calls that write to the database, and their runs. A call
that fails, or that SQLite interrupts, rolls its transaction back.
-/
namespace Catomicals.WalletStorage

open Base Domain

variable (P : Platform) (db : Db)

def RestoreState.asStr : RestoreState → String
  | .normal => "normal"
  | .snapshotting => "snapshotting"
  | .restorePrecheck => "restore_precheck"
  | .cutover => "cutover"
  | .recovering => "recovering"

/-- `WalletStorage::initialize` on a new file. -/
def initializeWallet (walletId : Uuid) (now : Time) : Db where
  metadata := ⟨walletId, 1, .normal, now, now⟩
  intents := .empty
  materials := .empty
  ceremonies := .empty
  authorizations := .empty
  nonceClaims := .empty
  jobs := .empty
  executorClaims := .empty
  operations := .empty
  receipts := .empty
  requestNonces := .empty
  registry := ⟨.empty, .empty, .empty, .empty, .empty⟩
  audit := [⟨1, "wallet.initialized", some (.uuid walletId), now⟩]

/-- `UPDATE wallet_metadata SET restore_state, updated_at`. -/
def Db.setRestoreState (target : RestoreState) (now : Time) : Db :=
  { db with metadata := { db.metadata with restoreState := target, updatedAt := now } }

def requireRestoreState (expected target : RestoreState) : Except StorageError Unit :=
  require (db.metadata.restoreState = expected)
    (.invalidRestoreTransition db.metadata.restoreState target)

def transitionRestore (source target : RestoreState) (now : Time) : Except StorageError Db := do
  requireRestoreState db source target
  return (db.setRestoreState target now).log ("restore." ++ target.asStr) none now

variable (now : Time)

def beginSnapshot : Except StorageError Db :=
  transitionRestore db .normal .snapshotting now

def finishSnapshot : Except StorageError Db :=
  transitionRestore db .snapshotting .normal now

def beginRecovering : Except StorageError Db :=
  transitionRestore db .cutover .recovering now

def finishRecovery : Except StorageError Db :=
  transitionRestore db .recovering .normal now

/-- Unfinished ceremonies are invalidated. -/
def beginRestorePrecheck : Except StorageError Db := do
  requireRestoreState db .normal .restorePrecheck
  let ceremonies := db.ceremonies.update
    (fun c => c.epoch = db.metadata.epoch ∧ c.completedAt = none ∧ c.invalidatedAt = none)
    (fun c => { c with invalidatedAt := some now }) (CeremonyRow.id_invalidated now)
  return ({ db with ceremonies := ceremonies }.setRestoreState .restorePrecheck now).log
    "restore.restore_precheck" none now

/-- The statuses of an intent that a cutover invalidates. -/
def IntentStatus.isOpen (s : IntentStatus) : Bool := s = .pending ∨ s = .approved ∨ s = .signing

/-- The next epoch; jobs and operations are left as they are. -/
def cutoverRestore : Except StorageError Db := do
  requireRestoreState db .restorePrecheck .cutover
  let epoch := db.metadata.epoch + 1
  require (epoch < 2 ^ 64) (.invalidStoredValue "wallet epoch overflow")
  require (epoch ≤ maxInteger) .sqlite
  let ceremonies := db.ceremonies.update
    (fun c => c.epoch < epoch ∧ c.completedAt = none ∧ c.invalidatedAt = none)
    (fun c => { c with invalidatedAt := some now }) (CeremonyRow.id_invalidated now)
  let authorizations := db.authorizations.update
    (fun a => a.epoch < epoch ∧ a.consumedAt = none ∧ a.invalidatedAt = none)
    (fun a => { a with invalidatedAt := some now }) fun _ => rfl
  let nonceClaims := db.nonceClaims.update (fun n => n.epoch < epoch ∧ n.invalidatedAt = none)
    (fun n => { n with invalidatedAt := some now }) fun _ => rfl
  let intents := db.intents.update (fun i => i.epoch < epoch ∧ i.status.isOpen)
    (fun i => { i with status := .invalidated, updatedAt := now }) fun _ => rfl
  return { db with
    metadata := { db.metadata with epoch := epoch, restoreState := .cutover, updatedAt := now }
    ceremonies := ceremonies
    authorizations := authorizations
    nonceClaims := nonceClaims
    intents := intents
    materials := db.materials.deleteWhere fun m => m.kind = MaterialKind.nodeSnapshot }.log
    "restore.cutover" none now

inductive CrashRecoveryKind where
  | rolledBack | continued | cleanedOrphan

structure CrashRecoveryOutcome where
  kind : CrashRecoveryKind
  recoveryId : Option Uuid
  occurredAt : Time

def CrashRecoveryOutcome.eventType (o : CrashRecoveryOutcome) : String :=
  match o.kind with
  | .rolledBack => "restore.crash_rolled_back"
  | .continued => "restore.crash_continued"
  | .cleanedOrphan => "restore.orphan_cleaned"

/-- `record_cutover_recovery`, which an opening runs after a recovery. -/
def recordCutoverRecovery (o : CrashRecoveryOutcome) : Db :=
  if o.recoveryId.any fun id => db.audit.any fun e =>
      e.eventType = o.eventType ∧ e.subjectId = some (.uuid id) then db
  else
    let db' :=
      if o.eventType = "restore.crash_rolled_back" ∧ db.metadata.restoreState = .restorePrecheck
      then db.setRestoreState .normal o.occurredAt else db
    db'.log o.eventType (o.recoveryId.map .uuid) o.occurredAt

inductive Call where
  | registry (c : RegistryCall)
  | createTransactionIntent (intent : NewTransactionIntent)
  | createTransactionIntentV2 (intent : NewTransactionIntentV2) (material : MaterialRow)
  | transitionTransactionIntent (id : Uuid) (expected next : IntentStatus) (now : Time)
  | beginApprovalCeremonyAtomic (c : NewApprovalCeremony)
  | beginPasskeyApproval (c : NewApprovalCeremony) (binding : CeremonyBinding)
  | approveAndIssueAuthorization (d : ApprovalDecision)
  | completePasskeyApprovalAtomic (c : PasskeyApprovalCompletion)
  | createSigningJob (authorizationId : Uuid) (job : NewSigningJob) (digest : Bytes32) (now : Time)
  | claimChainExecutor (c : ChainExecutorClaim)
  | completeSigningJob (jobId : Uuid) (digest : Bytes32) (signature : Bytes) (now : Time)
  | terminateSigningJob (jobId : Uuid) (digest : Bytes32) (status : SigningJobStatus)
      (reason : String) (now : Time)
  | consumeAuthorization (authorizationId : Uuid) (epoch : ℕ) (now : Time)
  | claimNonce (fingerprint sessionId : Bytes32) (now : Time)
  | createPersonalSigningOperation (authorizationId : Uuid) (o : NewPersonalSigningOperation)
      (now : Time)
  | recordPersonalSigningReceipt (r : ReceiptRow)
  | freezePersonalSigningOperation (id : Uuid) (digest : Bytes32) (package : Bytes) (now : Time)
  | completePersonalSigningOperation (id : Uuid) (digest : Bytes32) (signature : Bytes)
      (now : Time)
  | terminatePersonalSigningOperation (id : Uuid) (digest : Bytes32) (status : OperationStatus)
      (reason : String) (now : Time)
  | claimFrostNonce (c : FrostNonceAuthorizationClaim)
  | claimSignerRequestNonce (identity : ProviderIdentity) (context : SignerRequestContext)
      (now : Time)
  | beginSnapshot (now : Time)
  | finishSnapshot (now : Time)
  | beginRestorePrecheck (now : Time)
  | cutoverRestore (now : Time)
  | beginRecovering (now : Time)
  | finishRecovery (now : Time)
  /-- the database part of an opening -/
  | startup (now : Time)
  | recordCutoverRecovery (o : CrashRecoveryOutcome)

def step : Call → Except StorageError Db
  | .registry c => registryCall P db c
  | .createTransactionIntent intent => createTransactionIntent db intent
  | .createTransactionIntentV2 intent material => createTransactionIntentV2 P db intent material
  | .transitionTransactionIntent id expected next now =>
    transitionTransactionIntent db id expected next now
  | .beginApprovalCeremonyAtomic c => beginApprovalCeremonyAtomic db c
  | .beginPasskeyApproval c binding => beginPasskeyApproval db c binding
  | .approveAndIssueAuthorization d => approveAndIssueAuthorization db d
  | .completePasskeyApprovalAtomic c => completePasskeyApprovalAtomic P db c
  | .createSigningJob authorizationId job digest now =>
    createSigningJob db authorizationId job digest now
  | .claimChainExecutor c => claimChainExecutor db c
  | .completeSigningJob jobId digest signature now =>
    completeSigningJob db jobId digest signature now
  | .terminateSigningJob jobId digest status reason now =>
    terminateSigningJob db jobId digest status reason now
  | .consumeAuthorization authorizationId epoch now =>
    consumeAuthorization db authorizationId epoch now
  | .claimNonce fingerprint sessionId now => claimNonce db fingerprint sessionId now
  | .createPersonalSigningOperation authorizationId o now =>
    consumeAuthorizationAndCreatePersonalSigningOperation P db authorizationId o now
  | .recordPersonalSigningReceipt r => recordPersonalSigningReceipt db r
  | .freezePersonalSigningOperation id digest package now =>
    freezePersonalSigningOperation db id digest package now
  | .completePersonalSigningOperation id digest signature now =>
    completePersonalSigningOperation db id digest signature now
  | .terminatePersonalSigningOperation id digest status reason now =>
    terminatePersonalSigningOperation db id digest status reason now
  | .claimFrostNonce c => consumeAuthorizationAndClaimFrostNonce db c
  | .claimSignerRequestNonce identity context now =>
    claimSignerRequestNonce P db identity context now
  | .beginSnapshot now => beginSnapshot db now
  | .finishSnapshot now => finishSnapshot db now
  | .beginRestorePrecheck now => beginRestorePrecheck db now
  | .cutoverRestore now => cutoverRestore db now
  | .beginRecovering now => beginRecovering db now
  | .finishRecovery now => finishRecovery db now
  | .startup now => .ok (invalidateUnfinishedCeremoniesOnStartup db now)
  | .recordCutoverRecovery o => .ok (recordCutoverRecovery db o)

end Catomicals.WalletStorage
