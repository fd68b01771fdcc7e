import Catomicals.WalletCore.SigningOperation

/-!
# What a call of the signing coordinator does

A call changes at most one live operation and at most one record or receipt. If it fails, the books
are as before, but the machine of the operation may have moved on: that is a slip.
-/
namespace Catomicals.WalletCore.PersonalSigningCoordinator

open Base Method WalletStorage ThresholdSigner ThresholdSessionMachine List

variable {S : CoordinatorSuite} {K : PersonalSigningStore} {α β : Type} {now : Time}
  {draw : UInt16 → Bytes32} (c : PersonalSigningCoordinator S K)

def books : Books := K.books c.store

/-- The coordinator with other live operations and other books. -/
structure Ends (operations : Table Uuid (LiveOperation S)) (b : Books)
    (c' : PersonalSigningCoordinator S K) : Prop where
  profile : c'.profile = c.profile
  identities : c'.identities = c.identities
  operations : c'.operations = operations
  books : c'.books = b

/-- The machine of a live operation moves on in a call that fails. -/
inductive Slip (live : LiveOperation S) :
    PersonalSigningError → S.Machine → Prop
  | closed {e now m'} (hcloses : live.machine.Closes now m') :
      Slip live e m'
  | commitment {e signerId context p commitment now m'}
      (hcontext : live.roundOneContexts.get signerId = some context)
      (hparticipant : live.participants.get signerId = some p)
      (hcommits : live.machine.Commits p commitment now m') (hstorage : e.isStorage = true) :
      Slip live e m'
  | freeze {e now session m'} (hfreezes : live.machine.Freezes now session m') : Slip live e m'
  | share {e signerId context p share now m'}
      (hcontext : live.roundTwoContexts.get signerId = some context)
      (hparticipant : live.participants.get signerId = some p)
      (hshares : live.machine.Shares p share now m') (hstorage : e.isStorage = true) :
      Slip live e m'
  | finalize {e now m'} (hfinalizes : live.machine.Finalizes now m') : Slip live e m'

/-- A response answers a request of the coordinator. -/
def Answers (S : CoordinatorSuite) (contexts : Table UInt16 SignerRequestContext)
    (signerId : UInt16) (requestBindingDigest : Bytes32) : Prop :=
  ∃ context, contexts.get signerId = some context ∧
    requestBindingDigest = bindingDigest S.toPlatform context

/-- The call passes the checks of the coordinator and gives the machine a cause to close: its
deadline is over, a participant is not the bound one, a share does not verify, or the shares give no
signature that can be written. -/
def Endangers : Call → Prop
  | .acceptRoundOne id signerId response now => ∃ live p commitment,
      c.operations.get id = some live ∧
      Answers S live.roundOneContexts signerId response.requestBindingDigest ∧
      (S.decodeHex response.commitmentHex).bind S.deserializeCommitments = some commitment ∧
      live.participants.get signerId = some p ∧ live.machine.phase.isTerminal = false ∧
      (live.machine.deadline < now ∨ live.machine.phase = .collectingCommitments ∧
        live.machine.participants.get p.signerId ≠ some p)
  | .freezeCommitments id now _ => ∃ live, c.operations.get id = some live ∧
      live.roundOneContexts.card = 0 ∧ live.machine.phase.isTerminal = false ∧
      live.machine.deadline < now
  | .acceptRoundTwo id signerId response now => ∃ live p share,
      c.operations.get id = some live ∧
      Answers S live.roundTwoContexts signerId response.requestBindingDigest ∧
      (S.decodeHex response.signatureShareHex).bind S.deserializeShare = some share ∧
      live.participants.get signerId = some p ∧ live.machine.phase.isTerminal = false ∧
      (live.machine.deadline < now ∨ live.machine.RejectsShare p share)
  | .finalize id now => ∃ live, c.operations.get id = some live ∧
      live.roundTwoContexts.card = 0 ∧ live.machine.phase.isTerminal = false ∧
      (live.machine.deadline < now ∨ live.machine.phase = .collectingShares ∧
        live.machine.minSigners.toNat ≤ live.machine.shares.card ∧
        ∀ signature bytes, live.machine.Aggregates signature →
          signatureToBytes S signature ≠ .ok bytes)
  | _ => False

/-- The store does not record the receipt of the share that the call brings. -/
def FailsToRecord : Call → Prop
  | .acceptRoundTwo id signerId response now => ∃ live context payload e,
      c.operations.get id = some live ∧ live.roundTwoContexts.get signerId = some context ∧
      S.decodeHex response.signatureShareHex = some payload ∧
      (K.recordReceipt (receiptFor id signerId .signatureShare context
        response.requestBindingDigest payload now) c.store).1 = .error e
  | _ => False

/-- The error of a call, if it fails, and the live operations and books it leaves. -/
inductive Effect (c : PersonalSigningCoordinator S K) (call : Call) :
    Option PersonalSigningError → Table Uuid (LiveOperation S) → Books → Prop
  | same {failure} : Effect c call failure c.operations c.books
  | slipped {e id live m'} (hlive : c.operations.get id = some live) (hslip : Slip live e m')
      (hcause : m'.phase.isTerminal = true → e.isStorage = true ∨ c.Endangers call)
      (hshares : m'.shares = live.machine.shares ∨ c.FailsToRecord call) :
      Effect c call (some e) (c.operations.put id { live with machine := m' }) c.books
  | opened {request now draw machine participants contexts}
      (hinactive : c.operations.get request.operationId = none)
      (hunknown : c.books.record request.operationId = none)
      (hunreceived : ∀ signerId round,
        c.books.receipt (request.operationId, signerId, round) = none)
      (hpair : validatePair request.selectedParticipants = .ok ())
      (hbound : boundParticipants c.identities request.selectedParticipants
        (newRecord S c.profile request now).operationBindingDigest = .ok participants)
      (hmachine : newMachine c.profile request.sessionId request.taprootSighash
        request.policyDigest c.profile.minSigners request.expiresAt request.selectedParticipants
        participants now = .ok machine)
      (hcontexts : requestContexts c.identities (newRecord S c.profile request now).row draw
        (pairSigners request.selectedParticipants) = .ok contexts) :
      Effect c call none (c.operations.put request.operationId
        ⟨(newRecord S c.profile request now).row, machine, participants, contexts, .empty⟩)
        (c.books.setRecord (newRecord S c.profile request now).row)
  | committed {id live signerId context p digest payload commitment now m' b}
      (hlive : c.operations.get id = some live)
      (hcontext : live.roundOneContexts.get signerId = some context)
      (hpayload : S.deserializeCommitments payload = some commitment)
      (hparticipant : live.participants.get signerId = some p)
      (hcommits : live.machine.Commits p commitment now m')
      (hreceived : c.books.Received
        (receiptFor id signerId .commitment context digest payload now) b) :
      Effect c call none (c.operations.put id { live with
        machine := m', roundOneContexts := live.roundOneContexts.delete signerId }) b
  | frozen {failure id live now session m' package contexts b draw}
      (hlive : c.operations.get id = some live) (hempty : live.roundOneContexts.card = 0)
      (hfreezes : live.machine.Freezes now session m')
      (hpackage : S.serializePackage session.signingPackage = .ok package)
      (hmoved : c.books.Moved id (· = .collectingCommitments) (frozenRow package now) b)
      (hcontexts :
        requestContexts c.identities (frozenRow package now live.record) draw
          (pairSigners live.record.selectedParticipants) = .ok contexts ∨
        ∃ e, requestContexts c.identities (frozenRow package now live.record) draw
          (pairSigners live.record.selectedParticipants) = .error e ∧ failure = some e ∧
          contexts = live.roundTwoContexts) :
      Effect c call failure (c.operations.put id { live with
        record := frozenRow package now live.record, machine := m',
        roundTwoContexts := contexts }) b
  | shared {id live signerId context p digest payload share now m' b}
      (hlive : c.operations.get id = some live)
      (hcontext : live.roundTwoContexts.get signerId = some context)
      (hpayload : S.deserializeShare payload = some share)
      (hparticipant : live.participants.get signerId = some p)
      (hshares : live.machine.Shares p share now m')
      (hreceived : c.books.Received
        (receiptFor id signerId .signatureShare context digest payload now) b) :
      Effect c call none (c.operations.put id { live with
        machine := m', roundTwoContexts := live.roundTwoContexts.delete signerId }) b
  | finalized {id live now m' signature b} (hlive : c.operations.get id = some live)
      (hfinalizes : live.machine.Finalizes now m')
      (hmoved : c.books.Moved id (· = .collectingShares) (completedRow signature now) b) :
      Effect c call none (c.operations.put id { live with
        record := completedRow signature now live.record, machine := m' }) b
  | expired {failure id live now m' b}
      (hlive : c.operations.get id = some live) (hcloses : live.machine.Closes now m')
      (hmoved : c.books.Moved id (fun old => !operationOver old)
        (terminatedRow .expired "deadline" now) b)
      (hfailure : failure = none ∨ ∃ draw e, failure = some e ∧
        abortDispatches c.identities (terminatedRow .expired "deadline" now live.record) draw
          "deadline" = .error e) :
      Effect c call failure (c.operations.put id { live with
        record := terminatedRow .expired "deadline" now live.record, machine := m' }) b

/-- The effect of a call, together with what no call changes. -/
def Effects (call : Call) (failure : Option PersonalSigningError)
    (c' : PersonalSigningCoordinator S K) : Prop :=
  ∃ operations b, c.Effect call failure operations b ∧ c.Ends operations b c'

def failureOf : Except PersonalSigningError α → Option PersonalSigningError
  | .ok _ => none
  | .error e => some e

/-- The rest of a call of `c` that has led to `c₁` ends as `R` says, or fails with an effect on
`c`. -/
def Does (call : Call) (c₁ : PersonalSigningCoordinator S K) (x : Action S K α)
    (R : α → PersonalSigningCoordinator S K → Prop) : Prop :=
  x.wp (fun r c' =>
    match r with
    | .ok a => R a c'
    | .error e => c.Effects call (some e) c') c₁

variable {c c₁ : PersonalSigningCoordinator S K} {call : Call} {f : β → Action S K α} {id : Uuid}
  {live : LiveOperation S} {R : α → PersonalSigningCoordinator S K → Prop}

lemma effects_same (failure : Option PersonalSigningError) : c.Effects call failure c :=
  ⟨_, _, .same, rfl, rfl, rfl, rfl⟩

variable {s : K.State}

lemma Effects.setStore {failure : Option PersonalSigningError} (h : c.Effects call failure c₁)
    (hbooks : K.books s = c₁.books) :
    c.Effects call failure (c₁.setStore s) := by
  obtain ⟨operations, b, heff, hends⟩ := h
  exact ⟨operations, b, heff, hends.profile, hends.identities, hends.operations,
    hbooks.trans hends.books⟩

@[simp] lemma updateOperation_insertOperation (o : LiveOperation S)
    (g : LiveOperation S → LiveOperation S) :
    (c.insertOperation id o).updateOperation id g = c.insertOperation id (g o) := by
  simp [updateOperation, insertOperation, Table.put_put]

lemma updateOperation_of_get (hlive : c.operations.get id = some live)
    (g : LiveOperation S → LiveOperation S) :
    c.updateOperation id g = c.insertOperation id (g live) := by
  simp only [updateOperation, hlive]

lemma insertOperation_of_get (hlive : c.operations.get id = some live) :
    c.insertOperation id live = c := by
  simp only [insertOperation, Table.put_of_get_eq_some hlive]

@[simp] lemma updateOperation_setStore (s : K.State) (g : LiveOperation S → LiveOperation S) :
    (c.setStore s).updateOperation id g = (c.updateOperation id g).setStore s := by
  simp only [updateOperation, setStore]
  split <;> rfl

@[simp] lemma identities_setStore (s : K.State) : (c.setStore s).identities = c.identities := rfl

@[simp] lemma identities_insertOperation (o : LiveOperation S) :
    (c.insertOperation id o).identities = c.identities := rfl

lemma ends_insertOperation (s : K.State) (o : LiveOperation S) :
    c.Ends (c.operations.put id o) (K.books s) ((c.insertOperation id o).setStore s) :=
  ⟨rfl, rfl, rfl, rfl⟩

lemma does_check {x : Except PersonalSigningError β} (hkept : ∀ e, c.Effects call (some e) c₁)
    (hf : ∀ b, x = .ok b → c.Does call c₁ (f b) R) : c.Does call c₁ (lift x >>= f) R :=
  wp_lift_bind hkept hf

lemma does_live {f : LiveOperation S → Action S K α}
    (hf : ∀ live, c.operations.get id = some live → c.Does call c (f live) R) :
    c.Does call c (liveOperation id >>= f) R := by
  simp only [Does, liveOperation, wp_iff]
  constructor
  · intro live hlive
    exact hf live hlive
  · intro _
    exact effects_same _

lemma shares_of_closes {m m' : S.Machine} (h : m.Closes now m') : m'.shares = m.shares := by
  obtain ⟨-, _, -, -, _, _, _, rfl⟩ := h
  rfl

/-- A call of the machine: it goes on with the machine moved, or fails and at most closes the
session for a cause. -/
lemma does_machine {x : ThresholdSessionMachine.Action S.toFrostSuite β} {M : β → S.Machine → Prop}
    {cause : Prop} (hlive : c.operations.get id = some live) (hx : live.machine.Calls now x M)
    (hcloses : live.machine.ClosesFor cause x)
    (hdanger : live.machine.phase.isTerminal = false → cause → c.Endangers call)
    (hf : ∀ a m', M a m' → c.Does call (c.insertOperation id { live with machine := m' }) (f a) R) :
    c.Does call c (onMachine id live x >>= f) R := by
  rw [Does, wp_bind, onMachine, wp_zoom]
  rw [Calls, wp] at hx
  rw [ClosesFor, wp] at hcloses
  rw [wp, updateOperation_of_get hlive]
  cases hr : (x live.machine).1 with
  | ok a =>
    rw [hr] at hx
    exact hf a _ hx
  | error e =>
    rw [hr] at hx hcloses
    have hsame : (x live.machine).2 = live.machine → c.Effects call (some (.machine e))
        (c.insertOperation id { live with machine := (x live.machine).2 }) := by
      intro hm
      rw [hm, insertOperation_of_get hlive]
      exact effects_same _
    rcases hx.1 with hm | hclosed
    · exact hsame hm
    · rcases hcloses with ⟨_, habs⟩ | hm | hcause
      · cases habs
      · exact hsame hm
      · exact ⟨_, _, .slipped hlive (.closed hclosed) (fun _ => .inr (hdanger hclosed.1 hcause))
          (.inl (shares_of_closes hclosed)), rfl, rfl, rfl, rfl⟩

variable {x : Method K.State PersonalSigningError β}

lemma wp_onStore_bind {B : β → Books → Prop}
    {Q : Except PersonalSigningError α → PersonalSigningCoordinator S K → Prop}
    (hx : Keeps K.books c₁.store x B)
    (herror : ∀ e s, e.isStorage = true → K.books s = c₁.books → Q (.error e) (c₁.setStore s))
    (hf : ∀ b s, B b (K.books s) → (f b).wp Q (c₁.setStore s)) : (onStore x >>= f).wp Q c₁ := by
  rw [wp_bind, onStore, wp_zoom]
  apply wp_mono hx
  intro r s hr
  cases r with
  | ok b => exact hf b s hr
  | error e => exact herror e s hr.1 hr.2

lemma does_store {B : β → Books → Prop} (hx : Keeps K.books c₁.store x B)
    (hkept : ∀ e, (x c₁.store).1 = .error e → e.isStorage = true → c.Effects call (some e) c₁)
    (hf : ∀ b s, B b (K.books s) → c.Does call (c₁.setStore s) (f b) R) :
    c.Does call c₁ (onStore x >>= f) R := by
  rw [Does, wp_bind, onStore, wp_zoom, wp]
  rw [Keeps, wp] at hx
  cases hr : (x c₁.store).1 with
  | ok b =>
    rw [hr] at hx
    exact hf b _ hx
  | error e =>
    rw [hr] at hx
    exact (hkept e hr hx.1).setStore hx.2

section Contexts

variable {identities : Table UInt16 ProviderIdentity}

lemma mem_pairSigners {pair : UInt16 × UInt16} {signerId : UInt16} :
    signerId ∈ pairSigners pair ↔ signerId = pair.1 ∨ signerId = pair.2 := by
  simp [pairSigners]

lemma boundParticipants_eq_ok {pair : UInt16 × UInt16} {binding : Bytes32}
    {participants : Table UInt16 BoundParticipant} :
    boundParticipants identities pair binding = .ok participants ↔
      ∃ first second, identities.get pair.1 = some first ∧ identities.get pair.2 = some second ∧
        participants = (Table.empty.put pair.1
          ⟨pair.1, first.deviceId, first.deviceGeneration, binding⟩).put pair.2
          ⟨pair.2, second.deviceId, second.deviceGeneration, binding⟩ := by
  simp only [boundParticipants, boundParticipant, ok_iff]
  constructor
  · rintro ⟨_, ⟨first, hfirst, rfl⟩, _, ⟨second, hsnd, rfl⟩, rfl⟩
    exact ⟨first, second, hfirst, hsnd, rfl⟩
  · rintro ⟨first, second, hfirst, hsnd, rfl⟩
    exact ⟨_, ⟨first, hfirst, rfl⟩, _, ⟨second, hsnd, rfl⟩, rfl⟩

/-- The context of a signer, if it is one of `signers`. -/
def contextFor (identities : Table UInt16 ProviderIdentity)
    (operation : OperationRow) (draw : UInt16 → Bytes32) (signers : List UInt16)
    (signerId : UInt16) : Option SignerRequestContext :=
  if signerId ∈ signers then
    (identities.get signerId).map fun identity => requestContext operation identity (draw signerId)
  else none

variable {operation : OperationRow} {signers : List UInt16}

lemma isSome_contextFor (hknown : ∀ s ∈ signers, (identities.get s).isSome = true) {s : UInt16} :
    (contextFor identities operation draw signers s).isSome = true ↔ s ∈ signers := by
  rw [contextFor]
  split_ifs with hs
  · simpa [hs] using hknown s hs
  · simp [hs]

lemma foldlM_contexts (operation : OperationRow) (draw : UInt16 → Bytes32)
    (hknown : ∀ s ∈ signers, (identities.get s).isSome = true)
    (start : Table UInt16 SignerRequestContext) :
    ∃ contexts, signers.foldlM (fun contexts signerId => do
        let identity ← orError (identities.get signerId) .providerIdentityDrift
        return contexts.put signerId (requestContext operation identity (draw signerId))) start =
        (.ok contexts : Except PersonalSigningError _) ∧
      ∀ s, contexts.get s = if s ∈ signers then contextFor identities operation draw signers s
        else start.get s := by
  induction signers generalizing start with
  | nil => exact ⟨start, rfl, fun s => by simp⟩
  | cons signer rest ih =>
    obtain ⟨identity, hident⟩ := Option.isSome_iff_exists.mp
      (hknown signer mem_cons_self)
    obtain ⟨contexts, hfold, hget⟩ := ih (fun s hs => hknown s (mem_cons_of_mem _ hs))
      (start.put signer (requestContext operation identity (draw signer)))
    refine ⟨contexts, ?_, ?_⟩
    · rw [foldlM_cons, hident]
      exact hfold
    · intro s
      rw [hget]
      by_cases hrest : s ∈ rest
      · simp [hrest, contextFor]
      · by_cases hs : s = signer
        · subst hs
          simp [hrest, contextFor, hident]
        · simp [hrest, hs]

lemma requestContexts_ok (operation : OperationRow) (draw : UInt16 → Bytes32)
    (hknown : ∀ s ∈ signers, (identities.get s).isSome = true) :
    ∃ contexts, requestContexts identities operation draw signers = .ok contexts ∧
      ∀ s, contexts.get s = contextFor identities operation draw signers s := by
  obtain ⟨contexts, hfold, hget⟩ := foldlM_contexts operation draw hknown .empty
  refine ⟨contexts, hfold, ?_⟩
  intro s
  rw [hget]
  split_ifs with hs
  · rfl
  · simp [contextFor, hs]

lemma get_requestContexts {contexts : Table UInt16 SignerRequestContext}
    (h : requestContexts identities operation draw signers = .ok contexts) (s : UInt16) :
    contexts.get s = contextFor identities operation draw signers s := by
  have hknown : ∀ s ∈ signers, (identities.get s).isSome = true := by
    rw [requestContexts] at h
    generalize Table.empty = start at h
    induction signers generalizing start with
    | nil => simp
    | cons _ _ ih =>
      simp only [foldlM_cons, ok_iff] at h
      obtain ⟨_, ⟨_, hident, rfl⟩, hrest⟩ := h
      intro s hs
      rcases mem_cons.mp hs with rfl | hs
      · rw [hident]; rfl
      · exact ih _ hrest s hs
  obtain ⟨contexts', hctxs', hget⟩ := requestContexts_ok operation draw hknown
  obtain rfl : contexts' = contexts := Except.ok.inj (hctxs'.symm.trans h)
  exact hget s

end Contexts

lemma acceptRoundOne_does (signerId : UInt16) (response : SignerRoundOneResponse) (now : Time) :
    c.Does (.acceptRoundOne id signerId response now) c (acceptRoundOne id signerId response now)
      fun _ c' => c.Effects (.acceptRoundOne id signerId response now) none c' := by
  apply does_live
  intro _ hlive
  apply does_check fun _ => effects_same _
  intro _ hcontext
  apply does_check fun _ => effects_same _
  intro _ hdigest
  apply does_check fun _ => effects_same _
  intro _ hpayload
  apply does_check fun _ => effects_same _
  intro commitment hcom
  apply does_check fun _ => effects_same _
  intro p hp
  rw [orError_eq_ok] at hcontext hpayload hcom hp
  rw [require_eq_ok] at hdigest
  apply does_machine hlive (addCommitment_calls p commitment) (addCommitment_closesFor commitment)
  · intro hrun hcause
    exact ⟨_, p, commitment, hlive, ⟨_, hcontext, hdigest⟩, by rw [hpayload]; exact hcom, hp, hrun,
      hcause⟩
  intro _ _ hcommits
  apply does_store (K.recordReceipt_keeps _ _)
  · intro e _ hstorage
    refine ⟨_, _, .slipped hlive (.commitment hcontext hp hcommits hstorage)
      (fun _ => .inl hstorage) (.inl ?_), rfl, rfl, rfl, rfl⟩
    obtain ⟨-, -, -, _, -, -, rfl⟩ := hcommits
    rfl
  · intro _ s hbooks
    simp only [Does, wp_iff, updateOperation_setStore, updateOperation_insertOperation]
    exact ⟨_, _, .committed hlive hcontext hcom hp hcommits hbooks, ends_insertOperation s _⟩

lemma acceptRoundTwo_does (signerId : UInt16) (response : SignerRoundTwoResponse) (now : Time) :
    c.Does (.acceptRoundTwo id signerId response now) c (acceptRoundTwo id signerId response now)
      fun _ c' => c.Effects (.acceptRoundTwo id signerId response now) none c' := by
  apply does_live
  intro _ hlive
  apply does_check fun _ => effects_same _
  intro _ hcontext
  apply does_check fun _ => effects_same _
  intro _ hdigest
  apply does_check fun _ => effects_same _
  intro _ hpayload
  apply does_check fun _ => effects_same _
  intro share hshare
  apply does_check fun _ => effects_same _
  intro p hp
  rw [orError_eq_ok] at hcontext hpayload hshare hp
  rw [require_eq_ok] at hdigest
  apply does_machine hlive (addSignatureShare_calls p share) (addSignatureShare_closesFor share)
  · intro hrun hcause
    exact ⟨_, p, share, hlive, ⟨_, hcontext, hdigest⟩, by rw [hpayload]; exact hshare, hp, hrun,
      hcause⟩
  intro _ _ hshares
  apply does_store (K.recordReceipt_keeps _ _)
  · intro e hanswer hstorage
    exact ⟨_, _, .slipped hlive (.share hcontext hp hshares hstorage) (fun _ => .inl hstorage)
      (.inr ⟨_, _, _, e, hlive, hcontext, hpayload, hanswer⟩), rfl, rfl, rfl, rfl⟩
  · intro _ s hbooks
    simp only [Does, wp_iff, updateOperation_setStore, updateOperation_insertOperation]
    exact ⟨_, _, .shared hlive hcontext hshare hp hshares hbooks, ends_insertOperation s _⟩

lemma freezeCommitments_does (now : Time) (draw : UInt16 → Bytes32) :
    c.Does (.freezeCommitments id now draw) c (freezeCommitments id now draw)
      fun _ c' => c.Effects (.freezeCommitments id now draw) none c' := by
  apply does_live
  intro live hlive
  apply does_check fun _ => effects_same _
  intro _ hempty
  rw [require_eq_ok] at hempty
  apply does_machine hlive freezeCommitments_calls freezeCommitments_closesFor
  · intro hrun hlate
    exact ⟨live, hlive, hempty, hrun, hlate⟩
  intro _ m' hfreezes
  have hslip : ∀ e, c.Effects (.freezeCommitments id now draw) (some e)
      (c.insertOperation id { live with machine := m' }) := by
    intro e
    refine ⟨_, _, .slipped hlive (.freeze hfreezes) ?_ (.inl ?_), rfl, rfl, rfl, rfl⟩
    all_goals obtain ⟨-, -, -, -, rfl⟩ := hfreezes
    · rintro ⟨⟩
    · rfl
  apply does_check hslip
  intro package hpackage
  apply does_store (K.freeze_keeps _ _ _ _ _) fun e _ _ => hslip e
  intro _ s hmoved
  rw [mapError_eq_ok] at hpackage
  simp only [Does, setRecord, wp_iff, wp_lift, updateOperation_setStore,
    updateOperation_insertOperation, identities_setStore, identities_insertOperation]
  cases hcontexts : requestContexts c.identities (frozenRow package now live.record) draw
      (pairSigners live.record.selectedParticipants) with
  | ok contexts =>
    exact ⟨_, _, .frozen hlive hempty hfreezes hpackage hmoved (.inl hcontexts),
      ends_insertOperation s _⟩
  | error e =>
    exact ⟨_, _, .frozen hlive hempty hfreezes hpackage hmoved (.inr ⟨e, hcontexts, rfl, rfl⟩),
      ends_insertOperation s _⟩

lemma finalize_does (now : Time) :
    c.Does (.finalize id now) c (finalize id now)
      fun _ c' => c.Effects (.finalize id now) none c' := by
  apply does_live
  intro live hlive
  apply does_check fun _ => effects_same _
  intro _ hempty
  rw [require_eq_ok] at hempty
  apply does_machine hlive finalize_calls finalize_closesFor
  · intro hrun hcause
    refine ⟨live, hlive, hempty, hrun, hcause.imp_right fun ⟨hphase, henough, hnone⟩ => ?_⟩
    exact ⟨hphase, henough, fun signature _ hagg => absurd hagg (hnone signature)⟩
  rintro signature m' ⟨hfinalizes, hagg⟩
  have hslip : ∀ e : PersonalSigningError,
      (e.isStorage = true ∨ ∀ bytes, signatureToBytes S signature ≠ .ok bytes) →
      c.Effects (.finalize id now) (some e) (c.insertOperation id { live with machine := m' }) := by
    intro e hcause
    have hends := hfinalizes
    obtain ⟨hphase, -, henough, hm⟩ := hends
    refine ⟨_, _, .slipped hlive (.finalize hfinalizes) (fun _ => hcause.imp_right fun hbytes =>
      ⟨live, hlive, hempty, by rw [hphase]; rfl, .inr ⟨hphase, henough, ?_⟩⟩)
      (.inl (by rw [hm]; rfl)), rfl, rfl, rfl, rfl⟩
    rintro signature' bytes ⟨session', hfrozen', hok'⟩
    obtain ⟨session, hfrozen, hok⟩ := hagg
    cases hfrozen.symm.trans hfrozen'
    cases hok.symm.trans hok'
    exact hbytes bytes
  cases hbytes : signatureToBytes S signature with
  | error e =>
    apply wp_lift_bind_of_error rfl
    exact hslip _ (.inr fun bytes => by rw [hbytes]; rintro ⟨⟩)
  | ok bytes =>
    apply wp_lift_bind_of_ok rfl
    apply does_store (K.complete_keeps _ _ _ _ _) fun e _ hstorage => hslip e (.inl hstorage)
    intro _ s hmoved
    simp only [Does, setRecord, wp_iff, updateOperation_setStore, updateOperation_insertOperation]
    exact ⟨_, _, .finalized hlive hfinalizes hmoved, ends_insertOperation s _⟩

lemma expire_calls (m : S.Machine) (now : Time) :
    m.Calls now (ThresholdSessionMachine.expire now) fun expired m' =>
      (expired = false ∧ m' = m ∧ (now ≤ m.deadline ∨ m.phase.isTerminal = true)) ∨
        expired = true ∧ m.deadline < now ∧ m.Closes now m' := by
  apply wp_mono (expire_ends m now)
  intro r _ hr
  rcases hr with ⟨rfl, hr⟩ | ⟨rfl, hr⟩
  · exact .inl ⟨rfl, hr⟩
  · exact .inr ⟨rfl, hr⟩

lemma expire_closesFor (m : S.Machine) :
    m.ClosesFor False (ThresholdSessionMachine.expire now) := by
  apply wp_mono (expire_ends m now)
  rintro r _ (⟨rfl, -⟩ | ⟨rfl, -⟩)
  · exact .inl ⟨_, rfl⟩
  · exact .inl ⟨_, rfl⟩

/-- Nothing, if the operation is over or in time, else its abort requests. -/
def Expires (c : PersonalSigningCoordinator S K) (id : Uuid) (now : Time)
    (draw : UInt16 → Bytes32) (termination : Option PersonalSigningTermination) : Prop :=
  ∃ live, c.operations.get id = some live ∧
    match termination with
    | none => now ≤ live.machine.deadline ∨ live.machine.phase.isTerminal = true
    | some t => live.machine.deadline < now ∧
      abortDispatches c.identities (terminatedRow .expired "deadline" now live.record) draw
        "deadline" = .ok t.aborts

lemma expire_does (now : Time) (draw : UInt16 → Bytes32) :
    c.Does call c (expire id now draw) fun t c' =>
      c.Effects call none c' ∧ c.Expires id now draw t := by
  apply does_live
  intro live hlive
  apply does_machine hlive (expire_calls live.machine now) (expire_closesFor live.machine)
    (fun _ hnever => hnever.elim)
  intro _ _ hexp
  rcases hexp with ⟨rfl, rfl, hidle⟩ | ⟨rfl, hlate, hcloses⟩
  · rw [insertOperation_of_get hlive]
    exact ⟨effects_same _, live, hlive, hidle⟩
  · apply does_store (K.terminate_keeps _ _ _ _ _ _)
    · intro e _ hstorage
      exact ⟨_, _, .slipped hlive (.closed hcloses) (fun _ => .inl hstorage)
        (.inl (shares_of_closes hcloses)), rfl, rfl, rfl, rfl⟩
    · intro _ s hmoved
      simp only [Does, setRecord, wp_iff, wp_lift, updateOperation_setStore,
        updateOperation_insertOperation, identities_setStore, identities_insertOperation]
      cases haborts : abortDispatches c.identities
          (terminatedRow .expired "deadline" now live.record) draw "deadline" with
      | ok aborts =>
        exact ⟨⟨_, _, .expired hlive hcloses hmoved.2 (.inl rfl), ends_insertOperation s _⟩, live,
          hlive, hlate, haborts⟩
      | error e =>
        exact ⟨_, _, .expired hlive hcloses hmoved.2 (.inr ⟨draw, e, rfl, haborts⟩),
          ends_insertOperation s _⟩

section Begin

variable {request : BeginPersonalSigningOperation}

structure Prepares (c : PersonalSigningCoordinator S K) (request : BeginPersonalSigningOperation)
    (now : Time) (prepared : PreparedOperation S) : Prop where
  inactive : c.operations.get request.operationId = none
  pair : validatePair request.selectedParticipants = .ok ()
  bound : boundParticipants c.identities request.selectedParticipants
    (newRecord S c.profile request now).operationBindingDigest = .ok prepared.participants
  machine : newMachine c.profile request.sessionId request.taprootSighash
    request.policyDigest c.profile.minSigners request.expiresAt request.selectedParticipants
    prepared.participants now = .ok prepared.machine
  record : prepared.record = newRecord S c.profile request now

lemma prepareOperation_does :
    c.Does call c (prepareOperation request now) fun prepared c' =>
      c.Prepares request now prepared ∧ ∃ s, K.books s = c.books ∧ c' = c.setStore s := by
  rw [Does, prepareOperation, wp_bind, wp_get]
  apply does_check fun _ => effects_same _
  intro _ hinactive
  apply does_store (K.operation_keeps _ _) fun _ _ _ => effects_same _
  rintro _ s ⟨_, hbooks⟩
  have hkept : ∀ e, c.Effects call (some e) (c.setStore s) :=
    fun e => (effects_same (some e)).setStore hbooks
  apply does_check hkept
  intro _ _
  apply does_check hkept
  intro _ hpair
  apply does_check hkept
  intro _ _
  apply does_check hkept
  intro _ hbound
  apply does_check hkept
  intro _ hmachine
  exact ⟨⟨by simpa using hinactive, hpair, hbound, hmachine, rfl⟩, s, hbooks, rfl⟩

lemma activatePrepared_does {prepared : PreparedOperation S}
    (hpreps : c.Prepares request now prepared)
    (hunknown : c.books.record request.operationId = none)
    (hunreceived : ∀ signerId round, c.books.receipt (request.operationId, signerId, round) = none)
    (hcrtd : K.books s = c.books.setRecord (newRecord S c.profile request now).row) :
    c.Does call (c.setStore s) (activatePrepared request.operationId
      (newRecord S c.profile request now).row prepared draw) fun _ c' =>
        c.Effects call none c' := by
  obtain ⟨_, _, hfirst, hsnd, -⟩ := boundParticipants_eq_ok.mp hpreps.bound
  have hknown : ∀ signer ∈ pairSigners request.selectedParticipants,
      (c.identities.get signer).isSome = true := by
    intro _ hsgn
    rcases mem_pairSigners.mp hsgn with rfl | rfl
    · rw [hfirst]; rfl
    · rw [hsnd]; rfl
  obtain ⟨_, hcontexts, -⟩ := requestContexts_ok (newRecord S c.profile request now).row draw hknown
  have hmatches : (newRecord S c.profile request now).row.operationBindingDigest =
      prepared.record.operationBindingDigest ∧
      (newRecord S c.profile request now).row.status = .collectingCommitments :=
    ⟨by rw [hpreps.record]; rfl, rfl⟩
  have hpair : (newRecord S c.profile request now).row.selectedParticipants =
      request.selectedParticipants := rfl
  simp only [Does, activatePrepared, wp_iff, wp_lift, identities_setStore]
  rw [require_pos hmatches, hpair, hcontexts]
  exact ⟨_, _, .opened hpreps.inactive hunknown hunreceived hpreps.pair hpreps.bound
    hpreps.machine hcontexts, rfl, rfl, rfl, hcrtd⟩

lemma beginAuthorized_does (authorization : PersonalOperationAuthorization) :
    c.Does call c (withLocal authorization (beginAuthorized request now draw))
      fun _ c' => c.Effects call none c' := by
  have hprep : c.Does call c (prepareOperation request now) _ := prepareOperation_does
  rw [Does, wp_withLocal, beginAuthorized, wp_bind, holding, wp_zoom]
  apply wp_mono hprep
  intro r _ hr
  cases r with
  | error => exact hr
  | ok prepared =>
    obtain ⟨hpreps, s, hbooks, rfl⟩ := hr
    have hkept : ∀ e, c.Effects call (some e) (c.setStore s) :=
      fun e => (effects_same (some e)).setStore hbooks
    simp only [wp_iff]
    refine ⟨fun _ _ => ?_, fun e _ => hkept _⟩
    have hcreate := K.create_keeps authorization.authorizationId prepared.record now s
    rw [holding, wp_zoom, onStore, wp_zoom]
    apply wp_mono hcreate
    intro r s' hr
    cases r with
    | error e => exact (hkept e).setStore hr.2
    | ok =>
      rw [hpreps.record, hbooks] at hr
      obtain ⟨rfl, hunknown, hunreceived, hcrtd⟩ := hr
      have hactivate : c.Does call (c.setStore s') (activatePrepared request.operationId
          (newRecord S c.profile request now).row prepared draw) fun _ c' =>
            c.Effects call none c' :=
        activatePrepared_does hpreps hunknown hunreceived hcrtd
      simp only [mapError_ok, holding, wp_zoom]
      apply wp_mono hactivate
      intro r _ hr
      cases r with
      | ok => exact hr
      | error => exact hr

end Begin

def Call.isRecovery : Call → Bool
  | .recoverOperation _ _ _ => true
  | _ => false

lemma Does.map {x : Action S K β} (h : c.Does call c x fun _ c' => c.Effects call none c')
    (g : β → Action S K Reply) (hg : ∀ b, ∃ reply, g b = pure reply) :
    (x >>= g).wp (fun r c' => c.Effects call (failureOf r) c') c := by
  rw [wp_bind]
  apply wp_mono h
  intro r c' hr
  cases r with
  | ok b =>
    obtain ⟨_, hreply⟩ := hg b
    show (g b).wp _ c'
    rw [hreply]
    exact hr
  | error => exact hr

variable (c)

/-- What a call other than a recovery can do. -/
theorem step_effects {call : Call} (hcall : call.isRecovery = false) :
    c.Effects call (failureOf (step call c).1) (step call c).2 := by
  cases call with
  | beginAuthorized _ authorization =>
    exact (beginAuthorized_does authorization).map _ fun _ => ⟨_, rfl⟩
  | acceptRoundOne _ signerId response now =>
    exact (acceptRoundOne_does signerId response now).map _ fun _ => ⟨_, rfl⟩
  | freezeCommitments _ now draw =>
    exact (freezeCommitments_does now draw).map _ fun _ => ⟨_, rfl⟩
  | acceptRoundTwo _ signerId response now =>
    exact (acceptRoundTwo_does signerId response now).map _ fun _ => ⟨_, rfl⟩
  | finalize _ now => exact (finalize_does now).map _ fun _ => ⟨_, rfl⟩
  | expire id now draw =>
    have hexpire : c.Does (.expire id now draw) c (expire id now draw) fun _ c' =>
        c.Effects (.expire id now draw) none c' := by
      have h : c.Does (.expire id now draw) c (expire id now draw) _ := expire_does now draw
      apply wp_mono h
      intro r _ hr
      cases r with
      | ok => exact hr.1
      | error => exact hr
    exact hexpire.map _ fun _ => ⟨_, rfl⟩
  | recoverOperation => cases hcall

inductive Recovers (c : PersonalSigningCoordinator S K) (id : Uuid) (now : Time)
    (draw : UInt16 → Bytes32) : Table Uuid (LiveOperation S) → Books → Prop
  | same : Recovers c id now draw c.operations c.books
  | ended {status reason b} (hmoved : c.books.Moved id (fun old => !operationOver old)
        (terminatedRow status reason now) b)
      (hover : operationOver status = true) :
      Recovers c id now draw c.operations b
  | rebuilt {record participants start machine receipts package contexts}
      (hrecord : c.books.record id = some record) (hstatus : record.status = .collectingShares)
      (hprofile : ofProfile S c.profile record)
      (hbound : boundParticipants c.identities record.selectedParticipants
        record.operationBindingDigest = .ok participants)
      (hstart : newMachine c.profile record.sessionId record.taprootSighash record.policyDigest
        record.threshold record.expiresAt record.selectedParticipants participants now =
        .ok start)
      (hreceipts : ∀ r, r ∈ receipts ↔ c.books.receipt r.key = some r ∧ r.operationId = id)
      (hmachine : rebuildMachine record c.identities participants receipts now start =
        .ok (machine, package))
      (hcontexts : requestContexts c.identities record draw
        ((pairSigners record.selectedParticipants).filter fun signerId =>
          signerId ∉ (receipts.filter (·.round = .signatureShare)).map ReceiptRow.signerId) =
        .ok contexts) :
      Recovers c id now draw
        (c.operations.put id ⟨record, machine, participants, .empty, contexts⟩) c.books

/-- The effect of a recovery, together with what no call changes. -/
def Recovered (id : Uuid) (now : Time) (draw : UInt16 → Bytes32)
    (c' : PersonalSigningCoordinator S K) : Prop :=
  ∃ operations b, c.Recovers id now draw operations b ∧ c.Ends operations b c'

variable {c}

section Recovery

/-- How a recovery ends: with an effect, but none on the live operations if it fails. -/
def EndsRecovered (c : PersonalSigningCoordinator S K) (id : Uuid) (now : Time)
    (draw : UInt16 → Bytes32) (r : Except PersonalSigningError α)
    (c' : PersonalSigningCoordinator S K) : Prop :=
  c.Recovered id now draw c' ∧ ∀ e, r = .error e → c'.operations = c.operations

lemma recovered_setStore (hbooks : K.books s = c.books) (r : Except PersonalSigningError α) :
    c.EndsRecovered id now draw r (c.setStore s) :=
  ⟨⟨_, _, .same, rfl, rfl, rfl, hbooks⟩, fun _ _ => rfl⟩

lemma resumeShares_recovers {record : OperationRow} (hbooks : K.books s = c.books)
    (hrecord : c.books.record id = some record) (hstatus : record.status = .collectingShares)
    (hprofile : ofProfile S c.profile record) :
    (resumeShares id record now draw).wp (c.EndsRecovered id now draw) (c.setStore s) := by
  have hkept : ∀ t (r : Except PersonalSigningError PersonalSigningRecovery),
      K.books t = (c.setStore s).books →
        c.EndsRecovered id now draw r ((c.setStore s).setStore t) :=
    fun t r ht => recovered_setStore (ht.trans hbooks) r
  apply wp_lift_bind fun _ => hkept s _ rfl
  intro participants hbound
  apply wp_lift_bind fun _ => hkept s _ rfl
  intro _ hstart
  apply wp_onStore_bind (K.receipts_keeps _ _) fun _ t _ ht => hkept t _ ht
  rintro receipts t ⟨hreceipts, _, ht⟩
  apply wp_lift_bind fun _ => hkept t _ ht
  rintro ⟨machine, package⟩ hmachine
  apply wp_lift_bind fun _ => hkept t _ ht
  intro contexts hcontexts
  have hrcpts' : ∀ r, r ∈ receipts ↔ c.books.receipt r.key = some r ∧ r.operationId = id := by
    rw [← hbooks]
    exact hreceipts
  simp only [wp_iff, wp_ite]
  have hends : c.Recovered id now draw ((c.setStore t).insertOperation id
      ⟨record, machine, participants, .empty, contexts⟩) :=
    ⟨_, _, .rebuilt hrecord hstatus hprofile hbound hstart hrcpts' hmachine hcontexts, rfl, rfl,
      rfl, ht.trans hbooks⟩
  exact ⟨fun _ => ⟨hends, by rintro _ ⟨⟩⟩, fun _ => ⟨hends, by rintro _ ⟨⟩⟩⟩

lemma recoverOperation_recovers :
    (recoverOperation id now draw).wp (c.EndsRecovered id now draw) c := by
  apply wp_onStore_bind (K.operation_keeps _ _) fun _ s _ hs => recovered_setStore hs _
  rintro _ s ⟨hstored, hbooks⟩
  have hkept : ∀ t (r : Except PersonalSigningError PersonalSigningRecovery),
      K.books t = (c.setStore s).books →
        c.EndsRecovered id now draw r ((c.setStore s).setStore t) :=
    fun t r ht => recovered_setStore (ht.trans hbooks) r
  apply wp_lift_bind fun _ => hkept s _ rfl
  intro record hrecord
  rw [orError_eq_ok, hstored] at hrecord
  apply wp_lift_bind fun _ => hkept s _ rfl
  intro _ hprofile
  rw [require_eq_ok] at hprofile
  have hended : ∀ status reason t (a : PersonalSigningRecovery), operationOver status = true →
      (K.books s).Moved id (fun old => !operationOver old) (terminatedRow status reason now)
        (K.books t) → c.EndsRecovered id now draw (.ok a) (c.setStore t) := by
    intro _ _ t a hover hmoved
    rw [hbooks] at hmoved
    exact ⟨⟨_, _, .ended hmoved hover, rfl, rfl, rfl, rfl⟩, nofun⟩
  cases hstatus : record.status with
  | finalized =>
    apply wp_lift_bind fun _ => hkept s _ rfl
    intro _ _
    exact hkept s _ rfl
  | aborted | expired | failed => exact hkept s _ rfl
  | collectingCommitments =>
    apply wp_onStore_bind (K.terminate_keeps _ _ _ _ _ _) fun _ t _ ht => hkept t _ ht
    rintro _ t ⟨hover, hmoved⟩
    exact hended _ _ t _ hover hmoved
  | collectingShares =>
    rw [wp_ite]
    constructor
    · intro _
      apply wp_onStore_bind (K.terminate_keeps _ _ _ _ _ _) fun _ t _ ht => hkept t _ ht
      rintro _ t ⟨hover, hmoved⟩
      exact hended _ _ t _ hover hmoved
    · intro _
      exact resumeShares_recovers hbooks hrecord hstatus hprofile

lemma step_recovers : c.EndsRecovered id now draw (step (.recoverOperation id now draw) c).1
    (step (.recoverOperation id now draw) c).2 := by
  have h : (recoverOperation id now draw).wp (c.EndsRecovered id now draw) c :=
    recoverOperation_recovers
  refine ⟨?_, ?_⟩
  · rw [step, snd_bind_pure]
    exact h.1
  · intro e herror
    rw [step, snd_bind_pure]
    apply h.2 e
    simp only [step, bind] at herror
    rcases hr : recoverOperation id now draw c with ⟨_ | _, _⟩
    · rw [hr] at herror
      cases herror
      rfl
    · simp [hr] at herror

end Recovery

end Catomicals.WalletCore.PersonalSigningCoordinator
