import Catomicals.WalletCore.SigningAgreement
import Catomicals.WalletCore.SigningRebuild

/-!
# Recovery of signing operations

While an operation collects shares, its machine has exactly the commitments and shares of the
receipts, unless the store failed to record a share. A restarted coordinator then rebuilds the lost
machine.
-/
namespace Catomicals.WalletCore.PersonalSigningCoordinator

open Base Table Method PersonalRoundTwoDispatch List WalletStorage ThresholdSigner

variable {S : CoordinatorSuite} {K : PersonalSigningStore} {profile : PersonalSignerProfile}
  {identities : Table UInt16 ProviderIdentity} {live : LiveOperation S} {id : Uuid} {now : Time}
  {draw : UInt16 → Bytes32}

/-- The context is one for the device of a signer of the pair. -/
def ContextOf (identities : Table UInt16 ProviderIdentity) (pair : UInt16 × UInt16)
    (signerId : UInt16) (context : SignerRequestContext) : Prop :=
  (signerId = pair.1 ∨ signerId = pair.2) ∧ ∃ identity, identities.get signerId = some identity ∧
    context.deviceId = identity.deviceId ∧ context.deviceGeneration = identity.deviceGeneration

/-- The operation is of the profile, and its participants, machine and contexts are those of its
record. -/
structure Founded (profile : PersonalSignerProfile) (identities : Table UInt16 ProviderIdentity)
    (live : LiveOperation S) : Prop where
  owned : ofProfile S profile live.record
  bound : boundParticipants identities live.record.selectedParticipants
    live.record.operationBindingDigest = .ok live.participants
  started : ∃ t start, startMachine profile live.record.toNewPersonalSigningOperation
    live.participants t = .ok start ∧ SameSetup start live.machine
  contexts : ∀ {signerId context}, live.roundOneContexts.get signerId = some context ∨
    live.roundTwoContexts.get signerId = some context →
    ContextOf identities live.record.selectedParticipants signerId context

variable {contexts : Table UInt16 SignerRequestContext} {context : SignerRequestContext}
  {pair : UInt16 × UInt16} {p : BoundParticipant} {signerId : UInt16}

section Founded

lemma Founded.deadline (h : Founded profile identities live) :
    live.machine.deadline = live.record.expiresAt := by
  obtain ⟨_, _, hstart, hsame⟩ := h.started
  rw [hsame.deadline, (starts_of_startMachine hstart).deadline]

lemma contextOf_of_requestContexts {operation : OperationRow} {signers : List UInt16}
    (hsgns : ∀ s ∈ signers, s = pair.1 ∨ s = pair.2)
    (hctxs : requestContexts identities operation draw signers = .ok contexts)
    (hget : contexts.get signerId = some context) : ContextOf identities pair signerId context := by
  rw [get_requestContexts hctxs, contextFor] at hget
  split_ifs at hget with hs
  obtain ⟨identity, hident, rfl⟩ := Option.map_eq_some_iff.mp hget
  exact ⟨hsgns signerId hs, identity, hident, rfl, rfl⟩

variable (h : Founded profile identities live)
include h

lemma valid_receiptFor {round : SigningRound} {digest : Bytes32} {payload : Bytes}
    (hctx : ContextOf identities live.record.selectedParticipants signerId context)
    (hnow : now ≤ live.machine.deadline) :
    validateRecoveredReceipt live.record.row identities
      (receiptFor id signerId round context digest payload now) = .ok () := by
  obtain ⟨hsgn, identity, hident, hdevice, hgen⟩ := hctx
  have htime : now ≤ live.record.expiresAt := h.deadline ▸ hnow
  simp only [validateRecoveredReceipt, ok_iff]
  exact ⟨identity, hident, hsgn, hdevice, hgen, htime⟩

lemma Founded.named {i : S.Identifier} (hpart : live.participants.get signerId = some p)
    (hnamed : S.participantIdentifier p.signerId = .ok i) :
    S.participantIdentifier signerId = .ok i :=
  (signerId_of_bound h.bound hpart).1 ▸ hnamed

lemma Founded.update {live' : LiveOperation S}
    (hrecord : live'.record.toNewPersonalSigningOperation =
      live.record.toNewPersonalSigningOperation)
    (hparts : live'.participants = live.participants)
    (hmach : SameSetup live.machine live'.machine)
    (hctxs : ∀ {s context}, live'.roundOneContexts.get s = some context ∨
      live'.roundTwoContexts.get s = some context →
      ContextOf identities live.record.selectedParticipants s context) :
    Founded profile identities live' := by
  obtain ⟨t, start, hstart, hsame⟩ := h.started
  refine ⟨?_, ?_, ⟨t, start, ?_, hsame.trans hmach⟩, ?_⟩
  · have hprof := h.owned
    simp only [ofProfile] at hprof ⊢
    rwa [hrecord]
  · rw [hrecord, hparts]
    exact h.bound
  · rw [hrecord, hparts]
    exact hstart
  · rw [hrecord]
    exact hctxs

end Founded

/-- What was received is in the machine, what is there was received or still has its context, and
nothing was shared yet. -/
structure CollectsCommitments (o : NewPersonalSigningOperation)
    (identities : Table UInt16 ProviderIdentity) (log : SigningRound → UInt16 → Option ReceiptRow)
    (live : LiveOperation S) : Prop where
  committed : Logged (log .commitment) (CommitmentEntry o identities) live.machine.commitments
  pending : ∀ {i v}, live.machine.commitments.get i = some v →
    (∃ s r, log .commitment s = some r ∧ CommitmentEntry o identities r i v) ∨
      ∃ s context, live.roundOneContexts.get s = some context ∧ S.participantIdentifier s = .ok i
  unrecorded : ∀ {s context}, live.roundOneContexts.get s = some context →
    log .commitment s = none
  unshared : live.machine.shares = .empty
  unrequested : live.roundTwoContexts = .empty
  unreceived : ∀ s, log .signatureShare s = none

/-- While shares are collected, the machine has exactly what was received. -/
structure CollectsShares (record : OperationRow) (identities : Table UInt16 ProviderIdentity)
    (log : SigningRound → UInt16 → Option ReceiptRow) (live : LiveOperation S) : Prop where
  frozen : live.machine.phase ≠ .collectingCommitments
  received : Matches record.toNewPersonalSigningOperation identities log live.machine
  package : ∃ package, HasPackage record live.machine package
  unrecorded : ∀ {s context}, live.roundTwoContexts.get s = some context →
    log .signatureShare s = none

/-- What a live operation has in common with its durable record and its receipts. -/
structure Tracks (profile : PersonalSignerProfile) (identities : Table UInt16 ProviderIdentity)
    (b : Books) (id : Uuid) (live : LiveOperation S) : Prop where
  founded : Founded profile identities live
  recorded : ∃ record, b.record id = some record ∧
    record.toNewPersonalSigningOperation = live.record.toNewPersonalSigningOperation ∧
    (record.status = .collectingCommitments →
      CollectsCommitments record.toNewPersonalSigningOperation identities (receiptLog b id) live) ∧
    (record.status = .collectingShares →
      CollectsShares record identities (receiptLog b id) live)

structure SameSession (m m' : S.Machine) : Prop
    extends SameSetup m m' where
  commitments : m'.commitments = m.commitments
  frozenSession : m'.frozenSession = m.frozenSession
  shares : m'.shares = m.shares

variable {log : SigningRound → UInt16 → Option ReceiptRow}

section Machines

variable {m m' : S.Machine}

lemma sameSession_of_closes (h : m.Closes now m') :
    SameSession m m' ∧ m'.phase ≠ .collectingCommitments := by
  obtain ⟨-, _, hterm, -, _, _, _, rfl⟩ := h
  refine ⟨⟨⟨rfl, rfl, rfl, rfl, rfl, rfl⟩, rfl, rfl, rfl⟩, ?_⟩
  rintro rfl
  cases hterm

lemma sameSession_of_finalizes (h : m.Finalizes now m') :
    SameSession m m' ∧ m'.phase ≠ .collectingCommitments := by
  obtain ⟨-, -, -, rfl⟩ := h
  exact ⟨⟨⟨rfl, rfl, rfl, rfl, rfl, rfl⟩, rfl, rfl, rfl⟩, nofun⟩

lemma Matches.sameSession {o : NewPersonalSigningOperation} (h : Matches o identities log m)
    (hsame : SameSession m m') : Matches o identities log m' := by
  have hentry : ShareEntry o identities m' = ShareEntry o identities m :=
    shareEntry_congr hsame.frozenSession hsame.publicKeyPackage
  constructor
  · rw [hsame.frozenSession, hsame.sessionId, hsame.message, hsame.minSigners, hsame.commitments,
      hsame.publicKeyPackage]
    exact h.session
  · rw [hsame.minSigners, hsame.commitments]
    exact h.enough
  · rw [hsame.commitments]
    exact h.committed
  · rw [hsame.commitments]
    exact h.onlyCommitted
  · rw [hsame.shares, hentry]
    exact h.shared
  · rw [hsame.shares, hentry]
    exact h.onlyShared

end Machines

variable {record : OperationRow}

section Tracks

variable {b b' : Books} {m' : S.Machine}

lemma Tracks.of_over {live' : LiveOperation S} (hfounded : Founded profile identities live')
    (hrecord : b.record id = some record)
    (hfixed : record.toNewPersonalSigningOperation = live'.record.toNewPersonalSigningOperation)
    (hover : operationOver record.status = true) : Tracks profile identities b id live' := by
  refine ⟨hfounded, record, hrecord, hfixed, ?_, ?_⟩
  · intro hstatus
    rw [hstatus] at hover
    cases hover
  · intro hstatus
    rw [hstatus] at hover
    cases hover

lemma receiptLog_addReceipt (b : Books) (r : ReceiptRow) (id : Uuid) (round : SigningRound) :
    receiptLog (b.addReceipt r) id round =
      if id = r.operationId ∧ round = r.round then
        addRow (receiptLog b id round) r.signerId r
      else receiptLog b id round := by
  funext signerId
  simp only [receiptLog, Books.receipt_addReceipt, ReceiptRow.key, Prod.mk.injEq]
  by_cases h : id = r.operationId ∧ round = r.round
  · rw [if_pos h]
    simp only [addRow, receiptLog, h.1, h.2, true_and, and_true]
  · rw [if_neg h]
    apply if_neg
    intro hkey
    exact h ⟨hkey.1, hkey.2.2⟩

lemma receiptLog_add (b : Books) (r : ReceiptRow) :
    receiptLog (b.addReceipt r) r.operationId r.round =
      addRow (receiptLog b r.operationId r.round) r.signerId r := by
  rw [receiptLog_addReceipt]
  exact if_pos ⟨rfl, rfl⟩

lemma receiptLog_add_of_ne {r : ReceiptRow} {round : SigningRound} (h : round ≠ r.round) :
    receiptLog (b.addReceipt r) id round = receiptLog b id round := by
  rw [receiptLog_addReceipt]
  exact if_neg fun hround => h hround.2

variable (h : Tracks profile identities b id live)
include h

lemma Tracks.congr (hrecord : b'.record id = b.record id)
    (hrcpts : receiptLog b' id = receiptLog b id) : Tracks profile identities b' id live := by
  refine ⟨h.founded, ?_⟩
  rw [hrecord, hrcpts]
  exact h.recorded

lemma Tracks.sameSession (hsame : SameSession live.machine m' ∧ m'.phase ≠ .collectingCommitments) :
    Tracks profile identities b id { live with machine := m' } := by
  obtain ⟨hsame, hphase⟩ := hsame
  obtain ⟨record, hrecord, hfixed, hcoms, hshares⟩ := h.recorded
  refine ⟨h.founded.update rfl rfl hsame.toSameSetup h.founded.contexts, record, hrecord, hfixed,
    ?_, ?_⟩
  · intro hstatus
    have hold := hcoms hstatus
    refine ⟨?_, ?_, hold.unrecorded, ?_, hold.unrequested, hold.unreceived⟩
    · rw [hsame.commitments]
      exact hold.committed
    · rw [hsame.commitments]
      exact hold.pending
    · rw [hsame.shares]
      exact hold.unshared
  · intro hstatus
    have hold := hshares hstatus
    refine ⟨hphase, hold.received.sameSession hsame, ?_, hold.unrecorded⟩
    obtain ⟨package, hstored, session, hsess, hser⟩ := hold.package
    exact ⟨package, hstored, session, hsame.frozenSession.trans hsess, hser⟩

section Commitments

variable {commitment : S.SigningCommitments}

lemma Tracks.committed {digest : Bytes32} {payload : Bytes}
    (hctx : live.roundOneContexts.get signerId = some context)
    (hpay : S.deserializeCommitments payload = some commitment)
    (hpart : live.participants.get signerId = some p)
    (hcmts : live.machine.Commits p commitment now m')
    (hrecd : b.Received (receiptFor id signerId .commitment context digest payload now) b') :
    Tracks profile identities b' id { live with
      machine := m', roundOneContexts := live.roundOneContexts.delete signerId } := by
  obtain ⟨hphase, htime, -, identifier, hnamed, hnew, rfl⟩ := hcmts
  obtain ⟨record, hrecord, hfixed, hcoms, hshares⟩ := h.recorded
  refine ⟨h.founded.update rfl rfl ⟨rfl, rfl, rfl, rfl, rfl, rfl⟩ ?_, record, ?_, hfixed, ?_, ?_⟩
  · intro s context' hget
    exact h.founded.contexts (hget.imp_left fun hone => (get_delete_eq_some.mp hone).2)
  · rw [hrecd.record]
    exact hrecord
  · intro hstatus
    have hold := hcoms hstatus
    have hfree : receiptLog b id .commitment signerId = none := hold.unrecorded hctx
    obtain rfl := hrecd.1 hfree
    set receipt := receiptFor id signerId .commitment context digest payload now
    have hentry : CommitmentEntry record.toNewPersonalSigningOperation identities receipt
        identifier commitment := by
      rw [hfixed]
      exact ⟨valid_receiptFor h.founded (h.founded.contexts (.inl hctx)) htime,
        h.founded.named hpart hnamed, hpay⟩
    have hlog : receiptLog (b.addReceipt receipt) id .commitment =
        addRow (receiptLog b id .commitment) signerId receipt := receiptLog_add b receipt
    have hlogShares : receiptLog (b.addReceipt receipt) id .signatureShare =
        receiptLog b id .signatureShare := receiptLog_add_of_ne nofun
    refine ⟨?_, ?_, ?_, hold.unshared, hold.unrequested, ?_⟩
    · rw [hlog]
      exact hold.committed.add uniqueEntry_commitment hentry hnew signerId
    · intro i v hget
      change (live.machine.commitments.put identifier commitment).get i = some v at hget
      rw [get_put] at hget
      rw [hlog]
      split_ifs at hget with hi
      · cases hget
        exact .inl ⟨signerId, receipt, if_pos rfl, hi ▸ hentry⟩
      · rcases hold.pending hget with ⟨s, r, hs, hr⟩ | ⟨s, context', hs, hname⟩
        · refine .inl ⟨s, r, ?_, hr⟩
          rw [addRow, if_neg, hs]
          rintro rfl
          simp [hfree] at hs
        · refine .inr ⟨s, context', ?_, hname⟩
          -- the signer is not the one that just committed, whose identifier was free
          show (live.roundOneContexts.delete signerId).get s = some context'
          rw [get_delete, if_neg, hs]
          rintro rfl
          exact hi (Except.ok.inj (hname.symm.trans (h.founded.named hpart hnamed)))
    · intro s _ hget
      obtain ⟨hne, hs⟩ := get_delete_eq_some.mp hget
      rw [hlog, addRow, if_neg hne]
      exact hold.unrecorded hs
    · rw [hlogShares]
      exact hold.unreceived
  · intro hstatus
    exact absurd hphase (hshares hstatus).frozen

lemma Tracks.frozen {package : Bytes} {o : OperationRow} (hempty : live.roundOneContexts.card = 0)
    (hfreezes : live.machine.Freezes now session m')
    (hpkg : S.serializePackage session.signingPackage = .ok package)
    (hpre : b.record id = some o) (hstatus : o.status = .collectingCommitments)
    (hafter : b'.record id = some (frozenRow package now o))
    (hrcpts : receiptLog b' id = receiptLog b id)
    (hctxs : ∀ {s context}, contexts.get s = some context →
      live.roundTwoContexts.get s = some context ∨
        ContextOf identities live.record.selectedParticipants s context) :
    Tracks profile identities b' id { live with
      record := frozenRow package now live.record, machine := m',
      roundTwoContexts := contexts } := by
  obtain ⟨-, -, henough, rfl, rfl⟩ := hfreezes
  obtain ⟨_, hrecord, hfixed, hcoms, -⟩ := h.recorded
  cases hpre.symm.trans hrecord
  have hold := hcoms hstatus
  refine ⟨h.founded.update rfl rfl ⟨rfl, rfl, rfl, rfl, rfl, rfl⟩ ?_, _, hafter, hfixed, ?_, ?_⟩
  · rintro s context (hone | htwo)
    · exact h.founded.contexts (.inl hone)
    · rcases hctxs htwo with hold' | hnew
      · exact h.founded.contexts (.inr hold')
      · exact hnew
  · intro hcoll
    cases hcoll
  · intro _
    rw [hrcpts]
    refine ⟨nofun, ⟨rfl, henough, hold.committed, ?_, .of_empty hold.unreceived, ?_⟩,
      ⟨package, rfl, _, rfl, hpkg⟩, fun _ => hold.unreceived _⟩
    · intro i v hget
      rcases hold.pending hget with hrow | ⟨s, _, hs, -⟩
      · exact hrow
      · simp [get_eq_none_of_card_eq_zero hempty s] at hs
    · intro i v hget
      change live.machine.shares.get i = some v at hget
      simp [hold.unshared, get_empty] at hget

end Commitments

lemma Tracks.shared {share : S.SignatureShare} {digest : Bytes32} {payload : Bytes}
    (hctx : live.roundTwoContexts.get signerId = some context)
    (hpay : S.deserializeShare payload = some share)
    (hpart : live.participants.get signerId = some p)
    (hshares : live.machine.Shares p share now m')
    (hrecd : b.Received (receiptFor id signerId .signatureShare context digest payload now) b') :
    Tracks profile identities b' id { live with
      machine := m', roundTwoContexts := live.roundTwoContexts.delete signerId } := by
  obtain ⟨_, htime, -, identifier, hnamed, hver, hnew, rfl⟩ := hshares
  obtain ⟨record, hrecord, hfixed, hcoms, hcolls⟩ := h.recorded
  refine ⟨h.founded.update rfl rfl ⟨rfl, rfl, rfl, rfl, rfl, rfl⟩ ?_, record, ?_, hfixed, ?_, ?_⟩
  · intro s context' hget
    exact h.founded.contexts (hget.imp_right fun htwo => (get_delete_eq_some.mp htwo).2)
  · rw [hrecd.record]
    exact hrecord
  · intro hstatus
    simp [(hcoms hstatus).unrequested, get_empty] at hctx
  · intro hstatus
    have hold := hcolls hstatus
    have hfree : receiptLog b id .signatureShare signerId = none := hold.unrecorded hctx
    obtain rfl := hrecd.1 hfree
    set receipt := receiptFor id signerId .signatureShare context digest payload now
    have hentry : ShareEntry record.toNewPersonalSigningOperation identities live.machine receipt
        identifier share := by
      rw [hfixed]
      exact ⟨valid_receiptFor h.founded (h.founded.contexts (.inr hctx)) htime,
        h.founded.named hpart hnamed, hpay, hver⟩
    have hlog : receiptLog (b.addReceipt receipt) id .signatureShare =
        addRow (receiptLog b id .signatureShare) signerId receipt := receiptLog_add b receipt
    have hlogCommitments : receiptLog (b.addReceipt receipt) id .commitment =
        receiptLog b id .commitment := receiptLog_add_of_ne nofun
    have hacc : ShareEntry record.toNewPersonalSigningOperation identities
        ((live.machine.accept identifier share).record now .shareAccepted (some p.signerId) none) =
        ShareEntry record.toNewPersonalSigningOperation identities live.machine :=
      shareEntry_congr rfl rfl
    refine ⟨hold.frozen, ⟨hold.received.session, hold.received.enough, ?_, ?_, ?_, ?_⟩,
      hold.package, ?_⟩
    · rw [hlogCommitments]
      exact hold.received.committed
    · rw [hlogCommitments]
      exact hold.received.onlyCommitted
    · simp only [hlog, hacc]
      exact hold.received.shared.add uniqueEntry_share hentry hnew signerId
    · simp only [hlog, hacc]
      exact hold.received.onlyShared.add hfree hentry
    · intro s _ hget
      obtain ⟨hne, hs⟩ := get_delete_eq_some.mp hget
      rw [hlog, addRow, if_neg hne]
      exact hold.unrecorded hs

end Tracks

variable {c c' c₀ : PersonalSigningCoordinator S K}

def Tracked (c : PersonalSigningCoordinator S K) : Prop :=
  ∀ id live, c.operations.get id = some live →
    Tracks c.profile c.identities c.books id live

lemma Tracked.same (h : c.Tracked) (hends : c.Ends c.operations c.books c') : c'.Tracked := by
  intro id live hlive
  rw [hends.operations] at hlive
  rw [hends.profile, hends.identities, hends.books]
  exact h id live hlive

lemma Tracked.put (h : c.Tracked) {b : Books} (hends : c.Ends (c.operations.put id live) b c')
    (hrecs : ∀ id', id' ≠ id → b.record id' = c.books.record id')
    (hrcpts : ∀ id', id' ≠ id → receiptLog b id' = receiptLog c.books id')
    (hat : Tracks c.profile c.identities b id live) : c'.Tracked := by
  intro id' o ho
  rw [hends.operations, get_put] at ho
  rw [hends.profile, hends.identities, hends.books]
  split_ifs at ho with hid
  · cases ho
    rw [hid]
    exact hat
  · exact (h id' o ho).congr (hrecs id' hid) (hrcpts id' hid)

variable {change : OperationRow → OperationRow} {p : OperationStatus → Bool}

lemma receiptLog_of_moved {b b' : Books} (h : b.Moved id p change b') :
    receiptLog b' = receiptLog b := by
  obtain ⟨_, -, -, rfl⟩ := h
  rfl

lemma Tracked.put_receipt (h : c.Tracked) {b : Books} {r : ReceiptRow}
    (hends : c.Ends (c.operations.put r.operationId live) b c') (hrecd : c.books.Received r b)
    (hat : Tracks c.profile c.identities b r.operationId live) : c'.Tracked := by
  refine h.put hends ?_ ?_ hat
  · intro _ _
    rw [hrecd.record]
  · intro _ hid
    by_cases hnone : c.books.receipt r.key = none
    · rw [hrecd.1 hnone]
      funext round
      rw [receiptLog_addReceipt]
      exact if_neg fun hkey => hid hkey.1
    · rw [hrecd.2 hnone]

lemma Tracked.end_record (h : c.Tracked) {m' : S.Machine} {b : Books}
    (hlive : c.operations.get id = some live) (hmoved : c.books.Moved id p change b)
    (hends : c.Ends (c.operations.put id { live with
      record := change live.record, machine := m' }) b c') (hsame : SameSetup live.machine m')
    (hchng : ∀ o, (change o).toNewPersonalSigningOperation = o.toNewPersonalSigningOperation)
    (hover : ∀ o, operationOver (change o).status = true) : c'.Tracked := by
  have hat := h id live hlive
  obtain ⟨o, ho, -, hrecord, hoth⟩ := record_of_moved hmoved fun o =>
    congrArg NewPersonalSigningOperation.operationId (hchng o)
  obtain ⟨_, hrec', hsaved, -, -⟩ := hat.recorded
  cases ho.symm.trans hrec'
  apply h.put hends hoth
  · intro _ _
    rw [receiptLog_of_moved hmoved]
  · apply Tracks.of_over _ hrecord _ (hover o)
    · exact hat.founded.update (hchng _) rfl hsame hat.founded.contexts
    · rw [hchng, hsaved, hchng]

variable {participants : Table UInt16 BoundParticipant}

lemma Tracked.effects (h : c.Tracked) {call : Call} {failure : Option PersonalSigningError}
    (heffs : c.Effects call failure c') (hkept : ¬c.FailsToRecord call) : c'.Tracked := by
  obtain ⟨_, _, heff, hends⟩ := heffs
  cases heff with
  | same => exact h.same hends
  | @slipped e id live _ hlive hslip _ hlost =>
    have hat := h id live hlive
    apply h.put hends (fun _ _ => rfl) fun _ _ => rfl
    cases hslip with
    | closed hcloses => exact hat.sameSession (sameSession_of_closes hcloses)
    | @commitment signerId context _ commitment _ _ hctx hpart hcmts =>
      obtain ⟨hphase, -, -, identifier, hnamed, hnew, rfl⟩ := hcmts
      obtain ⟨record, hrecord, hfixed, hcoms, hshares⟩ := hat.recorded
      refine ⟨hat.founded.update rfl rfl ⟨rfl, rfl, rfl, rfl, rfl, rfl⟩ hat.founded.contexts,
        record, hrecord, hfixed, ?_, ?_⟩
      · intro hstatus
        have hold := hcoms hstatus
        refine { hold with committed := hold.committed.put hnew commitment, pending := ?_ }
        intro i v hget
        change (live.machine.commitments.put identifier commitment).get i = some v at hget
        rw [get_put] at hget
        split_ifs at hget with hi
        · exact .inr ⟨signerId, context, hctx, hi ▸ hat.founded.named hpart hnamed⟩
        · exact hold.pending hget
      · intro hstatus
        exact absurd hphase (hshares hstatus).frozen
    | freeze hfreezes =>
      obtain ⟨hphase, -, -, -, rfl⟩ := hfreezes
      obtain ⟨record, hrecord, hfixed, hcoms, hshares⟩ := hat.recorded
      refine ⟨hat.founded.update rfl rfl ⟨rfl, rfl, rfl, rfl, rfl, rfl⟩ hat.founded.contexts,
        record, hrecord, hfixed, ?_, ?_⟩
      · intro hstatus
        have hold := hcoms hstatus
        exact { hold with }
      · intro hstatus
        exact absurd hphase (hshares hstatus).frozen
    | share _ _ hshares =>
      obtain ⟨-, -, -, identifier, -, -, hnew, rfl⟩ := hshares
      have hget := congrArg (fun t => t.get identifier) (hlost.resolve_right hkept)
      change (live.machine.shares.put identifier _).get identifier =
        live.machine.shares.get identifier at hget
      simp [hnew, get_put] at hget
    | finalize hfin => exact hat.sameSession (sameSession_of_finalizes hfin)
  | @opened request now _ _ _ _ _ _ hunrcv _ hbound hmach hctxs =>
    have hstarts := starts_of_startMachine (o := newRecord S c.profile request now) hmach
    refine h.put hends (fun id' hne => if_neg hne) (fun _ _ => rfl)
      ⟨⟨⟨rfl, rfl, rfl, rfl, rfl, rfl⟩, hbound, ⟨_, _, hmach, .refl _⟩, ?_⟩, _, if_pos rfl, rfl,
        fun _ => ⟨.of_empty fun s => hunrcv s _, ?_, fun _ => hunrcv _ _, hstarts.shares, rfl,
          fun s => hunrcv s _⟩, nofun⟩
    · rintro s context (hone | htwo)
      · exact contextOf_of_requestContexts (fun _ => mem_pairSigners.mp) hctxs hone
      · simp [get_empty] at htwo
    · intro i v hget
      simp [hstarts.commitments, get_empty] at hget
  | @committed id live _ _ _ _ _ _ _ _ _ hlive hctx hpay hpart hcmts hrecd =>
    exact h.put_receipt hends hrecd ((h id live hlive).committed hctx hpay hpart hcmts hrecd)
  | @frozen _ id live _ _ _ _ _ _ _ hlive hempty hfreezes hpkg hmoved hctxs =>
    have hat := h id live hlive
    obtain ⟨_, ho, hstatus, hrecord, hoth⟩ := record_of_moved hmoved fun _ => rfl
    have hlog := receiptLog_of_moved hmoved
    apply h.put hends hoth fun id' _ => by rw [hlog]
    apply hat.frozen hempty hfreezes hpkg ho (by simpa using hstatus) hrecord (by rw [hlog])
    intro s _ hget
    rcases hctxs with hok | ⟨_, -, -, rfl⟩
    · right
      apply contextOf_of_requestContexts _ hok hget
      intro _ hs'
      exact mem_pairSigners.mp hs'
    · exact .inl hget
  | @shared id live _ _ _ _ _ _ _ _ _ hlive hctx hpay hpart hshares hrecd =>
    exact h.put_receipt hends hrecd ((h id live hlive).shared hctx hpay hpart hshares hrecd)
  | finalized hlive hfin hmoved =>
    have hsame := (sameSession_of_finalizes hfin).1.toSameSetup
    exact h.end_record hlive hmoved hends hsame (fun _ => rfl) fun _ => rfl
  | expired hlive hcloses hmoved =>
    have hsame := (sameSession_of_closes hcloses).1.toSameSetup
    exact h.end_record hlive hmoved hends hsame (fun _ => rfl) fun _ => rfl

lemma Tracked.recovered (h : c.Tracked) (hrecovered : c.Recovered id now draw c') : c'.Tracked := by
  obtain ⟨_, _, hrecovers, hends⟩ := hrecovered
  cases hrecovers with
  | same => exact h.same hends
  | ended hmoved hover =>
    obtain ⟨_, ho, -, hrecord, hoth⟩ := record_of_moved hmoved fun _ => rfl
    have hlog := receiptLog_of_moved hmoved
    intro id' live hlive
    rw [hends.operations] at hlive
    rw [hends.profile, hends.identities, hends.books]
    have hat := h id' live hlive
    by_cases hid : id' = id
    · subst hid
      obtain ⟨_, hrec', hfixed, -, -⟩ := hat.recorded
      cases ho.symm.trans hrec'
      exact .of_over hat.founded hrecord hfixed hover
    · exact hat.congr (hoth id' hid) (by rw [hlog])
  | rebuilt hrecord hstatus hprof hbound hstart hrcpts hmach hctxs =>
    have hlists : Lists c.books id _ := ⟨K.key_of_receipt, hrcpts⟩
    obtain ⟨hsame, hphase, hmatches, hpkg⟩ := rebuildMachine_matches hbound hstart hlists hmach
    refine h.put hends (fun _ _ => rfl) (fun _ _ => rfl) ⟨⟨hprof, hbound, ⟨now, _, hstart, hsame⟩,
      ?_⟩, _, hrecord, rfl, fun hcoll => ?_, fun _ => ⟨by rw [hphase]; nofun, hmatches,
        ⟨_, hpkg⟩, ?_⟩⟩
    · rintro s context (hone | htwo)
      · simp [get_empty] at hone
      · exact contextOf_of_requestContexts
          (fun _ hs => mem_pairSigners.mp (mem_of_mem_filter hs)) hctxs htwo
    · simp [hstatus] at hcoll
    · intro s _ hget
      rw [get_requestContexts hctxs, contextFor] at hget
      split_ifs at hget with hs
      have hpend := (mem_filter.mp hs).2
      rwa [decide_eq_true_eq, hlists.mem_signers, not_not] at hpend

lemma Tracked.step (h : c.Tracked) {call : Call} (hkept : ¬c.FailsToRecord call) :
    (step call c).2.Tracked := by
  cases hcall : call.isRecovery with
  | false => exact h.effects (step_effects c hcall) hkept
  | true =>
    cases call with
    | recoverOperation => exact h.recovered step_recovers.1
    | _ => cases hcall

def requestedSigners : PersonalSigningRecovery → Option (List UInt16)
  | .readyToFinalize => some []
  | .resumeRoundTwo dispatches => some (dispatches.map PersonalRoundTwoDispatch.signerId)
  | _ => none

/-- The signer is a participant with a commitment in the frozen signing package. -/
def FrozenParticipant (m : S.Machine) (signerId : UInt16) : Prop :=
  (m.participants.get signerId).isSome = true ∧ ∃ identifier session,
    S.participantIdentifier signerId = .ok identifier ∧ m.frozenSession = some session ∧
    (session.signingPackage.signingCommitments.get identifier).isSome = true

/-- Unless the store fails, the machine is rebuilt, with requests to the frozen participants whose
share is not recorded. -/
def Rebuilds (c : PersonalSigningCoordinator S K) (id : Uuid) (live : LiveOperation S)
    (r : Except PersonalSigningError PersonalSigningRecovery)
    (c' : PersonalSigningCoordinator S K) : Prop :=
  match r with
  | .error e => e.isStorage = true
  | .ok recovery => ∃ live' signers, c'.operations.get id = some live' ∧
      live'.participants = live.participants ∧ SameSession live.machine live'.machine ∧
      requestedSigners recovery = some signers ∧ signers.Nodup ∧
      ∀ s, s ∈ signers ↔
        FrozenParticipant live.machine s ∧ c.books.receipt (id, s, .signatureShare) = none

lemma mem_sortedSigners {s : UInt16} : s ∈ sortedSigners pair ↔ s = pair.1 ∨ s = pair.2 := by
  rw [sortedSigners]
  split_ifs with hlt hgt
  · simp
  · simp [or_comm]
  · have hsame : pair.1 = pair.2 := UInt16.le_antisymm (UInt16.not_lt.mp hgt) (UInt16.not_lt.mp hlt)
    simp [hsame]

lemma nodup_sortedSigners (pair : UInt16 × UInt16) : (sortedSigners pair).Nodup := by
  rw [sortedSigners]
  split_ifs with hlt hgt
  · simpa using UInt16.ne_of_lt hlt
  · simpa using UInt16.ne_of_lt hgt
  · simp

lemma signers_roundTwoDispatches (pair : UInt16 × UInt16)
    (contexts : Table UInt16 SignerRequestContext) (hex : String) :
    (roundTwoDispatches pair contexts hex).map PersonalRoundTwoDispatch.signerId =
      (sortedSigners pair).filter fun s => (contexts.get s).isSome := by
  rw [roundTwoDispatches, map_filterMap, ← filterMap_eq_filter]
  congr 1
  funext s
  cases hget : contexts.get s <;> simp [hget, Option.guard]

section Restart

lemma Matches.committed_of_pair {o : NewPersonalSigningOperation} {m : S.Machine}
    (h : Matches o identities log m)
    (hsgn : ∀ {s r}, log .commitment s = some r → r.signerId = s) (hthr : m.minSigners = 2)
    {s : UInt16} (hs : s = o.selectedParticipants.1 ∨ s = o.selectedParticipants.2) :
    ∃ r, log .commitment s = some r := by
  by_contra hnone
  have hother : ∀ {t r}, log .commitment t = some r →
      validateRecoveredReceipt o.row identities r = .ok () →
      t ≠ s ∧ (t = o.selectedParticipants.1 ∨ t = o.selectedParticipants.2) := by
    intro t r hr hvalid
    refine ⟨?_, hsgn hr ▸ signer_of_valid hvalid⟩
    rintro rfl
    exact hnone ⟨r, hr⟩
  have hone : m.commitments.card ≤ 1 := by
    apply card_le_one
    intro k k' v v' hget hget'
    obtain ⟨t, _, hr, hentry⟩ := h.onlyCommitted k v hget
    obtain ⟨t', _, hr', hentry'⟩ := h.onlyCommitted k' v' hget'
    obtain ⟨hne, ht⟩ := hother hr hentry.valid
    obtain ⟨hne', ht'⟩ := hother hr' hentry'.valid
    -- both are the signer of the pair that is not `s`
    have hsame : t = t' := by
      rcases hs with rfl | rfl
      · rw [ht.resolve_left hne, ht'.resolve_left hne']
      · rw [ht.resolve_right hne, ht'.resolve_right hne']
    subst hsame
    cases hr.symm.trans hr'
    exact (uniqueEntry_commitment hentry hentry').1
  have htwo := h.enough
  rw [hthr] at htwo
  have : (2 : UInt16).toNat = 2 := rfl
  omega

lemma CollectsShares.frozenParticipant_iff (h : CollectsShares record identities log live)
    (hfounded : Founded profile identities live)
    (hfixed : record.toNewPersonalSigningOperation = live.record.toNewPersonalSigningOperation)
    (hsgn : ∀ {s r}, log .commitment s = some r → r.signerId = s)
    (hthr : record.threshold = 2) {s : UInt16} :
    FrozenParticipant live.machine s ↔
      s = record.selectedParticipants.1 ∨ s = record.selectedParticipants.2 := by
  obtain ⟨_, _, hstart, hsame⟩ := hfounded.started
  have hstarts := starts_of_startMachine hstart
  have hget : live.machine.participants.get s = live.participants.get s := by
    rw [hsame.participants, hstarts.participants]
    exact get_participantMap hfounded.bound s
  constructor
  · rintro ⟨hpart, _⟩
    rw [hget] at hpart
    obtain ⟨p, hp⟩ := Option.isSome_iff_exists.mp hpart
    rw [hfixed]
    exact (signerId_of_bound hfounded.bound hp).2
  · intro hs
    have hs' := hs
    rw [hfixed] at hs'
    obtain ⟨_, hp⟩ := participant_of_bound hfounded.bound hs'
    have hmin : live.machine.minSigners = 2 := by
      rw [hsame.minSigners, hstarts.minSigners, ← hfixed]
      exact hthr
    obtain ⟨_, hr⟩ := h.received.committed_of_pair hsgn hmin hs
    obtain ⟨identifier, _, hentry, hcomd⟩ := h.received.committed.filed hr
    refine ⟨by rw [hget, hp]; rfl, identifier, _, ?_, h.received.session, ?_⟩
    · rw [← hsgn hr]
      exact hentry.named
    · show (live.machine.commitments.get identifier).isSome = true
      rw [hcomd]
      rfl

lemma known_of_pending {binding : Bytes32}
    (hbound : boundParticipants identities pair binding = .ok participants)
    (completed : List UInt16) :
    ∀ s ∈ (pairSigners pair).filter (· ∉ completed), (identities.get s).isSome = true := by
  obtain ⟨_, _, hfirst, hsnd, -⟩ := boundParticipants_eq_ok.mp hbound
  intro s hs
  rcases mem_pairSigners.mp (mem_of_mem_filter hs) with rfl | rfl
  · rw [hfirst]; rfl
  · rw [hsnd]; rfl

lemma resumeShares_rebuilds {s : K.State} (hbooks : K.books s = c.books)
    (hfounded : Founded c.profile c.identities live)
    (hfixed : record.toNewPersonalSigningOperation = live.record.toNewPersonalSigningOperation)
    (hcolls : CollectsShares record c.identities (receiptLog c.books id) live)
    (hthr : record.threshold = 2) (hnow : now < record.expiresAt) :
    (resumeShares id record now draw).wp (Rebuilds c id live) (c.setStore s) := by
  have hbound : boundParticipants c.identities record.selectedParticipants
      record.operationBindingDigest = .ok live.participants := by
    rw [hfixed]
    exact hfounded.bound
  obtain ⟨_, _, hstart, hsame⟩ := hfounded.started
  rw [← hfixed] at hstart
  obtain ⟨start', hstart', hsame'⟩ := startMachine_at hstart hnow
  have hsetup : SameSetup start' live.machine := hsame'.symm.trans hsame
  obtain ⟨package, hpkg⟩ := hcolls.package
  apply wp_lift_bind_of_ok hbound
  apply wp_lift_bind_of_ok hstart'
  apply wp_onStore_bind (K.receipts_keeps _ _) fun _ _ hstor _ => hstor
  rintro receipts s' ⟨hmem, hnodup, _⟩
  have hlists : Lists c.books id receipts := by
    refine ⟨K.key_of_receipt, ?_⟩
    rw [← hbooks]
    exact hmem
  obtain ⟨machine, hmach, hsetup', hcoms, hsess, hshares⟩ :=
    rebuildMachine_of_matches hbound hstart' hlists hnodup hsetup hcolls.received hpkg
  apply wp_lift_bind_of_ok hmach
  set completed := (receipts.filter (·.round = .signatureShare)).map ReceiptRow.signerId
  obtain ⟨contexts, hctxs, hget⟩ := requestContexts_ok record draw
    (known_of_pending hbound completed)
  apply wp_lift_bind_of_ok hctxs
  -- the requests go to the signers of the pair without a receipt of their share
  set dispatches := roundTwoDispatches record.selectedParticipants contexts (S.encodeHex package)
  have hsgns : ∀ s, s ∈ dispatches.map signerId ↔
      FrozenParticipant live.machine s ∧ c.books.receipt (id, s, .signatureShare) = none := by
    intro s
    rw [signers_roundTwoDispatches, mem_filter, mem_sortedSigners, hget,
      hcolls.frozenParticipant_iff hfounded hfixed hlists.signerId hthr]
    apply and_congr_right
    intro hs
    rw [isSome_contextFor (known_of_pending hbound completed), mem_filter, mem_pairSigners,
      decide_eq_true_eq, hlists.mem_signers, not_not]
    exact and_iff_right hs
  have hnodup : (dispatches.map signerId).Nodup := by
    rw [signers_roundTwoDispatches]
    exact (nodup_sortedSigners _).filter _
  have hrebuilds : ∀ recovery, requestedSigners recovery = some (dispatches.map signerId) →
      Rebuilds c id live (.ok recovery) (((c.setStore s).setStore s').insertOperation id
        ⟨record, machine, live.participants, .empty, contexts⟩) := by
    intro _ hreqd
    exact ⟨⟨record, machine, live.participants, .empty, contexts⟩, _,
      by rw [insertOperation, get_put, if_pos rfl], rfl,
      ⟨hsetup.symm.trans hsetup', hcoms, hsess, hshares⟩, hreqd, hnodup, hsgns⟩
  simp only [wp_iff, wp_ite]
  constructor
  · intro hempty
    apply hrebuilds
    rw [isEmpty_iff.mp hempty]
    rfl
  · intro _
    apply hrebuilds
    rfl

section Deadline

variable (htracks : Tracks c.profile c.identities c.books id live)
  (hrecord : c.books.record id = some record) (hstatus : record.status = .collectingShares)
include htracks hrecord hstatus

lemma recoverOperation_of_collectingShares
    {Q : Except PersonalSigningError PersonalSigningRecovery →
      PersonalSigningCoordinator S K → Prop}
    (hfails : ∀ e c', e.isStorage = true → c'.books = c.books → Q (.error e) c')
    (hresumes : ∀ s, K.books s = c.books → now ≤ record.expiresAt →
      (resumeShares id record now draw).wp Q (c.setStore s))
    (hexpi : ∀ c', record.expiresAt < now → (∃ record', c'.books.record id = some record' ∧
      record'.status = .expired) → Q (.ok (.terminal .expired)) c') :
    (recoverOperation id now draw).wp Q c := by
  obtain ⟨_, hrec', hfixed, -, -⟩ := htracks.recorded
  cases hrecord.symm.trans hrec'
  have hprof : ofProfile S c.profile record := by
    have howned := htracks.founded.owned
    simp only [ofProfile] at howned ⊢
    rwa [hfixed]
  apply wp_onStore_bind (K.operation_keeps _ _) fun e _ hstor hbooks => hfails e _ hstor hbooks
  rintro stored s ⟨hstored, hbooks⟩
  have hfound : orError stored PersonalSigningError.operationNotFound = .ok record := by
    rw [orError_eq_ok]
    exact hstored.trans hrecord
  apply wp_lift_bind_of_ok hfound
  apply wp_lift_bind_of_ok (require_pos hprof)
  simp only [hstatus]
  split_ifs with hlate
  · apply wp_onStore_bind (K.terminate_keeps _ _ _ _ _ _)
    · intro e _ hstor hsame
      exact hfails e _ hstor (hsame.trans hbooks)
    · rintro _ _ ⟨-, hmoved⟩
      obtain ⟨_, -, -, hafter, -⟩ := record_of_moved (c := c.setStore s) hmoved fun _ => rfl
      exact hexpi _ hlate ⟨_, hafter, rfl⟩
  · exact hresumes s hbooks (not_lt.mp hlate)

lemma recoverOperation_rebuilds (hnow : now < record.expiresAt) (draw : UInt16 → Bytes32) :
    (recoverOperation id now draw).wp (Rebuilds c id live) c := by
  obtain ⟨_, hrec', hfixed, -, hshares⟩ := htracks.recorded
  cases hrecord.symm.trans hrec'
  apply recoverOperation_of_collectingShares htracks hrecord hstatus fun _ _ hstor _ => hstor
  · intro s hbooks _
    exact resumeShares_rebuilds hbooks htracks.founded hfixed (hshares hstatus)
      (K.group_of_record hrecord).1 hnow
  · intro _ hlate
    exact absurd hlate (not_lt.mpr hnow.le)

end Deadline

end Restart

/-- Before an operation that collects shares expires, a restarted coordinator rebuilds its machine
and asks for the missing shares. -/
def Recoverable (profile : PersonalSignerProfile) (identities : List ProviderIdentity)
    (c : PersonalSigningCoordinator S K) : Prop :=
  ∀ (c₁ : PersonalSigningCoordinator S K) id live record now draw,
    new profile identities c.store = .ok c₁ → c.operations.get id = some live →
    c.books.record id = some record → record.status = .collectingShares →
    now < record.expiresAt → (recoverOperation id now draw).wp (Rebuilds c₁ id live) c₁

variable (c)

def restarted : PersonalSigningCoordinator S K :=
  ⟨c.profile, c.identities, c.store, .empty⟩

lemma config_of_step (call : Call) :
    (step call c).2.profile = c.profile ∧ (step call c).2.identities = c.identities := by
  cases hcall : call.isRecovery with
  | false =>
    obtain ⟨operations, b, -, hends⟩ := step_effects c hcall
    exact ⟨hends.profile, hends.identities⟩
  | true =>
    cases call with
    | recoverOperation =>
      obtain ⟨⟨_, _, -, hends⟩, -⟩ := step_recovers (c := c)
      exact ⟨hends.profile, hends.identities⟩
    | _ => cases hcall

lemma config_of_run (calls : List Call) :
    (run c calls).profile = c.profile ∧ (run c calls).identities = c.identities := by
  apply after_invariant (I := fun c' : PersonalSigningCoordinator S K =>
    c'.profile = c.profile ∧ c'.identities = c.identities) ⟨rfl, rfl⟩
  intro call c' h
  obtain ⟨hprof, hids⟩ := config_of_step c' call
  exact ⟨hprof.trans h.1, hids.trans h.2⟩

/-- Unless the store fails, the recovery resumes the shares up to the expiry, and expires the
operation after it. -/
def RespectsDeadline (id : Uuid) (expiresAt now : Time)
    (r : Except PersonalSigningError PersonalSigningRecovery)
    (c' : PersonalSigningCoordinator S K) : Prop :=
  match r with
  | .error e => e.isStorage = true
  | .ok recovery => if now ≤ expiresAt then (requestedSigners recovery).isSome = true
      else recovery = .terminal .expired ∧ ∃ record, c'.books.record id = some record ∧
        record.status = .expired

/-- Unless the store fails, the recovery is refused and the record stays as it is. -/
def RefusesAtDeadline (r : Except PersonalSigningError PersonalSigningRecovery)
    (c' : PersonalSigningCoordinator S K) : Prop :=
  c'.books = c.books ∧
    ∃ e, r = .error e ∧ (e.isStorage = true ∨ e = .machine .invalidSignerSet)

variable {c}

/-- A recovery respects the deadline at every time but the deadline itself, where it is refused. -/
theorem recoverOperation_respectsDeadline (htracks : Tracks c.profile c.identities c.books id live)
    (hrecord : c.books.record id = some record) (hstatus : record.status = .collectingShares)
    (now : Time) (draw : UInt16 → Bytes32) :
    (now ≠ record.expiresAt →
      (recoverOperation id now draw).wp (RespectsDeadline id record.expiresAt now) c) ∧
    (now = record.expiresAt → (recoverOperation id now draw).wp (RefusesAtDeadline c) c) := by
  refine ⟨fun hnow => ?_, fun hnow => ?_⟩
  · rcases lt_or_gt_of_ne hnow with hearly | hlate
    · apply wp_mono (recoverOperation_rebuilds htracks hrecord hstatus hearly draw)
      intro r c' hr
      cases r with
      | error => exact hr
      | ok =>
        obtain ⟨_, _, -, -, -, hsgns, -⟩ := hr
        rw [RespectsDeadline, if_pos hearly.le, hsgns]
        rfl
    · apply recoverOperation_of_collectingShares htracks hrecord hstatus fun _ _ hstor _ => hstor
      · intro s _ hintime
        exact absurd hlate (not_lt.mpr hintime)
      · intro _ _ hexp
        rw [RespectsDeadline, if_neg (not_le.mpr hlate)]
        exact ⟨rfl, hexp⟩
  · obtain ⟨_, hrec', hfixed, -, -⟩ := htracks.recorded
    cases hrecord.symm.trans hrec'
    obtain ⟨_, _, hstart, -⟩ := htracks.founded.started
    have hbound := htracks.founded.bound
    rw [← hfixed] at hstart hbound
    apply recoverOperation_of_collectingShares htracks hrecord hstatus
      fun e _ hstor hbooks => ⟨hbooks, e, rfl, .inl hstor⟩
    · intro s hbooks _
      apply wp_lift_bind_of_ok hbound
      have hrefused := startMachine_at_expiry hstart
      rw [← hnow] at hrefused
      apply wp_lift_bind_of_error hrefused
      exact ⟨hbooks, _, rfl, .inr rfl⟩
    · intro _ hlate
      exact absurd hnow hlate.ne'

variable {store : K.State}

lemma eq_of_new {identities : List ProviderIdentity} (h : new profile identities store = .ok c) :
    c = ⟨profile, empty.applyAll (identities.map fun i => .put i.signerId i), store, .empty⟩ := by
  simp only [new, ok_iff] at h
  exact h.2.symm

variable {calls : List Call}

lemma tracked_run (hempty : c₀.operations = .empty)
    (hkept : ∀ n call, calls[n]? = some call → ¬(run c₀ (calls.take n)).FailsToRecord call) :
    (run c₀ calls).Tracked := by
  have hstart : c₀.Tracked := by
    intro _ _ hlive
    simp [hempty, get_empty] at hlive
  have hall := after_take_keeps hstart (fun n call hcall hn => hn.step (hkept n call hcall))
    calls.length
  rwa [take_length] at hall

lemma Tracked.recoverable {identities : List ProviderIdentity}
    (hnew : new profile identities store = .ok c₀) (h : (run c₀ calls).Tracked) :
    Recoverable profile identities (run c₀ calls) := by
  intro c₁ id live _ _ draw hrestart hlive hrecord hstatus hnow
  obtain ⟨hprof, hids⟩ := config_of_run c₀ calls
  rw [congrArg PersonalSigningCoordinator.profile (eq_of_new hnew)] at hprof
  rw [congrArg PersonalSigningCoordinator.identities (eq_of_new hnew)] at hids
  have hrest : c₁ = (run c₀ calls).restarted := by
    rw [eq_of_new hrestart, restarted, hprof, hids]
  rw [hrest]
  exact recoverOperation_rebuilds (c := (run c₀ calls).restarted) (h id live hlive) hrecord hstatus
    hnow draw

/-- If the store records every share it is given, a coordinator restarted after any call rebuilds
the operations that collect shares. -/
theorem recoverable_of_recorded_shares {profile : PersonalSignerProfile}
    {identities : List ProviderIdentity} (hnew : new profile identities store = .ok c₀)
    (hkept : ∀ n call, calls[n]? = some call → ¬(run c₀ (calls.take n)).FailsToRecord call) :
    Recoverable profile identities (run c₀ calls) :=
  (tracked_run (operations_of_new hnew) hkept).recoverable hnew

/-- The sample wallet, whose store fails at the sixth call. -/
def faultyCoordinator : PersonalSigningCoordinator sampleSuite
    (SigningDb.walletStorage WalletStorage.samplePlatform).faulty :=
  ⟨sampleProfile, empty.applyAll (sampleIdentities.map fun i => .put i.signerId i),
    (sampleStore, [none, none, none, none, none, some .sqlite]), .empty⟩

/-- Both signers commit, and the first share is accepted but not recorded. -/
def lostShareCalls : List Call := signingCalls.take 5

def sharesAt (c : PersonalSigningCoordinator sampleSuite K) (id : Uuid) : Option ℕ :=
  (c.operations.get id).map fun live => live.machine.shares.card

def statusAt (c : PersonalSigningCoordinator sampleSuite K) (id : Uuid) :
    Option (OperationStatus × Time) :=
  (c.books.record id).map fun record => (record.status, record.expiresAt)

lemma record_of_statusAt {c : PersonalSigningCoordinator sampleSuite K}
    {status : OperationStatus} {expiresAt : Time}
    (h : c.statusAt id = some (status, expiresAt)) :
    ∃ record, c.books.record id = some record ∧ record.status = status ∧
      record.expiresAt = expiresAt := by
  obtain ⟨record, hrecord, hpair⟩ := Option.map_eq_some_iff.mp h
  exact ⟨record, hrecord, Prod.mk.inj hpair⟩

/-- A restarted coordinator recovers the sample operation. -/
def recoverAt (now : Time) (c : PersonalSigningCoordinator sampleSuite K) :
    Except PersonalSigningError PersonalSigningRecovery ×
      PersonalSigningCoordinator sampleSuite K :=
  recoverOperation 4 now (fun _ => .zeros) c.restarted

lemma new_restarted (calls : List Call) :
    new sampleProfile sampleIdentities (run faultyCoordinator calls).store =
      .ok (run faultyCoordinator calls).restarted := by
  obtain ⟨hprof, hids⟩ := config_of_run faultyCoordinator calls
  rw [new_sample, restarted, hprof, hids]
  rfl

/-- The share that the store failed to record is in the machine, and not in the recovered one. -/
theorem lost_share_unrecoverable :
    failures faultyCoordinator lostShareCalls = [none, none, none, none, some (.storage .sqlite)] ∧
      ¬Recoverable sampleProfile sampleIdentities (run faultyCoordinator lostShareCalls) := by
  have hfails : failures faultyCoordinator lostShareCalls =
      [none, none, none, none, some (.storage .sqlite)] := by
    decide +kernel
  refine ⟨hfails, ?_⟩
  intro hrecov
  have hsome : (run faultyCoordinator lostShareCalls).sharesAt 4 = some 1 := by
    decide +kernel
  have hstatus : (run faultyCoordinator lostShareCalls).statusAt 4 =
      some (.collectingShares, 100) := by
    decide +kernel
  obtain ⟨hok, hnone⟩ :
      failureOf (recoverAt 50 (run faultyCoordinator lostShareCalls)).1 = none ∧
        (recoverAt 50 (run faultyCoordinator lostShareCalls)).2.sharesAt 4 = some 0 := by
    decide +kernel
  obtain ⟨live, hlive, hshares⟩ := Option.map_eq_some_iff.mp hsome
  obtain ⟨record, hrecord, hcoll, hexpy⟩ := record_of_statusAt hstatus
  have hnow : (50 : Time) < record.expiresAt := by rw [hexpy]; decide
  have hrebuilds := hrecov _ 4 live record 50 (fun _ => .zeros) (new_restarted lostShareCalls)
    hlive hrecord hcoll hnow
  rw [recoverAt] at hok hnone
  cases hr : (recoverOperation 4 50 (fun _ => .zeros)
      (run faultyCoordinator lostShareCalls).restarted).1 with
  | error e =>
    rw [hr] at hok
    cases hok
  | ok recovery =>
    obtain ⟨_, -, hlive', -, hsame, -⟩ := hrebuilds
    rw [sharesAt, hlive', Option.map_some, hsame.shares, hshares] at hnone
    cases hnone

/-- The answer of the store to the receipt of the first share. -/
def recordsShare (c : PersonalSigningCoordinator sampleSuite
    (SigningDb.walletStorage WalletStorage.samplePlatform)) : Bool :=
  (c.operations.get 4).any fun live => (live.roundTwoContexts.get 1).any fun context =>
    ((SigningDb.walletStorage WalletStorage.samplePlatform).recordReceipt
      (receiptFor 4 1 .signatureShare context .zeros [1] 6) c.store).1.isOk

lemma records_shares_signing (n : ℕ) (call : Call) (hcall : lostShareCalls[n]? = some call) :
    ¬(run sampleCoordinator (lostShareCalls.take n)).FailsToRecord call := by
  have hrecords : (run sampleCoordinator (lostShareCalls.take 4)).recordsShare = true := by
    decide +kernel
  rcases n with _ | _ | _ | _ | _ | n
  case zero | succ.zero | succ.succ.zero | succ.succ.succ.zero =>
    cases hcall
    rintro ⟨⟩
  · cases hcall
    rintro ⟨_, _, _, _, hlive, hcontext, hpayload, hfails⟩
    cases hpayload
    simp only [recordsShare, hlive, hcontext, Option.any_some] at hrecords
    rw [hfails] at hrecords
    cases hrecords
  · cases hcall

theorem recoverable_of_recorded_shares_signing :
    (run sampleCoordinator lostShareCalls).sharesAt 4 = some 1 ∧
      (run sampleCoordinator lostShareCalls).statusAt 4 = some (.collectingShares, 100) ∧
      Recoverable sampleProfile sampleIdentities (run sampleCoordinator lostShareCalls) :=
  ⟨by decide +kernel, by decide +kernel,
    recoverable_of_recorded_shares new_sampleCoordinator records_shares_signing⟩

theorem respectsDeadline_signing :
    RespectsDeadline 4 100 101 (recoverAt 101 (run sampleCoordinator lostShareCalls)).1
      (recoverAt 101 (run sampleCoordinator lostShareCalls)).2 := by
  have hsome : (run sampleCoordinator lostShareCalls).sharesAt 4 = some 1 := by decide +kernel
  have hstatus : (run sampleCoordinator lostShareCalls).statusAt 4 =
      some (.collectingShares, 100) := by
    decide +kernel
  obtain ⟨live, hlive, -⟩ := Option.map_eq_some_iff.mp hsome
  obtain ⟨_, hrecord, hcoll, hexpy⟩ := record_of_statusAt hstatus
  rw [← hexpy]
  exact (recoverOperation_respectsDeadline (c := (run sampleCoordinator lostShareCalls).restarted)
    (tracked_run rfl records_shares_signing 4 live hlive) hrecord hcoll 101 _).1
    (by rw [hexpy]; decide)

/-- At the deadline the operation is neither resumed, as it is just before, nor expired. -/
theorem recovery_refused_at_deadline :
    (run sampleCoordinator lostShareCalls).statusAt 4 = some (.collectingShares, 100) ∧
      failureOf (recoverAt 99 (run sampleCoordinator lostShareCalls)).1 = none ∧
      failureOf (recoverAt 100 (run sampleCoordinator lostShareCalls)).1 =
        some (.machine .invalidSignerSet) ∧
      (recoverAt 100 (run sampleCoordinator lostShareCalls)).2.statusAt 4 =
        some (.collectingShares, 100) := by
  decide +kernel

end Catomicals.WalletCore.PersonalSigningCoordinator
