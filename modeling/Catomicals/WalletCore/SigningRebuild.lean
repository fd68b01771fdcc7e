import Catomicals.Base.Replay
import Catomicals.WalletCore.SigningEffects

/-!
# Rebuilding a session machine

The machine of an operation is rebuilt from its record and its receipts. It has exactly the
commitments and shares of the receipts, and every machine that has exactly those is rebuilt.
-/
namespace Catomicals.WalletCore.PersonalSigningCoordinator

open Base WalletStorage ThresholdSigner ThresholdSessionMachine List

variable {S : CoordinatorSuite} {identities : Table UInt16 ProviderIdentity}
  {participants : Table UInt16 BoundParticipant} {m m' : S.Machine}

structure SameSetup (m m' : S.Machine) : Prop where
  sessionId : m'.sessionId = m.sessionId
  message : m'.message = m.message
  minSigners : m'.minSigners = m.minSigners
  deadline : m'.deadline = m.deadline
  publicKeyPackage : m'.publicKeyPackage = m.publicKeyPackage
  participants : m'.participants = m.participants

lemma SameSetup.refl (m : S.Machine) : SameSetup m m := ⟨rfl, rfl, rfl, rfl, rfl, rfl⟩

lemma SameSetup.symm (h : SameSetup m m') : SameSetup m' m :=
  ⟨h.sessionId.symm, h.message.symm, h.minSigners.symm, h.deadline.symm, h.publicKeyPackage.symm,
    h.participants.symm⟩

lemma SameSetup.trans {m₁ m₂ m₃ : S.Machine} (h : SameSetup m₁ m₂)
    (h' : SameSetup m₂ m₃) : SameSetup m₁ m₃ :=
  ⟨h'.sessionId.trans h.sessionId, h'.message.trans h.message, h'.minSigners.trans h.minSigners,
    h'.deadline.trans h.deadline, h'.publicKeyPackage.trans h.publicKeyPackage,
    h'.participants.trans h.participants⟩

abbrev startMachine (profile : PersonalSignerProfile) (o : NewPersonalSigningOperation)
    (participants : Table UInt16 BoundParticipant) (now : Time) :
    Except PersonalSigningError S.Machine :=
  newMachine profile o.sessionId o.taprootSighash o.policyDigest o.threshold o.expiresAt
    o.selectedParticipants participants now

structure Starts (o : NewPersonalSigningOperation) (participants : Table UInt16 BoundParticipant)
    (m : S.Machine) : Prop where
  minSigners : m.minSigners = o.threshold
  deadline : m.deadline = o.expiresAt
  participants : m.participants = participantMap
    ((sortedSigners o.selectedParticipants).filterMap participants.get)
  phase : m.phase = .collectingCommitments
  commitments : m.commitments = .empty
  frozenSession : m.frozenSession = none
  shares : m.shares = .empty

section Start

variable {profile : PersonalSignerProfile} {o : NewPersonalSigningOperation} {now t : Time}

lemma starts_of_startMachine (h : startMachine profile o participants now = .ok m) :
    Starts o participants m := by
  simp only [startMachine, newMachine, ThresholdSessionMachine.new, ok_iff, mapError_eq_ok] at h
  obtain ⟨_, -, -, rfl⟩ := h
  exact ⟨rfl, rfl, rfl, rfl, rfl, rfl, rfl⟩

lemma startMachine_at (h : startMachine profile o participants t = .ok m)
    (hnow : now < o.expiresAt) :
    ∃ m', startMachine profile o participants now = .ok m' ∧ SameSetup m m' := by
  simp only [startMachine, newMachine, ThresholdSessionMachine.new, ok_iff, mapError_eq_ok] at h ⊢
  obtain ⟨keys, hkeys, hset, rfl⟩ := h
  refine ⟨_, ⟨keys, hkeys, ?_, rfl⟩, ⟨rfl, rfl, rfl, rfl, rfl, rfl⟩⟩
  simp only [not_or] at hset ⊢
  exact ⟨hset.1, hset.2.1, not_le.mpr hnow, hset.2.2.2⟩

lemma startMachine_at_expiry (h : startMachine profile o participants t = .ok m) :
    startMachine (S := S) profile o participants o.expiresAt =
      .error (.machine .invalidSignerSet) := by
  simp only [startMachine, newMachine, ok_iff, mapError_eq_ok] at h
  obtain ⟨keys, hkeys, -⟩ := h
  simp only [startMachine, newMachine, hkeys, mapError_ok, ok_bind, ThresholdSessionMachine.new]
  rw [require_neg (by simp)]
  rfl

end Start

section Participants

variable {pair : UInt16 × UInt16} {binding : Bytes32}
  (h : boundParticipants identities pair binding = .ok participants)

include h

lemma participant_of_bound {signerId : UInt16} (hsgn : signerId = pair.1 ∨ signerId = pair.2) :
    ∃ p, participants.get signerId = some p := by
  obtain ⟨_, _, -, -, rfl⟩ := boundParticipants_eq_ok.mp h
  rcases hsgn with rfl | rfl
  · by_cases hsame : pair.1 = pair.2 <;> simp [hsame]
  · simp

lemma signerId_of_bound {signerId : UInt16} {p : BoundParticipant}
    (hp : participants.get signerId = some p) :
    p.signerId = signerId ∧ (signerId = pair.1 ∨ signerId = pair.2) := by
  obtain ⟨_, _, -, -, rfl⟩ := boundParticipants_eq_ok.mp h
  simp only [Table.get_put, Table.get_empty] at hp
  split_ifs at hp with h₂ h₁
  · cases hp
    exact ⟨h₂.symm, .inr h₂⟩
  · cases hp
    exact ⟨h₁.symm, .inl h₁⟩

lemma get_participantMap (signerId : UInt16) :
    (participantMap
      ((sortedSigners pair).filterMap participants.get)).get signerId =
      participants.get signerId := by
  obtain ⟨_, _, -, -, rfl⟩ := boundParticipants_eq_ok.mp h
  simp only [participantMap, sortedSigners]
  split_ifs with hlt hgt
  · have hne : pair.1 ≠ pair.2 := UInt16.ne_of_lt hlt
    simp [hne]
  · have hne : pair.1 ≠ pair.2 := (UInt16.ne_of_lt hgt).symm
    by_cases h₁ : signerId = pair.1
    · simp [hne, h₁]
    · simp [hne, h₁]
  · have hsame : pair.1 = pair.2 := by
      apply UInt16.le_antisymm
      · exact UInt16.not_lt.mp hgt
      · exact UInt16.not_lt.mp hlt
    by_cases h₂ : signerId = pair.2
    · simp [hsame, h₂]
    · simp [hsame, h₂]

end Participants

structure CommitmentEntry (o : NewPersonalSigningOperation)
    (identities : Table UInt16 ProviderIdentity) (r : ReceiptRow) (identifier : S.Identifier)
    (commitment : S.SigningCommitments) : Prop where
  valid : validateRecoveredReceipt o.row identities r = .ok ()
  named : S.participantIdentifier r.signerId = .ok identifier
  decoded : S.deserializeCommitments r.payload = some commitment

/-- The share that a receipt stands for, verified in the session of a machine. -/
structure ShareEntry (o : NewPersonalSigningOperation)
    (identities : Table UInt16 ProviderIdentity) (m : S.Machine)
    (r : ReceiptRow) (identifier : S.Identifier) (share : S.SignatureShare) : Prop where
  valid : validateRecoveredReceipt o.row identities r = .ok ()
  named : S.participantIdentifier r.signerId = .ok identifier
  decoded : S.deserializeShare r.payload = some share
  verified : m.ShareVerified identifier share

section Entries

variable {o : NewPersonalSigningOperation}

lemma uniqueEntry_commitment : UniqueEntry (CommitmentEntry (S := S) o identities) := by
  intro r k _ v _ h h'
  exact ⟨Except.ok.inj (h.named.symm.trans h'.named),
    Option.some.inj (h.decoded.symm.trans h'.decoded)⟩

lemma uniqueEntry_share : UniqueEntry (ShareEntry o identities m) := by
  intro r k _ v _ h h'
  exact ⟨Except.ok.inj (h.named.symm.trans h'.named),
    Option.some.inj (h.decoded.symm.trans h'.decoded)⟩

lemma signer_of_valid {r : ReceiptRow} (h : validateRecoveredReceipt o.row identities r = .ok ()) :
    r.signerId = o.selectedParticipants.1 ∨ r.signerId = o.selectedParticipants.2 := by
  simp only [validateRecoveredReceipt, ok_iff] at h
  obtain ⟨_, -, hsgn, -⟩ := h
  exact hsgn

lemma shareEntry_congr (hsess : m'.frozenSession = m.frozenSession)
    (hkeys : m'.publicKeyPackage = m.publicKeyPackage) :
    ShareEntry o identities m' = ShareEntry o identities m := by
  have hver : m'.ShareVerified = m.ShareVerified := by
    funext identifier share
    simp only [ThresholdSessionMachine.ShareVerified, hsess, hkeys]
  funext r identifier share
  apply propext
  constructor
  · intro h
    exact { h with verified := hver ▸ h.verified }
  · intro h
    exact { h with verified := hver ▸ h.verified }

end Entries

variable {α : Type} {x : ThresholdSessionMachine.Action S.toFrostSuite α}

lemma runMachine_eq_ok {a : α} : runMachine x m = .ok (a, m') ↔ x m = (.ok a, m') := by
  rw [runMachine]
  rcases x m with ⟨_ | _, _⟩ <;> simp

variable {R : α → S.Machine → Prop}

lemma calls_of_runMachine {a : α} {now : Time} (h : runMachine x m = .ok (a, m'))
    (hcalls : m.Calls now x R) : R a m' := by
  rw [runMachine_eq_ok] at h
  simpa only [h] using hcalls.of_ok (congrArg Prod.fst h)

lemma runMachine_of_calls {now : Time} (hcalls : m.Calls now x R)
    (h : ∃ a m', R a m') : ∃ a, runMachine x m = .ok (a, (x m).2) := by
  obtain ⟨a, ha⟩ := hcalls.exists_ok h
  exact ⟨a, runMachine_eq_ok.mpr (Prod.ext ha rfl)⟩

section Replays

variable {record : OperationRow} {now : Time} {m₀ : S.Machine}

/-- The machines that the replay of the commitments goes through. -/
structure Committing (m₀ m : S.Machine) : Prop
    extends SameSetup m₀ m where
  phase : m.phase = .collectingCommitments
  frozenSession : m.frozenSession = none
  shares : m.shares = .empty

/-- The machines that the replay of the shares goes through. -/
structure Sharing (m₀ m : S.Machine) : Prop
    extends SameSetup m₀ m where
  phase : m.phase = .collectingShares
  commitments : m.commitments = m₀.commitments
  frozenSession : m.frozenSession = m₀.frozenSession

variable (hbound : boundParticipants identities record.selectedParticipants
    record.operationBindingDigest = .ok participants)
  (hparticipants : ∀ s, m₀.participants.get s = participants.get s) (hnow : now ≤ m₀.deadline)

include hbound hparticipants hnow

lemma member_of_valid {r : ReceiptRow} (hm : SameSetup m₀ m)
    (h : validateRecoveredReceipt record.toNewPersonalSigningOperation.row identities r = .ok ()) :
    ∃ p, participants.get r.signerId = some p ∧ p.signerId = r.signerId ∧
      m.participants.get p.signerId = some p ∧ now ≤ m.deadline := by
  obtain ⟨p, hp⟩ := participant_of_bound hbound (signer_of_valid h)
  obtain ⟨hsgn, -⟩ := signerId_of_bound hbound hp
  refine ⟨p, hp, hsgn, ?_, hm.deadline ▸ hnow⟩
  rw [hm.participants, hparticipants, hsgn, hp]

lemma files_commitments :
    Files (replayCommitment record identities participants now) (·.commitments) (Committing m₀)
      (CommitmentEntry record.toNewPersonalSigningOperation identities) := by
  refine ⟨uniqueEntry_commitment, ?_, ?_⟩
  · intro m r _ hm hstep
    simp only [replayCommitment, ok_iff] at hstep
    obtain ⟨hvalid, commitment, hdec, p, hp, ⟨_, _⟩, hrun, rfl⟩ := hstep
    obtain ⟨-, -, -, identifier, hnamed, hfree, rfl⟩ :=
      calls_of_runMachine hrun (addCommitment_calls p commitment)
    obtain ⟨hsgn, -⟩ := signerId_of_bound hbound hp
    rw [hsgn] at hnamed
    exact ⟨identifier, commitment, ⟨hvalid, hnamed, hdec⟩, hfree, rfl, { hm with }, hm.phase,
      hm.frozenSession, hm.shares⟩
  · intro m r identifier commitment hm hentry hfree
    obtain ⟨p, hp, hsgn, hmember, htime⟩ :=
      member_of_valid hbound hparticipants hnow hm.toSameSetup hentry.valid
    have hnamed : S.participantIdentifier p.signerId = .ok identifier := hsgn ▸ hentry.named
    obtain ⟨_, hadd⟩ := runMachine_of_calls
      (addCommitment_calls p commitment)
      ⟨(), _, hm.phase, htime, hmember, identifier, hnamed, hfree, rfl⟩
    simp only [replayCommitment, ok_iff]
    exact ⟨_, hentry.valid, commitment, hentry.decoded, p, hp, _, hadd, rfl⟩

lemma files_shares :
    Files (replayShare record identities participants now) (·.shares) (Sharing m₀)
      (ShareEntry record.toNewPersonalSigningOperation identities m₀) := by
  refine ⟨uniqueEntry_share, ?_, ?_⟩
  · intro m r _ hm hstep
    simp only [replayShare, ok_iff] at hstep
    obtain ⟨hvalid, share, hdec, p, hp, ⟨_, _⟩, hrun, rfl⟩ := hstep
    obtain ⟨-, -, -, identifier, hnamed, hver, hfree, rfl⟩ :=
      calls_of_runMachine hrun (addSignatureShare_calls p share)
    obtain ⟨hsgn, -⟩ := signerId_of_bound hbound hp
    rw [hsgn] at hnamed
    have hentry : ShareEntry record.toNewPersonalSigningOperation identities m r identifier share :=
      ⟨hvalid, hnamed, hdec, hver⟩
    rw [shareEntry_congr hm.frozenSession hm.publicKeyPackage] at hentry
    exact ⟨identifier, share, hentry, hfree, rfl, { hm with }, hm.phase, hm.commitments,
      hm.frozenSession⟩
  · intro m r identifier share hm hentry hfree
    obtain ⟨p, hp, hsgn, hmember, htime⟩ :=
      member_of_valid hbound hparticipants hnow hm.toSameSetup hentry.valid
    rw [← shareEntry_congr hm.frozenSession hm.publicKeyPackage] at hentry
    have hnamed : S.participantIdentifier p.signerId = .ok identifier := hsgn ▸ hentry.named
    obtain ⟨_, hadd⟩ := runMachine_of_calls
      (addSignatureShare_calls p share)
      ⟨(), _, hm.phase, htime, hmember, identifier, hnamed, hentry.verified, hfree, rfl⟩
    simp only [replayShare, ok_iff]
    exact ⟨_, hentry.valid, share, hentry.decoded, p, hp, _, hadd, rfl⟩

end Replays

def receiptLog (b : Books) (id : Uuid) (round : SigningRound) : UInt16 → Option ReceiptRow :=
  fun signerId => b.receipt (id, signerId, round)

/-- The receipts of an operation, as the store lists them. -/
structure Lists (b : Books) (id : Uuid) (receipts : List ReceiptRow) : Prop where
  keyed : ∀ {key r}, b.receipt key = some r → r.key = key
  mem : ∀ r, r ∈ receipts ↔ b.receipt r.key = some r ∧ r.operationId = id

section Lists

variable {b : Books} {id : Uuid} {receipts : List ReceiptRow} (h : Lists b id receipts)
include h

lemma Lists.signerId {round : SigningRound} {s : UInt16} {r : ReceiptRow}
    (hr : receiptLog b id round s = some r) : r.signerId = s :=
  congrArg (·.2.1) (h.keyed hr)

lemma Lists.mem_filter (round : SigningRound) (r : ReceiptRow) :
    r ∈ receipts.filter (·.round = round) ↔ ∃ s, receiptLog b id round s = some r := by
  rw [List.mem_filter, h.mem, decide_eq_true_eq]
  constructor
  · rintro ⟨⟨hr, rfl⟩, rfl⟩
    exact ⟨r.signerId, hr⟩
  · rintro ⟨s, hr⟩
    have hkey : r.key = (id, s, round) := h.keyed hr
    refine ⟨⟨?_, congrArg (·.1) hkey⟩, congrArg (·.2.2) hkey⟩
    rw [hkey]
    exact hr

lemma Lists.mem_signers (round : SigningRound) (s : UInt16) :
    s ∈ (receipts.filter (·.round = round)).map ReceiptRow.signerId ↔
      receiptLog b id round s ≠ none := by
  rw [mem_map, Option.ne_none_iff_exists']
  constructor
  · rintro ⟨r, hr, rfl⟩
    obtain ⟨s, hs⟩ := (h.mem_filter round r).mp hr
    exact ⟨r, (h.signerId hs).symm ▸ hs⟩
  · rintro ⟨r, hs⟩
    exact ⟨r, (h.mem_filter round r).mpr ⟨s, hs⟩, h.signerId hs⟩

lemma Lists.nodup_signers (hnodup : (receipts.map ReceiptRow.key).Nodup) (round : SigningRound) :
    ((receipts.filter (·.round = round)).map ReceiptRow.signerId).Nodup := by
  apply pairwise_map.mpr
  apply ((pairwise_map.mp hnodup).filter _).imp_of_mem
  intro r r' hr hr' hne hsgn
  obtain ⟨s, hs⟩ := (h.mem_filter round r).mp hr
  obtain ⟨s', hs'⟩ := (h.mem_filter round r').mp hr'
  apply hne
  have hs_eq : s = s' := by
    rw [← h.signerId hs, ← h.signerId hs', hsgn]
  rw [h.keyed hs, h.keyed hs', hs_eq]

end Lists

/-- The machine has frozen its commitments, and has exactly those and the shares of the receipts. -/
structure Matches (o : NewPersonalSigningOperation) (identities : Table UInt16 ProviderIdentity)
    (log : SigningRound → UInt16 → Option ReceiptRow)
    (m : S.Machine) : Prop where
  session : m.frozenSession =
    some (buildSession m.sessionId m.message m.minSigners m.commitments m.publicKeyPackage)
  enough : m.minSigners.toNat ≤ m.commitments.card
  committed : Logged (log .commitment) (CommitmentEntry o identities) m.commitments
  onlyCommitted : Covers (log .commitment) (CommitmentEntry o identities) m.commitments
  shared : Logged (log .signatureShare) (ShareEntry o identities m) m.shares
  onlyShared : Covers (log .signatureShare) (ShareEntry o identities m) m.shares

def HasPackage (record : OperationRow) (m : S.Machine) (package : Bytes) :
    Prop :=
  record.signingPackage = some package ∧
    ∃ session, m.frozenSession = some session ∧
      S.serializePackage session.signingPackage = .ok package

section Rebuild

variable {profile : PersonalSignerProfile} {record : OperationRow} {b : Books} {id : Uuid}
  {receipts : List ReceiptRow} {now : Time} {start machine : S.Machine}
  {package : Bytes}

lemma Starts.committing (h : Starts record.toNewPersonalSigningOperation participants start) :
    Committing start start :=
  ⟨.refl start, h.phase, h.frozenSession, h.shares⟩

variable (hbound : boundParticipants identities record.selectedParticipants
    record.operationBindingDigest = .ok participants)
  (hstart : startMachine profile record.toNewPersonalSigningOperation participants now = .ok start)

include hbound hstart

lemma participants_of_start :
    (∀ s, start.participants.get s = participants.get s) ∧ now ≤ start.deadline := by
  have hstarts := starts_of_startMachine hstart
  constructor
  · intro s
    rw [hstarts.participants]
    exact get_participantMap hbound s
  · simp only [startMachine, newMachine, ThresholdSessionMachine.new, ok_iff, mapError_eq_ok,
      not_or, not_le] at hstart
    obtain ⟨_, -, ⟨-, -, hlate, -⟩, rfl⟩ := hstart
    exact le_of_lt hlate

theorem rebuildMachine_matches (hlists : Lists b id receipts)
    (h : rebuildMachine record identities participants receipts now start =
      .ok (machine, package)) :
    SameSetup start machine ∧ machine.phase = .collectingShares ∧
      Matches record.toNewPersonalSigningOperation identities (receiptLog b id) machine ∧
      HasPackage record machine package := by
  obtain ⟨hparticipants, hnow⟩ := participants_of_start hbound hstart
  have hstarts := starts_of_startMachine hstart
  simp only [rebuildMachine, ok_iff, mapError_eq_ok, Prod.mk.injEq] at h
  obtain ⟨m₁, hcoms, ⟨_, _⟩, hfreeze, _, hpkg, hstored, _, hshares, rfl, rfl⟩ := h
  obtain ⟨hm₁, hcomd, honly⟩ :=
    (files_commitments hbound hparticipants hnow).logged_of_replay ReceiptRow.signerId
      hstarts.committing hstarts.commitments hlists.signerId (hlists.mem_filter .commitment)
      hcoms
  obtain ⟨-, -, henough, rfl, rfl⟩ := calls_of_runMachine hfreeze freezeCommitments_calls
  -- the frozen machine, from which the shares are replayed
  set frozen := m₁.freeze.record now .commitmentsFrozen none none
  have hsetup : SameSetup start frozen := { hm₁ with }
  have hparts' : ∀ s, frozen.participants.get s = participants.get s := by
    intro s
    rw [hsetup.participants, hparticipants]
  have hnow' : now ≤ frozen.deadline := hsetup.deadline ▸ hnow
  obtain ⟨hm₃, hshared, honlyShared⟩ :=
    (files_shares hbound hparts' hnow').logged_of_replay ReceiptRow.signerId
      ⟨.refl frozen, rfl, rfl, rfl⟩ hm₁.shares hlists.signerId
      (hlists.mem_filter .signatureShare) hshares
  rw [← shareEntry_congr hm₃.frozenSession hm₃.publicKeyPackage] at hshared honlyShared
  refine ⟨hsetup.trans hm₃.toSameSetup, hm₃.phase, ?_, hstored, _, hm₃.frozenSession, hpkg⟩
  refine ⟨?_, ?_, ?_, ?_, hshared, honlyShared⟩
  · rw [hm₃.frozenSession, hm₃.sessionId, hm₃.message, hm₃.minSigners, hm₃.commitments,
      hm₃.publicKeyPackage]
    rfl
  · rw [hm₃.minSigners, hm₃.commitments]
    exact henough
  · rw [hm₃.commitments]
    exact hcomd
  · rw [hm₃.commitments]
    exact honly

theorem rebuildMachine_of_matches (hlists : Lists b id receipts)
    (hnodup : (receipts.map ReceiptRow.key).Nodup) (hsetup : SameSetup start m)
    (hmatches : Matches record.toNewPersonalSigningOperation identities (receiptLog b id) m)
    (hpkg : HasPackage record m package) :
    ∃ machine, rebuildMachine record identities participants receipts now start =
        .ok (machine, package) ∧
      SameSetup start machine ∧ machine.commitments = m.commitments ∧
      machine.frozenSession = m.frozenSession ∧ machine.shares = m.shares := by
  obtain ⟨hparticipants, hnow⟩ := participants_of_start hbound hstart
  have hstarts := starts_of_startMachine hstart
  obtain ⟨m₁, hcoms, hm₁, htable⟩ :=
    (files_commitments hbound hparticipants hnow).replay_of_logged ReceiptRow.signerId
      hstarts.committing hstarts.commitments hlists.signerId (hlists.mem_filter .commitment)
      (hlists.nodup_signers hnodup .commitment) hmatches.committed hmatches.onlyCommitted
  have henough : m₁.minSigners.toNat ≤ m₁.commitments.card := by
    rw [hm₁.minSigners, ← hsetup.minSigners, htable]
    exact hmatches.enough
  have hnow₁ : now ≤ m₁.deadline := hm₁.deadline ▸ hnow
  obtain ⟨session, hfreeze⟩ := runMachine_of_calls freezeCommitments_calls
    ⟨_, _, hm₁.phase, hnow₁, henough, rfl, rfl⟩
  obtain ⟨-, -, -, rfl, hfrozen⟩ := calls_of_runMachine hfreeze freezeCommitments_calls
  generalize (ThresholdSessionMachine.freezeCommitments now m₁).2 = frozen at hfreeze hfrozen
  -- the session it freezes is that of the machine it stands for
  have hsess : some (buildSession m₁.sessionId m₁.message m₁.minSigners m₁.commitments
      m₁.publicKeyPackage) = m.frozenSession := by
    rw [hmatches.session, hsetup.sessionId, hsetup.message, hsetup.minSigners,
      hsetup.publicKeyPackage, hm₁.sessionId, hm₁.message, hm₁.minSigners, hm₁.publicKeyPackage]
    exact congrArg (fun t => some (buildSession _ _ _ t _)) htable
  have hfrozenSession : frozen.frozenSession = m.frozenSession := by
    rw [← hsess, hfrozen]
    rfl
  have hkeys : frozen.publicKeyPackage = m.publicKeyPackage := by
    rw [hsetup.publicKeyPackage, ← hm₁.publicKeyPackage, hfrozen]
    rfl
  have hsame : SameSetup start frozen := by
    rw [hfrozen]
    exact { hm₁ with }
  have hparts' : ∀ s, frozen.participants.get s = participants.get s := by
    intro s
    rw [hsame.participants, hparticipants]
  have hnow' : now ≤ frozen.deadline := hsame.deadline ▸ hnow
  have hshared := hmatches.shared
  have honlyShared := hmatches.onlyShared
  rw [← shareEntry_congr hfrozenSession hkeys] at hshared honlyShared
  have hphase : frozen.phase = .collectingShares := by rw [hfrozen]; rfl
  have hunshared : frozen.shares = .empty := by rw [hfrozen]; exact hm₁.shares
  obtain ⟨m₃, hshares, hm₃, hsharesTable⟩ :=
    (files_shares hbound hparts' hnow').replay_of_logged ReceiptRow.signerId
      ⟨.refl frozen, hphase, rfl, rfl⟩ hunshared hlists.signerId
      (hlists.mem_filter .signatureShare) (hlists.nodup_signers hnodup .signatureShare) hshared
      honlyShared
  refine ⟨m₃, ?_, hsame.trans hm₃.toSameSetup, ?_, hm₃.frozenSession.trans hfrozenSession,
    hsharesTable⟩
  · obtain ⟨hstored, _, hsome, hser⟩ := hpkg
    cases hsess.trans hsome
    simp only [rebuildMachine, ok_iff, mapError_eq_ok]
    exact ⟨m₁, hcoms, _, hfreeze, package, hser, hstored, m₃, hshares, rfl⟩
  · rw [hm₃.commitments, ← htable, hfrozen]
    rfl

end Rebuild

end Catomicals.WalletCore.PersonalSigningCoordinator
