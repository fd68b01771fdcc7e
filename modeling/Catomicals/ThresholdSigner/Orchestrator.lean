import Catomicals.Base.HashChain
import Catomicals.ThresholdSigner.Session

/-!
# The threshold session machine

The coordinator of one signing session. A call may close the session before it returns an error, and
every change is recorded in a hash-chained audit stream. A call changes the machine at most once, so
all invariants are read off the list of changes (`Moves`).
-/
namespace Catomicals.ThresholdSigner

open Base WalletStorage Table Method

inductive SessionPhase where
  | collectingCommitments | collectingShares | finalized | aborted | expired | failed
  deriving DecidableEq

def SessionPhase.isTerminal : SessionPhase → Bool
  | .finalized | .aborted | .expired | .failed => true
  | .collectingCommitments | .collectingShares => false

structure BoundParticipant where
  signerId : UInt16
  deviceId : Uuid
  deviceGeneration : UInt64
  requestBindingDigest : Bytes32
  deriving DecidableEq

inductive AuditEventKind where
  | sessionStarted | commitmentAccepted | commitmentsFrozen | shareAccepted | sessionFinalized
  | sessionAborted | sessionExpired | sessionFailed
  deriving DecidableEq

def AuditEventKind.code : AuditEventKind → UInt8
  | .sessionStarted => 0
  | .commitmentAccepted => 1
  | .commitmentsFrozen => 2
  | .shareAccepted => 3
  | .sessionFinalized => 4
  | .sessionAborted => 5
  | .sessionExpired => 6
  | .sessionFailed => 7

structure AuditEvent where
  sequence : UInt64
  time : Time
  kind : AuditEventKind
  signerId : Option UInt16
  code : Option String
  (previousDigest eventDigest : Bytes32)
  deriving DecidableEq

inductive OrchestrationError where
  | invalidSignerSet | unknownParticipant | identityDrift | duplicateParticipant
  | wrongPhase (phase : SessionPhase)
  | expired
  | insufficientParticipants (required : UInt16) (actual : ℕ)
  | invalidSignatureShare
  | signing (text : String)
  deriving DecidableEq

/-- The bytes of an `i64` time, most significant first. -/
def timeBytes (t : Time) : Bytes := beBytes 8 (t % 2 ^ 64).toNat

/-- The bytes an audit event is hashed from, defaults for an absent signer or code. -/
def auditPreimage (sequence : UInt64) (time : Time) (kind : AuditEventKind)
    (signerId : Option UInt16) (code : Option String) (previousDigest : Bytes32) : Bytes :=
  let codeBytes := (code.getD "").toUTF8.toList
  "catomicals/frost-audit/v1\x00".toUTF8.toList ++ previousDigest.bytes ++
    beBytes 8 sequence.toNat ++ timeBytes time ++ [kind.code] ++
    beBytes 2 (signerId.getD 0).toNat ++ beBytes 4 (codeBytes.length % 2 ^ 32) ++ codeBytes

def auditDigest (F : FrostSuite) (sequence : UInt64) (time : Time) (kind : AuditEventKind)
    (signerId : Option UInt16) (code : Option String) (previousDigest : Bytes32) : Bytes32 :=
  F.sha256 (auditPreimage sequence time kind signerId code previousDigest)

/-- How the events of an audit stream hang together. -/
def auditLinking (F : FrostSuite) : Linking AuditEvent Bytes32 where
  previous := AuditEvent.previousDigest
  digest := AuditEvent.eventDigest
  expected := fun previous e => auditDigest F e.sequence e.time e.kind e.signerId e.code previous

/-- A signing session with its audit stream. -/
structure ThresholdSessionMachine (F : FrostSuite) where
  (sessionId message policyDigest : Bytes32)
  minSigners : UInt16
  deadline : Time
  phase : SessionPhase
  publicKeyPackage : F.PublicKeys
  participants : Table UInt16 BoundParticipant
  commitments : Table F.Identifier F.SigningCommitments
  frozenSession : Option (FrostSession F)
  shares : Table F.Identifier F.SignatureShare
  audit : List AuditEvent

namespace ThresholdSessionMachine

variable {F : FrostSuite}

abbrev Action (F : FrostSuite) (α : Type) :=
  Method (ThresholdSessionMachine F) OrchestrationError α

variable (m : ThresholdSessionMachine F)

def auditHead : Bytes32 := (auditLinking F).head .zeros m.audit

/-- Appends an event to the audit stream. -/
def record (time : Time) (kind : AuditEventKind)
    (signerId : Option UInt16) (code : Option String) : ThresholdSessionMachine F :=
  let sequence := UInt64.ofNat m.audit.length + 1
  let previousDigest := m.auditHead
  let eventDigest := auditDigest F sequence time kind signerId code previousDigest
  { m with
    audit := m.audit ++ [⟨sequence, time, kind, signerId, code, previousDigest, eventDigest⟩] }

def verifyAuditChain : Bool :=
  (auditLinking F).verify .zeros m.audit

def participantMap (participants : List BoundParticipant) : Table UInt16 BoundParticipant :=
  empty.applyAll (participants.map fun p => .put p.signerId p)

def hasVerifyingShare (publicKeyPackage : F.PublicKeys) (signerId : UInt16) : Bool :=
  match F.participantIdentifier signerId with
  | .ok id => (publicKeyPackage.verifyingShares.get id).isSome
  | .error _ => false

def new (sessionId message policyDigest : Bytes32) (minSigners : UInt16) (deadline : Time)
    (participants : List BoundParticipant) (publicKeyPackage : F.PublicKeys) (now : Time) :
    Except OrchestrationError (ThresholdSessionMachine F) := do
  let participants := participantMap participants
  require (¬(minSigners = 0 ∨ participants.card < minSigners.toNat ∨ deadline ≤ now ∨
    ¬participants.All fun signerId p =>
      signerId = p.signerId ∧ hasVerifyingShare publicKeyPackage signerId)) .invalidSignerSet
  let machine : ThresholdSessionMachine F :=
    { sessionId, message, policyDigest, minSigners, deadline, phase := .collectingCommitments,
      publicKeyPackage, participants, commitments := .empty, frozenSession := none,
      shares := .empty, audit := [] }
  return machine.record now .sessionStarted none none

def fail (now : Time) (signerId : Option UInt16) (code : String) : ThresholdSessionMachine F :=
  { m with phase := .failed }.record now .sessionFailed signerId (some code)

def expire (now : Time) : Action F Bool := do
  let m ← get
  if now ≤ m.deadline ∨ m.phase.isTerminal then
    return false
  else
    modify fun m =>
      { m with phase := .expired }.record now .sessionExpired none (some "deadline")
    return true

def checkDeadline (now : Time) : Action F Unit := do
  let expired ← expire now
  let m ← get
  lift (require (¬(expired = true ∨ m.phase = .expired)) .expired)

def requirePhase (expected : SessionPhase) (now : Time) : Action F Unit := do
  checkDeadline now
  let m ← get
  lift (require (m.phase = expected) (.wrongPhase m.phase))

variable (participant : BoundParticipant)

/-- Another participant than the bound one fails the session. -/
def requireIdentity (now : Time) : Action F Unit := do
  let m ← get
  if m.participants.get participant.signerId ≠ some participant then
    modify fun m => m.fail now (some participant.signerId) "identity_drift"
    error .identityDrift
  else
    return ()

/-- The first commitment of a bound participant. -/
def addCommitment (commitment : F.SigningCommitments) (now : Time) : Action F Unit := do
  requirePhase .collectingCommitments now
  requireIdentity participant now
  let identifier ← lift
    ((F.participantIdentifier participant.signerId).mapError fun _ => .unknownParticipant)
  let m ← get
  lift (require ((m.commitments.get identifier).isNone = true) .duplicateParticipant)
  modify fun m =>
    { m with commitments := m.commitments.put identifier commitment }.record now
      .commitmentAccepted (some participant.signerId) none

/-- Fixes the signing package. -/
def freezeCommitments (now : Time) : Action F (FrostSession F) := do
  requirePhase .collectingCommitments now
  let m ← get
  lift (require (m.minSigners.toNat ≤ m.commitments.card)
    (.insufficientParticipants m.minSigners m.commitments.card))
  let session :=
    buildSession m.sessionId m.message m.minSigners m.commitments m.publicKeyPackage
  modify fun m =>
    { m with frozenSession := some session, phase := .collectingShares }.record now
      .commitmentsFrozen none none
  return session

/-- A share that does not verify fails the session. -/
def addSignatureShare (share : F.SignatureShare) (now : Time) : Action F Unit := do
  requirePhase .collectingShares now
  requireIdentity participant now
  let identifier ← lift
    ((F.participantIdentifier participant.signerId).mapError fun _ => .unknownParticipant)
  let m ← get
  let session ← lift (orError m.frozenSession (.wrongPhase m.phase))
  if (session.signingPackage.signingCommitments.get identifier).isNone then
    modify fun m =>
      m.fail now (some participant.signerId) "participant_not_in_frozen_package"
    error .unknownParticipant
  else
    lift (require ((m.shares.get identifier).isNone = true) .duplicateParticipant)
    let verifyingShare ← lift
      (orError (m.publicKeyPackage.verifyingShares.get identifier) .unknownParticipant)
    if (F.verifySignatureShare identifier verifyingShare share session.signingPackage
        m.publicKeyPackage.verifyingKey).isOk then
      modify fun m =>
        { m with shares := m.shares.put identifier share }.record now .shareAccepted
          (some participant.signerId) none
    else
      modify fun m => m.fail now (some participant.signerId) "invalid_signature_share"
      error .invalidSignatureShare

/-- Aggregates enough shares, or fails the session. -/
def finalize (now : Time) : Action F F.Signature := do
  requirePhase .collectingShares now
  let m ← get
  lift (require (m.minSigners.toNat ≤ m.shares.card)
    (.insufficientParticipants m.minSigners m.shares.card))
  let session ← lift (orError m.frozenSession (.wrongPhase m.phase))
  match aggregateAndVerify session m.shares with
  | .ok signature =>
    modify fun m => { m with phase := .finalized }.record now .sessionFinalized none none
    return signature
  | .error error =>
    modify fun m => m.fail now none "aggregate_verification_failed"
    Method.error (.signing (frostErrorText error))

def abort (reasonCode : String) (now : Time) : Action F Unit := do
  checkDeadline now
  let m ← get
  lift (require (¬m.phase.isTerminal) (.wrongPhase m.phase))
  modify fun m =>
    { m with phase := .aborted }.record now .sessionAborted none (some reasonCode)

inductive Call (F : FrostSuite) where
  | addCommitment (participant : BoundParticipant) (commitment : F.SigningCommitments) (now : Time)
  | freezeCommitments (now : Time)
  | addSignatureShare (participant : BoundParticipant) (share : F.SignatureShare) (now : Time)
  | finalize (now : Time)
  | abort (reasonCode : String) (now : Time)
  | expire (now : Time)

/-- The machine after a call, whether the call succeeds or fails. -/
def step : Call F → ThresholdSessionMachine F
  | .addCommitment participant commitment now => (addCommitment participant commitment now m).2
  | .freezeCommitments now => (freezeCommitments now m).2
  | .addSignatureShare participant share now => (addSignatureShare participant share now m).2
  | .finalize now => (finalize now m).2
  | .abort reasonCode now => (abort reasonCode now m).2
  | .expire now => (expire now m).2

def run (calls : List (Call F)) : ThresholdSessionMachine F :=
  calls.foldl step m

def Call.time : Call F → Time
  | .addCommitment _ _ now | .freezeCommitments now | .addSignatureShare _ _ now | .finalize now
  | .abort _ now | .expire now => now

section Changes

variable (m : ThresholdSessionMachine F) (identifier : F.Identifier)

def commit (commitment : F.SigningCommitments) : ThresholdSessionMachine F :=
  { m with commitments := m.commitments.put identifier commitment }

def freeze : ThresholdSessionMachine F :=
  { m with
    frozenSession :=
      some (buildSession m.sessionId m.message m.minSigners m.commitments m.publicKeyPackage)
    phase := .collectingShares }

def accept (share : F.SignatureShare) : ThresholdSessionMachine F :=
  { m with shares := m.shares.put identifier share }

def enter (phase : SessionPhase) : ThresholdSessionMachine F := { m with phase := phase }

/-- The share of the identifier verifies against the frozen session. -/
def ShareVerified (share : F.SignatureShare) : Prop :=
  ∃ session, m.frozenSession = some session ∧
    (session.signingPackage.signingCommitments.get identifier).isSome = true ∧
    ∃ verifyingShare, m.publicKeyPackage.verifyingShares.get identifier = some verifyingShare ∧
      (F.verifySignatureShare identifier verifyingShare share session.signingPackage
        m.publicKeyPackage.verifyingKey).isOk = true

/-- The changes of a machine at a time, before they are recorded. -/
inductive Changes (now : Time) : ThresholdSessionMachine F → Prop
  | commit {p identifier} (commitment : F.SigningCommitments)
      (phase : m.phase = .collectingCommitments) (bound : m.participants.get p.signerId = some p)
      (named : F.participantIdentifier p.signerId = .ok identifier) :
      Changes now (m.commit identifier commitment)
  | freeze (phase : m.phase = .collectingCommitments)
      (enough : m.minSigners.toNat ≤ m.commitments.card) : Changes now m.freeze
  | share {identifier share}
      (phase : m.phase = .collectingShares) (verified : m.ShareVerified identifier share) :
      Changes now (m.accept identifier share)
  | finalize (phase : m.phase = .collectingShares) (intime : now ≤ m.deadline)
      (enough : m.minSigners.toNat ≤ m.shares.card) : Changes now (m.enter .finalized)
  | close {phase} (running : m.phase.isTerminal = false)
      (terminal : phase.isTerminal = true) (unfinished : phase ≠ .finalized) :
      Changes now (m.enter phase)

variable (now : Time)

/-- A change together with its audit event. -/
def Moves (m' : ThresholdSessionMachine F) : Prop :=
  ∃ next, m.Changes now next ∧ ∃ kind signerId code, m' = next.record now kind signerId code

/-- The running session is closed unfinished, with its audit event. -/
def Closes (m' : ThresholdSessionMachine F) : Prop :=
  m.phase.isTerminal = false ∧ ∃ phase : SessionPhase, phase.isTerminal = true ∧
    phase ≠ .finalized ∧ ∃ kind signerId code, m' = (m.enter phase).record now kind signerId code

/-- A call ends as `R` says, or it fails, nothing that `R` says being possible, and at most closes
the session. -/
def Calls {α : Type} (x : Action F α) (R : α → ThresholdSessionMachine F → Prop) : Prop :=
  x.wp (fun r m' =>
    match r with
    | .ok a => R a m'
    | .error _ => (m' = m ∨ m.Closes now m') ∧ ∀ a m', ¬R a m') m

/-- A check of a call: it passes without a change and establishes a fact, or ends the call. -/
def Checks {α : Type} (x : Action F α) (P : α → Prop) : Prop :=
  m.Calls now x fun a m' => m' = m ∧ P a

end Changes

variable {m m' : ThresholdSessionMachine F} {now : Time} {α β : Type} {x : Action F α}

lemma Checks.bind {f : α → Action F β} {P : α → Prop}
    {R : β → ThresholdSessionMachine F → Prop} (hx : m.Checks now x P)
    (hR : ∀ b m', R b m' → ∃ a, P a) (hf : ∀ a, P a → m.Calls now (f a) R) :
    m.Calls now (x >>= f) R := by
  rw [Checks, Calls] at hx
  rw [Calls, wp_bind]
  apply wp_mono hx
  intro r m' hr
  cases r with
  | ok a =>
    obtain ⟨rfl, ha⟩ := hr
    exact hf a ha
  | error =>
    refine ⟨hr.1, fun b m' hb => ?_⟩
    obtain ⟨a, ha⟩ := hR b m' hb
    exact hr.2 a m ⟨rfl, ha⟩

variable {R : α → ThresholdSessionMachine F → Prop}

lemma Calls.of_ok {a : α} (h : m.Calls now x R) (ha : (x m).1 = .ok a) : R a (x m).2 := by
  simpa only [Calls, wp, ha] using h

lemma Calls.exists_ok (h : m.Calls now x R) (hR : ∃ a m', R a m') : ∃ a, (x m).1 = .ok a := by
  cases hx : (x m).1 with
  | ok a => exact ⟨a, rfl⟩
  | error =>
    rw [Calls, wp, hx] at h
    obtain ⟨a, m', ha⟩ := hR
    exact absurd ha (h.2 a m')

lemma Closes.moves (h : m.Closes now m') : m.Moves now m' := by
  obtain ⟨hrun, _, hterm, hunfin, kind, signerId, code, rfl⟩ := h
  exact ⟨_, .close hrun hterm hunfin, kind, signerId, code, rfl⟩

lemma expire_ends (m : ThresholdSessionMachine F) (now : Time) :
    (expire now : Action F Bool).wp (fun r m' =>
      (r = .ok false ∧ m' = m ∧ (now ≤ m.deadline ∨ m.phase.isTerminal = true)) ∨
        r = .ok true ∧ m.deadline < now ∧ m.Closes now m') m := by
  simp only [expire, wp_iff, wp_ite]
  constructor
  · intro h
    exact .inl ⟨trivial, trivial, h⟩
  · intro h
    have hrun : m.phase.isTerminal = false := by
      simpa using fun ht => h (.inr ht)
    have hlate : m.deadline < now := not_le.mp fun hle => h (.inl hle)
    exact .inr ⟨trivial, hlate, hrun, .expired, rfl, by decide, _, _, _, rfl⟩

lemma checkDeadline_checks : m.Checks now (checkDeadline now) fun _ =>
    (now ≤ m.deadline ∨ m.phase.isTerminal = true) ∧ m.phase ≠ .expired := by
  simp only [Checks, Calls, checkDeadline, wp_bind]
  apply wp_mono (expire_ends m now)
  intro r m' hr
  rcases hr with ⟨rfl, rfl, htime⟩ | ⟨rfl, hlate, hcloses⟩
  · simp only [wp_iff]
    constructor
    · intro hphase
      exact ⟨trivial, htime, fun he => hphase (.inr he)⟩
    · intro hended
      have hexp : m'.phase = .expired := by simpa using hended
      exact ⟨.inl trivial, fun _ _ h => h.2.2 hexp⟩
  · simp only [wp_iff]
    constructor
    · intro hfalse
      exact absurd (.inl trivial) hfalse
    · intro _
      refine ⟨.inr hcloses, ?_⟩
      rintro _ _ ⟨-, htime | hterm, -⟩
      · exact absurd hlate (not_lt.mpr htime)
      · simp [hcloses.1] at hterm

lemma requirePhase_checks {expected : SessionPhase} (hrun : expected.isTerminal = false) :
    m.Checks now (requirePhase expected now) fun _ => m.phase = expected ∧ now ≤ m.deadline := by
  have hunexp : m.phase = expected → m.phase ≠ .expired := by
    rintro rfl hexp
    rw [hexp] at hrun
    cases hrun
  refine checkDeadline_checks.bind (fun _ _ h => ⟨(), .inl h.2.2, hunexp h.2.1⟩) ?_
  rintro _ ⟨htime, _⟩
  simp only [Calls, wp_iff]
  constructor
  · intro hphase
    rcases htime with hle | hterm
    · exact ⟨trivial, hphase, hle⟩
    · simp [hphase, hrun] at hterm
  · intro hphase
    exact ⟨.inl trivial, fun _ _ h => hphase h.2.1⟩

lemma fail_closes (hrun : m.phase.isTerminal = false) (signerId : Option UInt16)
    (code : String) : m.Closes now (m.fail now signerId code) :=
  ⟨hrun, .failed, rfl, by decide, _, _, _, rfl⟩

variable {p : BoundParticipant}

lemma requireIdentity_checks (hrun : m.phase.isTerminal = false) :
    m.Checks now (requireIdentity p now) fun _ => m.participants.get p.signerId = some p := by
  simp only [Checks, Calls, requireIdentity, wp_iff, wp_ite, wp_error]
  constructor
  · intro hunbound
    exact ⟨.inr (fail_closes hrun _ _), fun _ _ h => hunbound h.2⟩
  · intro hbound
    exact ⟨trivial, by simpa using hbound⟩

lemma identifier_checks (signerId : UInt16) : m.Checks now
    (lift ((F.participantIdentifier signerId).mapError fun _ => .unknownParticipant))
    fun identifier => F.participantIdentifier signerId = .ok identifier := by
  simp only [Checks, Calls, wp_iff]
  refine ⟨fun identifier h => ⟨trivial, h⟩, fun e he => ⟨.inl trivial, fun _ _ h => ?_⟩⟩
  rw [he] at h
  cases h.2

/-- The machine takes a commitment. -/
def Commits (m : ThresholdSessionMachine F) (p : BoundParticipant)
    (commitment : F.SigningCommitments) (now : Time) (m' : ThresholdSessionMachine F) : Prop :=
  m.phase = .collectingCommitments ∧ now ≤ m.deadline ∧ m.participants.get p.signerId = some p ∧
    ∃ identifier, F.participantIdentifier p.signerId = .ok identifier ∧
      m.commitments.get identifier = none ∧
      m' = (m.commit identifier commitment).record now .commitmentAccepted (some p.signerId) none

variable (p)

lemma addCommitment_calls (commitment : F.SigningCommitments) :
    m.Calls now (addCommitment p commitment now) fun _ m' => m.Commits p commitment now m' := by
  refine (requirePhase_checks rfl).bind (fun _ _ h => ⟨(), h.1, h.2.1⟩) ?_
  rintro _ ⟨hphase, htime⟩
  refine (requireIdentity_checks (by rw [hphase]; rfl)).bind (fun _ _ h => ⟨(), h.2.2.1⟩) ?_
  intro _ hbound
  refine (identifier_checks p.signerId).bind (fun _ _ h => ⟨_, h.2.2.2.choose_spec.1⟩) ?_
  intro identifier hnamed
  simp only [Calls, wp_iff]
  constructor
  · intro hnew
    exact ⟨hphase, htime, hbound, identifier, hnamed, by simpa using hnew, rfl⟩
  · intro hused
    refine ⟨.inl trivial, ?_⟩
    rintro _ _ ⟨-, -, -, _, hnamed', hnew, -⟩
    obtain rfl := Except.ok.inj (hnamed.symm.trans hnamed')
    exact hused (by rw [hnew]; rfl)

/-- The machine freezes its commitments and returns the session to sign in. -/
def Freezes (m : ThresholdSessionMachine F) (now : Time) (session : FrostSession F)
    (m' : ThresholdSessionMachine F) : Prop :=
  m.phase = .collectingCommitments ∧ now ≤ m.deadline ∧
    m.minSigners.toNat ≤ m.commitments.card ∧
    session = buildSession m.sessionId m.message m.minSigners m.commitments m.publicKeyPackage ∧
    m' = m.freeze.record now .commitmentsFrozen none none

lemma freezeCommitments_calls : m.Calls now (freezeCommitments now) (m.Freezes now) := by
  refine (requirePhase_checks rfl).bind (fun _ _ h => ⟨(), h.1, h.2.1⟩) ?_
  rintro _ ⟨hphase, htime⟩
  simp only [Calls, wp_iff]
  constructor
  · intro henough
    exact ⟨hphase, htime, henough, rfl, rfl⟩
  · intro hfew
    exact ⟨.inl trivial, fun _ _ h => hfew h.2.2.1⟩

/-- The machine takes a share. -/
def Shares (m : ThresholdSessionMachine F) (p : BoundParticipant) (share : F.SignatureShare)
    (now : Time) (m' : ThresholdSessionMachine F) : Prop :=
  m.phase = .collectingShares ∧ now ≤ m.deadline ∧ m.participants.get p.signerId = some p ∧
    ∃ identifier, F.participantIdentifier p.signerId = .ok identifier ∧
      m.ShareVerified identifier share ∧ m.shares.get identifier = none ∧
      m' = (m.accept identifier share).record now .shareAccepted (some p.signerId) none

variable (share : F.SignatureShare)

lemma addSignatureShare_calls :
    m.Calls now (addSignatureShare p share now) fun _ m' => m.Shares p share now m' := by
  refine (requirePhase_checks rfl).bind (fun _ _ h => ⟨(), h.1, h.2.1⟩) ?_
  rintro _ ⟨hphase, htime⟩
  have hrun : m.phase.isTerminal = false := by rw [hphase]; rfl
  refine (requireIdentity_checks hrun).bind (fun _ _ h => ⟨(), h.2.2.1⟩) ?_
  intro _ hbound
  refine (identifier_checks p.signerId).bind (fun _ _ h => ⟨_, h.2.2.2.choose_spec.1⟩) ?_
  intro identifier hnamed
  have hneeds : ∀ m', m.Shares p share now m' →
      m.ShareVerified identifier share ∧ m.shares.get identifier = none := by
    rintro _ ⟨-, -, -, _, hnamed', hver, hnew, -⟩
    obtain rfl := Except.ok.inj (hnamed.symm.trans hnamed')
    exact ⟨hver, hnew⟩
  simp only [Calls, wp_iff, wp_ite, wp_error]
  refine ⟨fun session hfrozen => ⟨?_, ?_⟩, fun hfrozen => ⟨.inl trivial, fun _ _ h => ?_⟩⟩
  · intro hcomd
    refine ⟨.inr (fail_closes hrun _ _), fun _ _ h => ?_⟩
    obtain ⟨⟨session', hfrozen', hcomd', -⟩, -⟩ := hneeds _ h
    simp_all
  · intro hcomd
    refine ⟨fun hnew => ⟨fun verifyingShare hknown => ⟨?_, ?_⟩, fun hknown =>
      ⟨.inl trivial, fun _ _ h => ?_⟩⟩, fun hused => ⟨.inl trivial, fun _ _ h => ?_⟩⟩
    · intro hver
      have hcomd' : (session.signingPackage.signingCommitments.get identifier).isSome := by
        simpa [Option.isNone_iff_eq_none, Option.isSome_iff_ne_none] using hcomd
      have hshare : m.ShareVerified identifier share :=
        ⟨session, hfrozen, hcomd', verifyingShare, hknown, hver⟩
      exact ⟨hphase, htime, hbound, identifier, hnamed, hshare, by simpa using hnew, rfl⟩
    · intro _
      refine ⟨.inr (fail_closes hrun _ _), fun _ _ h => ?_⟩
      obtain ⟨⟨session', hfrozen', -, verifyingShare', hknown', _⟩, -⟩ := hneeds _ h
      simp_all
    · obtain ⟨⟨session', -, -, _, _, -⟩, -⟩ := hneeds _ h
      simp_all
    · exact hused (by rw [(hneeds _ h).2]; rfl)
  · obtain ⟨⟨_, _, -⟩, -⟩ := hneeds _ h
    simp_all

variable (m)

/-- The machine is finalized. -/
def Finalizes (now : Time) (m' : ThresholdSessionMachine F) : Prop :=
  m.phase = .collectingShares ∧ now ≤ m.deadline ∧ m.minSigners.toNat ≤ m.shares.card ∧
    m' = (m.enter .finalized).record now .sessionFinalized none none

def Aggregates (signature : F.Signature) : Prop :=
  ∃ session, m.frozenSession = some session ∧ aggregateAndVerify session m.shares = .ok signature

variable {m}

lemma finalize_calls : m.Calls now (finalize now) fun signature m' =>
    m.Finalizes now m' ∧ m.Aggregates signature := by
  refine (requirePhase_checks rfl).bind (fun _ _ h => ⟨(), h.1.1, h.1.2.1⟩) ?_
  rintro _ ⟨hphase, htime⟩
  simp only [Calls, wp_iff]
  refine ⟨fun henough => ⟨fun session hfrozen => ?_, fun hnone => ⟨.inl trivial, ?_⟩⟩,
    fun hfew => ⟨.inl trivial, fun _ _ h => hfew h.1.2.2.1⟩⟩
  · cases hsig : aggregateAndVerify session m.shares with
    | ok => exact ⟨⟨hphase, htime, henough, rfl⟩, session, hfrozen, hsig⟩
    | error =>
      refine ⟨.inr (fail_closes (by rw [hphase]; rfl) _ _), ?_⟩
      rintro signature _ ⟨-, session', hfrozen', _⟩
      simp_all
  · rintro _ _ ⟨-, _, _, -⟩
    simp_all

variable (m)

/-- A call that fails leaves the machine as it is, unless there is a cause to close it. -/
def ClosesFor (cause : Prop) (x : Action F α) : Prop :=
  x.wp (fun r m' => (∃ a, r = .ok a) ∨ m' = m ∨ cause) m

/-- The share comes from another than the bound participant, or does not verify in the frozen
session. -/
def RejectsShare (p : BoundParticipant) (share : F.SignatureShare) : Prop :=
  m.phase = .collectingShares ∧ (m.participants.get p.signerId ≠ some p ∨
    ∃ identifier, F.participantIdentifier p.signerId = .ok identifier ∧
      ¬m.ShareVerified identifier share)

variable {p m}

lemma addCommitment_closesFor (commitment : F.SigningCommitments) :
    m.ClosesFor (m.deadline < now ∨
        m.phase = .collectingCommitments ∧ m.participants.get p.signerId ≠ some p)
      (addCommitment p commitment now) := by
  by_cases hlate : m.deadline < now
  · exact .inr (.inr (.inl hlate))
  · simp only [ClosesFor, addCommitment, requirePhase, checkDeadline, expire, requireIdentity,
      not_lt.mp hlate, wp_iff, wp_ite, wp_error, true_or]
    simp +contextual

lemma freezeCommitments_closesFor : m.ClosesFor (m.deadline < now) (freezeCommitments now) := by
  by_cases hlate : m.deadline < now
  · exact .inr (.inr hlate)
  · simp only [ClosesFor, freezeCommitments, requirePhase, checkDeadline, expire,
      not_lt.mp hlate, wp_iff, wp_ite, true_or]
    simp

lemma addSignatureShare_closesFor :
    m.ClosesFor (m.deadline < now ∨ m.RejectsShare p share)
      (addSignatureShare p share now) := by
  by_cases hlate : m.deadline < now
  · exact .inr (.inr (.inl hlate))
  · simp only [ClosesFor, addSignatureShare, requirePhase, checkDeadline, expire, requireIdentity,
      not_lt.mp hlate, wp_iff, wp_ite, wp_error, true_or]
    simp +contextual [RejectsShare, ShareVerified]

lemma finalize_closesFor : m.ClosesFor (m.deadline < now ∨ m.phase = .collectingShares ∧
    m.minSigners.toNat ≤ m.shares.card ∧ ∀ signature, ¬m.Aggregates signature) (finalize now) := by
  by_cases hlate : m.deadline < now
  · exact .inr (.inr (.inl hlate))
  · simp only [ClosesFor, finalize, requirePhase, checkDeadline, expire, not_lt.mp hlate, wp_iff,
      wp_ite, true_or]
    simp only [true_implies, not_true, false_implies, and_true, or_true, implies_true]
    intro _ hphase henough session hfrozen
    cases hagg : aggregateAndVerify session m.shares with
    | ok => exact .inl ⟨_, rfl⟩
    | error =>
      refine .inr (.inr (.inr ⟨hphase, henough, ?_⟩))
      rintro _ ⟨_, hfrozen', hok⟩
      cases hfrozen.symm.trans hfrozen'
      cases hagg.symm.trans hok

lemma abort_calls (reasonCode : String) :
    m.Calls now (abort reasonCode now) fun _ m' => m.Closes now m' ∧ now ≤ m.deadline := by
  refine checkDeadline_checks.bind (fun _ _ h => ⟨(), .inl h.2, ?_⟩) ?_
  · intro hexp
    have hrun := h.1.1
    rw [hexp] at hrun
    cases hrun
  · rintro _ ⟨htime, -⟩
    simp only [Calls, wp_iff]
    constructor
    · intro hrun
      exact ⟨⟨by simpa using hrun, .aborted, rfl, by decide, _, _, _, rfl⟩,
        htime.resolve_right hrun⟩
    · intro hended
      exact ⟨.inl trivial, fun _ _ h => hended (by simp [h.1.1])⟩

/-- A call that changes the machine only in the listed ways makes one of them or none. -/
lemma Calls.same_or_moves (h : m.Calls now x R) (hR : ∀ a m', R a m' → m.Moves now m') :
    (x m).2 = m ∨ m.Moves now (x m).2 := by
  cases hr : (x m).1 with
  | ok a => exact .inr (hR a _ (h.of_ok hr))
  | error =>
    rw [Calls, wp, hr] at h
    exact h.1.imp id Closes.moves

variable (m)

lemma step_cases (c : Call F) : m.step c = m ∨ m.Moves c.time (m.step c) := by
  cases c with
  | addCommitment p commitment =>
    apply (addCommitment_calls p commitment).same_or_moves
    rintro _ m' ⟨hphase, _, hbound, identifier, hnamed, _, hm'⟩
    exact ⟨_, .commit commitment hphase hbound hnamed, _, _, _, hm'⟩
  | freezeCommitments =>
    apply freezeCommitments_calls.same_or_moves
    rintro _ m' ⟨hphase, _, henough, _, hm'⟩
    exact ⟨_, .freeze hphase henough, _, _, _, hm'⟩
  | addSignatureShare p share =>
    apply (addSignatureShare_calls p share).same_or_moves
    rintro _ m' ⟨hphase, _, _, _, _, hver, _, hm'⟩
    exact ⟨_, .share hphase hver, _, _, _, hm'⟩
  | finalize =>
    apply finalize_calls.same_or_moves
    rintro _ _ ⟨⟨hphase, htime, henough, hm'⟩, -⟩
    exact ⟨_, .finalize hphase htime henough, _, _, _, hm'⟩
  | abort reasonCode => exact (abort_calls reasonCode).same_or_moves fun _ _ h => h.1.moves
  | expire now =>
    rcases expire_ends m now with ⟨-, hsame, -⟩ | ⟨-, -, hcloses⟩
    · exact .inl hsame
    · exact .inr hcloses.moves

/-- Commitments come from participants, enough of them make the frozen session, and every share
verifies in it. -/
structure Bound : Prop where
  committed : ∀ id c, m.commitments.get id = some c →
    ∃ p, m.participants.get p.signerId = some p ∧ F.participantIdentifier p.signerId = .ok id
  frozen : ∀ session, m.frozenSession = some session → m.phase ≠ .collectingCommitments ∧
    session = buildSession m.sessionId m.message m.minSigners m.commitments m.publicKeyPackage
  sharing : m.phase = .collectingShares →
    m.frozenSession.isSome = true ∧ m.minSigners.toNat ≤ m.commitments.card
  shared : ∀ id share, m.shares.get id = some share → m.ShareVerified id share

variable {m}

lemma Bound.collecting (h : Bound m) (hphase : m.phase = .collectingCommitments) :
    m.frozenSession = none ∧ ∀ id, m.shares.get id = none := by
  have hnone : m.frozenSession = none := by
    cases hfrozen : m.frozenSession with
    | none => rfl
    | some session => exact absurd hphase (h.frozen session hfrozen).1
  refine ⟨hnone, ?_⟩
  intro id
  cases hshare : m.shares.get id with
  | none => rfl
  | some share =>
    obtain ⟨_, hsess, -⟩ := h.shared id share hshare
    simp [hnone] at hsess

lemma Bound.changes (h : Bound m) (hchanges : m.Changes now m') : Bound m' := by
  cases hchanges with
  | @commit p _ _ phase bound named =>
    obtain ⟨hnone, hshares⟩ := h.collecting phase
    refine ⟨?_, ?_, fun hshar => absurd (phase.symm.trans hshar) (by decide), ?_⟩
    · intro id c hc
      simp only [commit, get_put] at hc
      split_ifs at hc with hid
      · exact ⟨p, bound, by rw [hid, named]⟩
      · exact h.committed id c hc
    · intro session hsess
      simp [commit, hnone] at hsess
    · intro id share hshare
      simp [commit, hshares id] at hshare
  | freeze phase enough =>
    obtain ⟨-, hshares⟩ := h.collecting phase
    refine ⟨h.committed, ?_, fun _ => ⟨rfl, enough⟩, ?_⟩
    · intro session hsess
      cases hsess
      exact ⟨by simp [freeze], rfl⟩
    · intro id share hshare
      simp [freeze, hshares id] at hshare
  | @share _ _ _ verified =>
    refine ⟨h.committed, h.frozen, h.sharing, ?_⟩
    intro id share' hshare
    simp only [accept, get_put] at hshare
    split_ifs at hshare with hid
    · cases hshare
      rw [hid]
      exact verified
    · exact h.shared id share' hshare
  | finalize =>
    exact ⟨h.committed, fun session hs => ⟨by simp [enter], (h.frozen session hs).2⟩,
      fun hshar => absurd hshar (by simp [enter]), h.shared⟩
  | @close _ _ terminal =>
    refine ⟨h.committed, fun session hs => ⟨?_, (h.frozen session hs).2⟩, ?_, h.shared⟩
    all_goals
      rintro rfl
      cases terminal

lemma verifyAuditChain_record (h : m.verifyAuditChain = true) (kind : AuditEventKind)
    (signerId : Option UInt16) (code : Option String) :
    (m.record now kind signerId code).verifyAuditChain = true :=
  (auditLinking F).verify_concat h ⟨rfl, rfl⟩

lemma Changes.fixed (h : m.Changes now m') : m'.participants = m.participants ∧
    m'.deadline = m.deadline ∧ m'.minSigners = m.minSigners ∧ m'.audit = m.audit := by
  cases h <;> exact ⟨rfl, rfl, rfl, rfl⟩

lemma Changes.running (h : m.Changes now m') : m.phase.isTerminal = false := by
  cases h with
  | commit _ phase | freeze phase | share phase | finalize phase => rw [phase]; rfl
  | close running => exact running

lemma Changes.finalized (h : m.Changes now m') (hpre : m.phase ≠ .finalized)
    (hafter : m'.phase = .finalized) :
    now ≤ m.deadline ∧ m.minSigners.toNat ≤ m.shares.card := by
  cases h with
  | commit | share => exact absurd hafter hpre
  | freeze => simp [ThresholdSessionMachine.freeze] at hafter
  | finalize _ intime enough => exact ⟨intime, enough⟩
  | close _ _ unfinished => exact absurd hafter unfinished

/-- The invariant of a machine, relative to the one it started as. -/
structure Safe (m₀ m : ThresholdSessionMachine F) : Prop where
  bound : Bound m
  audited : m.verifyAuditChain = true
  participants : m.participants = m₀.participants
  deadline : m.deadline = m₀.deadline
  minSigners : m.minSigners = m₀.minSigners

variable {m₀ : ThresholdSessionMachine F}

lemma Safe.step (h : Safe m₀ m) (c : Call F) : Safe m₀ (m.step c) := by
  rcases step_cases m c with hsame | hmoves
  · rwa [hsame]
  · obtain ⟨next, changes, kind, signerId, code, hnext⟩ := hmoves
    rw [hnext]
    obtain ⟨hparts, hdead, hmin, haudit⟩ := changes.fixed
    have hbound := h.bound.changes changes
    have haudited : next.verifyAuditChain = true := by
      rw [verifyAuditChain, haudit]
      exact h.audited
    exact ⟨⟨hbound.committed, hbound.frozen, hbound.sharing, hbound.shared⟩,
      verifyAuditChain_record haudited kind signerId code, hparts.trans h.participants,
      hdead.trans h.deadline, hmin.trans h.minSigners⟩

lemma Safe.run (h : Safe m₀ m) (calls : List (Call F)) : Safe m₀ (m.run calls) := by
  induction calls generalizing m with
  | nil => exact h
  | cons c _ ih => exact ih (h.step c)

lemma run_of_terminal (h : m.phase.isTerminal = true) (calls : List (Call F)) :
    m.run calls = m := by
  induction calls with
  | nil => rfl
  | cons c rest ih =>
    have hstep : m.step c = m := by
      rcases step_cases m c with hsame | hmoves
      · exact hsame
      · obtain ⟨_, changes, -⟩ := hmoves
        simp [changes.running] at h
    show (m.step c).run rest = m
    rw [hstep, ih]

section New

variable {sessionId message policyDigest : Bytes32} {minSigners : UInt16} {deadline start : Time}
  {participants : List BoundParticipant} {keys : F.PublicKeys}

lemma new_eq_ok (h : new sessionId message policyDigest minSigners deadline participants keys
    start = .ok m₀) :
    Safe m₀ m₀ ∧ m₀.participants = participantMap participants ∧ m₀.deadline = deadline ∧
      m₀.minSigners = minSigners := by
  simp only [new, ok_iff] at h
  obtain ⟨-, rfl⟩ := h
  refine ⟨⟨⟨?_, ?_, fun h => absurd h (by simp [record]), ?_⟩, verifyAuditChain_record rfl _ _ _,
    rfl, rfl, rfl⟩, rfl, rfl, rfl⟩
  · intro id c hc
    simp [record] at hc
  · intro _ hsess
    simp [record] at hsess
  · intro _ _ hshare
    simp [record] at hshare

lemma mem_of_get_participantMap {signerId : UInt16}
    (h : (participantMap participants).get signerId = some p) : p ∈ participants := by
  rcases put_mem_or_get_of_applyAll h with hput | hempty
  · obtain ⟨_, hq, heq⟩ := List.mem_map.mp hput
    obtain ⟨-, rfl⟩ := Edit.put.inj heq
    exact hq
  · simp at hempty

/-- In every run a closed phase is final, shares come from the frozen commitments and these from the
participants, only enough verified shares before the deadline finalize, and the audit stream
verifies. -/
theorem run_safe (h : new sessionId message policyDigest minSigners deadline participants keys
    start = .ok m₀) (calls : List (Call F)) :
    let m := m₀.run calls
    (m.phase.isTerminal = true → ∀ later, (m.run later).phase = m.phase) ∧
      (∀ id, (m.shares.get id).isSome = true → ∃ session, m.frozenSession = some session ∧
        (session.signingPackage.signingCommitments.get id).isSome = true) ∧
      (∀ session id, m.frozenSession = some session →
        (session.signingPackage.signingCommitments.get id).isSome = true →
        ∃ p ∈ participants, F.participantIdentifier p.signerId = .ok id) ∧
      (∀ c, m.phase ≠ .finalized → (m.step c).phase = .finalized →
        c.time ≤ deadline ∧ minSigners.toNat ≤ m.shares.card ∧
          ∀ id share, m.shares.get id = some share → m.ShareVerified id share) ∧
      m.verifyAuditChain = true := by
  intro m
  obtain ⟨hstart, hparts, hdead, hmin⟩ := new_eq_ok h
  have hsafe : Safe m₀ m := hstart.run calls
  refine ⟨?_, ?_, ?_, ?_, hsafe.audited⟩
  · intro hterm _
    rw [run_of_terminal hterm]
  · intro id hid
    obtain ⟨share, hshare⟩ := Option.isSome_iff_exists.mp hid
    obtain ⟨session, hsess, hcomd, -⟩ := hsafe.bound.shared id share hshare
    exact ⟨session, hsess, hcomd⟩
  · intro session id hsess hid
    obtain ⟨-, rfl⟩ := hsafe.bound.frozen session hsess
    obtain ⟨c, hc⟩ := Option.isSome_iff_exists.mp hid
    obtain ⟨p, hp, hnamed⟩ := hsafe.bound.committed id c hc
    rw [hsafe.participants, hparts] at hp
    exact ⟨p, mem_of_get_participantMap hp, hnamed⟩
  · intro c hpre hafter
    rcases step_cases m c with hsame | hmoves
    · rw [hsame] at hafter
      exact absurd hafter hpre
    · obtain ⟨_, changes, _, _, _, hnext⟩ := hmoves
      rw [hnext] at hafter
      obtain ⟨htime, henough⟩ := changes.finalized hpre hafter
      rw [hsafe.deadline, hdead] at htime
      rw [hsafe.minSigners, hmin] at henough
      exact ⟨htime, henough, hsafe.bound.shared⟩

end New

def openSuite : FrostSuite where
  Identifier := UInt16
  SigningCommitments := Unit
  SignatureShare := Unit
  VerifyingShare := Unit
  VerifyingKey := Unit
  Signature := Unit
  identifierDecEq := inferInstance
  identifierOf := fun id => if id = 0 then .error "malformed identifier" else .ok id
  verifySignatureShare := fun _ _ _ _ _ => .ok ()
  aggregate := fun _ _ _ => .ok ()
  verify := fun _ _ _ => .ok ()
  sha256 := fun _ => .replicate 1

def soloSigner : BoundParticipant := ⟨1, 7, 1, .zeros⟩

def soloSession : Except OrchestrationError (ThresholdSessionMachine openSuite) :=
  new .zeros .zeros .zeros 1 10 [soloSigner] ⟨empty.put (1 : UInt16) (), ()⟩ 0

def soloCalls : List (Call openSuite) :=
  [.addCommitment soloSigner () 1, .freezeCommitments 2, .addSignatureShare soloSigner () 3,
    .finalize 4, .abort "late" 5, .expire 11]

theorem run_safe_solo : ∃ m₀, soloSession = .ok m₀ ∧ (m₀.run soloCalls).phase = .finalized ∧
    (∀ later, ((m₀.run soloCalls).run later).phase = .finalized) ∧
    (m₀.run soloCalls).verifyAuditChain = true := by
  have hphase : soloSession.toOption.map (fun m => (m.run soloCalls).phase) = some .finalized := by
    decide +kernel
  obtain ⟨m₀, hnew, hfinal⟩ := exists_ok_of_toOption hphase
  obtain ⟨hterm, -, -, -, haudit⟩ := run_safe hnew soloCalls
  refine ⟨m₀, hnew, hfinal, ?_, haudit⟩
  intro later
  rw [hterm (by rw [hfinal]; rfl) later, hfinal]

/-- Every change is on the audit stream, which gains at most one event a call, with its time. -/
theorem run_audited (m : ThresholdSessionMachine F) (calls : List (Call F)) :
    ∃ events, (m.run calls).audit = m.audit ++ events ∧
      (events.map AuditEvent.time).Sublist (calls.map Call.time) ∧
      (events = [] → m.run calls = m) := by
  induction calls generalizing m with
  | nil => exact ⟨[], by simp [run], .refl _, fun _ => rfl⟩
  | cons c calls ih =>
    obtain ⟨events, haudit, htimes, hsame⟩ := ih (m.step c)
    rw [show m.run (c :: calls) = (m.step c).run calls from rfl]
    rcases step_cases m c with hstep | ⟨_, changes, _, _, _, hstep⟩
    · rw [hstep] at haudit hsame ⊢
      exact ⟨events, haudit, htimes.cons _, hsame⟩
    · rw [haudit, hstep]
      simp only [record, changes.fixed.2.2.2, List.append_assoc]
      exact ⟨_, rfl, htimes.cons_cons _, by simp⟩

end ThresholdSessionMachine

end Catomicals.ThresholdSigner
