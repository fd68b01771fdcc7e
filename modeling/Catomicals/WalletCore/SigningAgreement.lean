import Catomicals.WalletCore.SigningEffects

/-!
# Live and durable signing state

A call that fails after the machine has closed itself writes nothing. Machine and record agree
throughout a run in which no call endangers the session it answers: none comes too late, from a
participant other than the bound one, with a bad share, or with shares that give no signature.
-/
namespace Catomicals.WalletCore.PersonalSigningCoordinator

open Base Table Method SigningDb List WalletStorage ThresholdSigner

variable {S : CoordinatorSuite} {K : PersonalSigningStore} (c : PersonalSigningCoordinator S K)

def RecordOver (id : Uuid) : Prop :=
  ∃ o, c.books.record id = some o ∧ operationOver o.status = true

/-- The machine of every live operation is closed exactly if the operation's record is over. -/
def Agrees : Prop :=
  ∀ id live, c.operations.get id = some live →
    (live.machine.phase.isTerminal = true ↔ c.RecordOver id)

def StoreFails (call : Call) : Prop :=
  ∃ e, (step call c).1 = .error e ∧ e.isStorage = true

variable {c} {c' c₀ : PersonalSigningCoordinator S K} {id : Uuid} {live : LiveOperation S}
  {b : Books} {m m' : S.Machine} {now : Time} {call : Call} {calls : List Call}

lemma Agrees.put (h : c.Agrees) (hends : c.Ends (c.operations.put id live) b c')
    (hoth : ∀ id', id' ≠ id → b.record id' = c.books.record id')
    (hat : live.machine.phase.isTerminal = true ↔
      ∃ o, b.record id = some o ∧ operationOver o.status = true) : c'.Agrees := by
  intro id' o ho
  rw [hends.operations, get_put] at ho
  rw [RecordOver, hends.books]
  split_ifs at ho with hid
  · cases ho
    rw [hid]
    exact hat
  · rw [hoth id' hid]
    exact h id' o ho

lemma Agrees.put_running (h : c.Agrees) {live' : LiveOperation S}
    (hlive : c.operations.get id = some live) (hends : c.Ends (c.operations.put id live') b c')
    (hpre : live.machine.phase.isTerminal = false)
    (hafter : live'.machine.phase.isTerminal = false) (hrec : b.record = c.books.record) :
    c'.Agrees := by
  apply h.put hends fun id' _ => by rw [hrec]
  have hat := h id live hlive
  rw [hpre] at hat
  rw [hafter, hrec]
  exact hat

lemma record_of_moved {p : OperationStatus → Bool}
    {change : OperationRow → OperationRow} (h : c.books.Moved id p change b)
    (hchng : ∀ o, (change o).operationId = o.operationId) :
    ∃ o, c.books.record id = some o ∧ p o.status = true ∧ b.record id = some (change o) ∧
      ∀ id', id' ≠ id → b.record id' = c.books.record id' := by
  obtain ⟨o, ho, hp, rfl⟩ := h
  have hkey : (change o).operationId = id := (hchng o).trans (K.id_of_record ho)
  refine ⟨o, ho, hp, ?_, ?_⟩
  · rw [Books.record_setRecord, if_pos hkey.symm]
  · intro _ hne
    rw [Books.record_setRecord, hkey, if_neg hne]

variable {profile : PersonalSignerProfile}

lemma terminal_of_closes (h : m.Closes now m') : m'.phase.isTerminal = true := by
  obtain ⟨-, _, hterm, -, _, _, _, rfl⟩ := h
  exact hterm

lemma running_of_freezes {session : ThresholdSigner.FrostSession S.toFrostSuite}
    (h : m.Freezes now session m') :
    m.phase.isTerminal = false ∧ m'.phase.isTerminal = false := by
  obtain ⟨hphase, -, -, -, rfl⟩ := h
  exact ⟨by rw [hphase]; rfl, rfl⟩

lemma terminal_of_finalizes (h : m.Finalizes now m') :
    m.phase.isTerminal = false ∧ m'.phase.isTerminal = true := by
  obtain ⟨hphase, -, -, rfl⟩ := h
  exact ⟨by rw [hphase]; rfl, rfl⟩

lemma running_of_slip {e : PersonalSigningError} (h : Slip live e m') :
    live.machine.phase.isTerminal = false := by
  cases h with
  | closed hcloses => exact hcloses.1
  | commitment _ _ hcommits => exact congrArg SessionPhase.isTerminal hcommits.1
  | freeze hfreezes => exact (running_of_freezes hfreezes).1
  | share _ _ hshares => exact congrArg SessionPhase.isTerminal hshares.1
  | finalize hfin => exact (terminal_of_finalizes hfin).1

lemma error_of_failureOf {α : Type} {r : Except PersonalSigningError α}
    {e : PersonalSigningError} (h : failureOf r = some e) : r = .error e := by
  cases r with
  | ok => cases h
  | error => exact congrArg Except.error (Option.some.inj h)

/-- A call without store failure that does not endanger its session keeps the agreement. -/
lemma Agrees.step (h : c.Agrees) (hcall : call.isRecovery = false) (hstore : ¬c.StoreFails call)
    (hsafe : ¬c.Endangers call) : (step call c).2.Agrees := by
  obtain ⟨_, _, heff, hends⟩ := step_effects c hcall
  generalize hfail : failureOf (PersonalSigningCoordinator.step call c).1 = failure at heff
  cases heff with
  | same =>
    intro id live hlive
    rw [hends.operations] at hlive
    rw [RecordOver, hends.books]
    exact h id live hlive
  | @slipped _ _ _ m' hlive hslip hcause _ =>
    have hopen : m'.phase.isTerminal = false := by
      rw [← Bool.not_eq_true]
      intro hterm
      rcases hcause hterm with hstor | hdanger
      · exact hstore ⟨_, error_of_failureOf hfail, hstor⟩
      · exact hsafe hdanger
    exact h.put_running hlive hends (running_of_slip hslip) hopen rfl
  | @opened request now _ _ _ _ _ _ _ _ _ hmach =>
    have hrec : (c.books.setRecord (newRecord S c.profile request now).row).record
        request.operationId = some (newRecord S c.profile request now).row := if_pos rfl
    apply h.put hends
    · intro _ hne
      exact if_neg hne
    · simp only [newMachine, ThresholdSessionMachine.new, ok_iff, mapError_eq_ok] at hmach
      obtain ⟨_, -, -, rfl⟩ := hmach
      rw [hrec]
      constructor
      · intro hfalse
        cases hfalse
      · rintro ⟨o, ho, hover⟩
        cases ho
        cases hover
  | committed hlive _ _ _ hcmts hrecd =>
    obtain ⟨hphase, -, -, _, -, -, rfl⟩ := hcmts
    have hrun := congrArg SessionPhase.isTerminal hphase
    exact h.put_running hlive hends hrun hrun hrecd.record
  | frozen _ _ hfreezes _ hmoved =>
    obtain ⟨o, -, -, hrec, hoth⟩ := record_of_moved hmoved fun _ => rfl
    apply h.put hends hoth
    rw [(running_of_freezes hfreezes).2, hrec]
    constructor
    · intro hfalse
      cases hfalse
    · rintro ⟨_, ho', hover⟩
      cases ho'
      cases hover
  | shared hlive _ _ _ hshares hrecd =>
    obtain ⟨hphase, -, -, _, -, -, -, rfl⟩ := hshares
    have hrun := congrArg SessionPhase.isTerminal hphase
    exact h.put_running hlive hends hrun hrun hrecd.record
  | finalized _ hfin hmoved =>
    obtain ⟨o, -, -, hrec, hoth⟩ := record_of_moved hmoved fun _ => rfl
    apply h.put hends hoth
    exact iff_of_true (terminal_of_finalizes hfin).2 ⟨_, hrec, rfl⟩
  | expired _ hcloses hmoved =>
    obtain ⟨_, -, -, hrec, hoth⟩ := record_of_moved hmoved fun _ => rfl
    apply h.put hends hoth
    exact iff_of_true (terminal_of_closes hcloses) ⟨_, hrec, rfl⟩

def ClosedAt (c : PersonalSigningCoordinator S K) (id : Uuid) : Prop :=
  ∃ live, c.operations.get id = some live ∧ live.machine.phase.isTerminal = true

lemma closedAt_insertOperation (h : live.machine.phase.isTerminal = true) (s : K.State) :
    ((c.insertOperation id live).setStore s).ClosedAt id :=
  ⟨live, by simp [insertOperation, setStore], h⟩

lemma expire_closes (hlive : c.operations.get id = some live) (hlate : live.machine.deadline < now)
    (draw : UInt16 → Bytes32) : (expire id now draw c).2.ClosedAt id := by
  have hexpire : (expire id now draw).wp (fun _ c' => c'.ClosedAt id) c := by
    simp only [expire, liveOperation, wp_iff]
    refine ⟨?_, fun hnone => absurd (hlive.symm.trans hnone) (by simp)⟩
    intro _ hlive'
    cases hlive.symm.trans hlive'
    rw [onMachine, wp_zoom]
    apply wp_mono (ThresholdSessionMachine.expire_ends live.machine now)
    intro r _ hr
    rw [updateOperation_of_get hlive]
    rcases hr with ⟨rfl, rfl, htime⟩ | ⟨rfl, -, hcloses⟩
    · have hterm := htime.resolve_left (not_le.mpr hlate)
      exact closedAt_insertOperation hterm c.store
    · have hterm := terminal_of_closes hcloses
      apply wp_onStore_bind (K.terminate_keeps _ _ _ _ _ _)
      · intro _ s _ _
        exact closedAt_insertOperation hterm s
      · intro _ s _
        simp only [setRecord, wp_iff, wp_lift, updateOperation_setStore,
          updateOperation_insertOperation, identities_setStore, identities_insertOperation]
        split
        · exact closedAt_insertOperation hterm s
        · exact closedAt_insertOperation hterm s
  exact hexpire

variable {identities : List ProviderIdentity}

lemma operations_of_new {store : K.State} (h : new profile identities store = .ok c₀) :
    c₀.operations = .empty := by
  simp only [new, ok_iff] at h
  obtain ⟨-, rfl⟩ := h
  rfl

/-- Live and durable state agree after every call, and every late expiry of a live operation leaves
its record over. -/
def Truthful (c₀ : PersonalSigningCoordinator S K) (calls : List Call) : Prop :=
  (∀ n, (run c₀ (calls.take n)).Agrees) ∧
    ∀ n id now draw live, calls[n]? = some (.expire id now draw) →
      (run c₀ (calls.take n)).operations.get id = some live → live.machine.deadline < now →
      (run c₀ (calls.take (n + 1))).RecordOver id

/-- In a run without recoveries in which the store never fails and no call endangers its session,
live and durable state agree and late expiries end their operations. -/
theorem truthful_of_harmless {store : K.State} (hnew : new profile identities store = .ok c₀)
    {calls : List Call} (hcalls : ∀ call ∈ calls, call.isRecovery = false)
    (hstore : ∀ n call, calls[n]? = some call → ¬(run c₀ (calls.take n)).StoreFails call)
    (hsafe : ∀ n call, calls[n]? = some call → ¬(run c₀ (calls.take n)).Endangers call) :
    Truthful c₀ calls := by
  have hstart : c₀.Agrees := by
    intro id live hlive
    rw [operations_of_new hnew] at hlive
    simp at hlive
  have hagrees : ∀ n, (run c₀ (calls.take n)).Agrees :=
    after_take_keeps hstart fun n call hcall hn =>
      hn.step (hcalls _ (mem_of_getElem? hcall)) (hstore n call hcall) (hsafe n call hcall)
  refine ⟨hagrees, ?_⟩
  intro n id _ draw _ hcall hlive hlate
  have hafter := hagrees (n + 1)
  rw [run, after_take_succ hcall] at hafter ⊢
  obtain ⟨live', hlive', hterm⟩ := expire_closes hlive hlate draw
  rw [← snd_bind_pure (f := Reply.expired)] at hlive'
  exact (hafter id live' hlive').mp hterm

def failures : PersonalSigningCoordinator S K → List Call → List (Option PersonalSigningError)
  | _, [] => []
  | c, call :: rest => failureOf (step call c).1 :: failures (step call c).2 rest

lemma getElem?_failures {n : ℕ} (h : calls[n]? = some call) :
    (failures c calls)[n]? = some (failureOf (step call (run c (calls.take n))).1) := by
  induction calls generalizing c n with
  | nil => simp at h
  | cons _ rest ih =>
    cases n with
    | zero =>
      cases by simpa using h
      rfl
    | succ n =>
      have hrest : rest[n]? = some call := by simpa using h
      exact ih hrest

def sampleSuite : CoordinatorSuite where
  Identifier := UInt16
  SigningCommitments := ℕ
  SignatureShare := ℕ
  VerifyingShare := Unit
  VerifyingKey := Unit
  Signature := Unit
  identifierDecEq := inferInstance
  identifierOf := .ok
  verifySignatureShare := fun _ _ _ _ _ => .ok ()
  aggregate := fun _ _ _ => .ok ()
  verify := fun _ _ _ => .ok ()
  toPlatform := samplePlatform
  SigningNonces := ℕ
  SigningShare := Unit
  Entropy := ℕ
  commitmentsDecEq := inferInstanceAs (DecidableEq ℕ)
  commit := fun _ drawn => (drawn, drawn)
  serializeNonces := fun nonces => [UInt8.ofNat nonces]
  sign := fun _ nonces _ => .ok nonces
  serializeCommitments := fun _ => some [1]
  serializeShare := fun _ => [1]
  deserializePackage := fun _ => none
  decodeHex := fun _ => some [1]
  encodeHex := fun _ => ""
  deserializeCommitments := fun bytes => some bytes.length
  deserializeShare := fun bytes => some bytes.length
  serializePackage := fun _ => .ok [1]
  serializeSignature := fun _ => .ok (replicate 64 1)
  deserializePublicKeys := fun _ =>
    some ⟨((empty.put (1 : UInt16) ()).put (2 : UInt16) ()).put (3 : UInt16) (), ()⟩

def sampleProfile : PersonalSignerProfile :=
  ⟨1, 5, 7, 6, 1, 2, 3, .zeros, [], [⟨1, .walletNode, "", .zeros⟩,
    ⟨2, .desktopOnePassword, "", .zeros⟩, ⟨3, .phoneRecovery, "", .zeros⟩]⟩

def sampleIdentities : List ProviderIdentity :=
  [⟨7, 6, 1, 1, 11, 1, .zeros, .zeros⟩, ⟨7, 6, 1, 2, 12, 1, .zeros, .zeros⟩,
    ⟨7, 6, 1, 3, 13, 1, .zeros, .zeros⟩]

lemma consistent_sampleDb : Consistent (sampleDb approvalCalls) := by
  have hnone : (sampleDb approvalCalls).receipts = .empty ∧
      (sampleDb approvalCalls).operations = .empty := by
    decide +kernel
  constructor
  · intro _ r hr
    simp [hnone.1] at hr
  · intro _ o ho
    simp [hnone.2] at ho

def sampleStore : (walletStorage samplePlatform).State :=
  ⟨_, consistent_sampleDb⟩

def sampleCoordinator : PersonalSigningCoordinator sampleSuite
    (walletStorage samplePlatform) :=
  ⟨sampleProfile, empty.applyAll (sampleIdentities.map fun i => .put i.signerId i),
    sampleStore, .empty⟩

lemma new_sample (store : K.State) :
    new sampleProfile sampleIdentities store = .ok (⟨sampleProfile,
      empty.applyAll (sampleIdentities.map fun i => .put i.signerId i), store, .empty⟩ :
      PersonalSigningCoordinator sampleSuite K) := by
  have hmatches : (empty.applyAll
        (sampleIdentities.map fun i => .put i.signerId i)).card = 3 ∧
      identitiesMatchProfile sampleProfile
        (empty.applyAll (sampleIdentities.map fun i => .put i.signerId i)) = true := by
    decide +kernel
  rfl

lemma new_sampleCoordinator :
    new sampleProfile sampleIdentities sampleStore = .ok sampleCoordinator :=
  new_sample sampleStore

def beginCall : Call :=
  .beginAuthorized ⟨4, 1, .replicate 2, .replicate 1, .zeros, .zeros, (1, 2), 100⟩
    ⟨3, .zeros, false⟩ 3 fun _ => .zeros

/-- A commitment arrives after the deadline, and then the operation is expired. -/
def lateCalls : List Call :=
  [beginCall, .acceptRoundOne 4 1 ⟨.zeros, ""⟩ 101, .expire 4 102 fun _ => .zeros]

/-- What the machine of an operation and its record say. -/
def statuses (c : PersonalSigningCoordinator sampleSuite
    (walletStorage samplePlatform)) (id : Uuid) :
    Option (SessionPhase × OperationStatus) := do
  let live ← c.operations.get id
  let o ← c.books.record id
  return (live.machine.phase, o.status)

lemma Agrees.statuses
    {c : PersonalSigningCoordinator sampleSuite
      (walletStorage samplePlatform)} {phase : SessionPhase}
    {status : OperationStatus} (h : c.Agrees)
    (hs : c.statuses id = some (phase, status)) :
    phase.isTerminal = true → operationOver status = true := by
  simp only [PersonalSigningCoordinator.statuses, Option.bind_eq_bind, Option.bind_eq_some_iff,
    Option.pure_def, Option.some.injEq, Prod.mk.injEq] at hs
  obtain ⟨live, hlive, _, ho, rfl, rfl⟩ := hs
  intro hterm
  obtain ⟨_, ho', hover⟩ := (h id live hlive).mp hterm
  cases ho.symm.trans ho'
  exact hover

/-- The late commitment closes the machine, and the expiry leaves the record collecting
commitments. -/
theorem late_commitment_untruthful :
    failures sampleCoordinator lateCalls = [none, some (.machine .expired), none] ∧
      ¬Truthful sampleCoordinator lateCalls := by
  have hfails : failures sampleCoordinator lateCalls = [none, some (.machine .expired), none] := by
    decide +kernel
  have hstats : (run sampleCoordinator (lateCalls.take 3)).statuses 4 =
      some (.expired, .collectingCommitments) := by
    decide +kernel
  refine ⟨hfails, ?_⟩
  intro htruthful
  exact absurd ((htruthful.1 3).statuses hstats rfl) (by decide)

def signingCalls : List Call :=
  [beginCall, .acceptRoundOne 4 1 ⟨.zeros, ""⟩ 4, .acceptRoundOne 4 2 ⟨.zeros, ""⟩ 4,
    .freezeCommitments 4 5 fun _ => .zeros, .acceptRoundTwo 4 1 ⟨.zeros, ""⟩ 6,
    .acceptRoundTwo 4 2 ⟨.zeros, ""⟩ 6, .finalize 4 7, .expire 4 102 fun _ => .zeros]

/-- The commitment of a signer arrives before the deadline, from its bound participant. -/
def commitsInTime (c : PersonalSigningCoordinator sampleSuite (walletStorage samplePlatform))
    (signerId : UInt16) (now : Time) : Bool :=
  (c.operations.get 4).any fun live => decide (now ≤ live.machine.deadline) &&
    (live.participants.get signerId).any fun p =>
      live.machine.participants.get p.signerId == some p

lemma not_endangers_of_commitsInTime
    {c : PersonalSigningCoordinator sampleSuite (walletStorage samplePlatform)} {signerId : UInt16}
    {response : SignerRoundOneResponse} (h : c.commitsInTime signerId now = true) :
    ¬c.Endangers (.acceptRoundOne 4 signerId response now) := by
  rintro ⟨live, p, _, hlive, -, -, hp, -, hcause⟩
  simp only [commitsInTime, hlive, hp, Option.any_some, Bool.and_eq_true, decide_eq_true_eq,
    beq_iff_eq] at h
  rcases hcause with hlate | ⟨-, hdrift⟩
  · exact absurd h.1 (not_le.mpr hlate)
  · exact hdrift h.2

/-- Both commitments arrive in time, and the operation expires before it is frozen. -/
def expiringCalls : List Call :=
  signingCalls.take 3 ++ [.expire 4 102 fun _ => .zeros]

theorem truthful_of_harmless_expiring :
    (run sampleCoordinator expiringCalls).statuses 4 = some (.expired, .expired) ∧
      Truthful sampleCoordinator expiringCalls := by
  have hfails : failures sampleCoordinator expiringCalls = replicate 4 none := by
    decide +kernel
  have hstats : (run sampleCoordinator expiringCalls).statuses 4 = some (.expired, .expired) := by
    decide +kernel
  have hintime : (run sampleCoordinator (expiringCalls.take 1)).commitsInTime 1 4 = true ∧
      (run sampleCoordinator (expiringCalls.take 2)).commitsInTime 2 4 = true := by
    decide +kernel
  have hrecovs : ∀ call ∈ expiringCalls, call.isRecovery = false := by
    simp [expiringCalls, signingCalls, beginCall, Call.isRecovery]
  refine ⟨hstats, truthful_of_harmless new_sampleCoordinator hrecovs ?_ ?_⟩
  · rintro _ _ hcall ⟨_, herror, _⟩
    have hmem := mem_of_getElem? (getElem?_failures (c := sampleCoordinator) hcall)
    rw [herror, hfails] at hmem
    simp [failureOf] at hmem
  · intro n _ hcall
    rcases n with _ | _ | _ | _ | n
    · cases hcall
      rintro ⟨⟩
    · cases hcall
      exact not_endangers_of_commitsInTime hintime.1
    · cases hcall
      exact not_endangers_of_commitsInTime hintime.2
    · cases hcall
      rintro ⟨⟩
    · cases hcall

end Catomicals.WalletCore.PersonalSigningCoordinator
