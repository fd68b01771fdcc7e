import Catomicals.WalletStorage.Epochs

/-!
# The statuses of intents, jobs and operations

The end of a job takes its intent along, while the end of an operation leaves its intent where it
was.
-/
namespace Catomicals.WalletStorage

open Base Domain Rows IntentStatus Option

/-- An intent whose approval is spent or gone; it is never approved again. -/
def IntentStatus.isSpent (s : IntentStatus) : Bool := s ≠ .pending ∧ s ≠ .approved

/-- Every job and every operation works for a spent intent, no two for the same one. -/
structure SigningWork.Sound (w : SigningWork) : Prop where
  jobs : ∀ id j, w.jobs.get id = some j →
    ∃ i, w.intents.get j.intentId = some i ∧ i.status.isSpent = true
  operations : ∀ id o, w.operations.get id = some o →
    ∃ i, w.intents.get o.intentId = some i ∧ i.status.isSpent = true
  apart : ∀ id o id' j, w.operations.get id = some o → w.jobs.get id' = some j →
    o.intentId ≠ j.intentId

/-- The operation is finalized exactly if the intent is signed; if it is terminated, the intent is
not signing. -/
def OperationRow.AgreesWith (o : OperationRow) (i : IntentRow) : Prop :=
  (o.status = .finalized ↔ i.status = .signed) ∧
    (o.status.isTerminated = true → i.status ≠ .signing)

/-- Every operation agrees with its intent. -/
def SigningWork.Agrees (w : SigningWork) : Prop :=
  ∀ id o i, w.operations.get id = some o → w.intents.get o.intentId = some i → o.AgreesWith i

/-- The completion of an operation, its termination while the intent is signing, and a transition
that signs the intent by hand. -/
def Call.Splits (w : SigningWork) : Call → Prop
  | .completePersonalSigningOperation _ _ _ _ => True
  | .terminatePersonalSigningOperation id _ _ _ _ => ∃ o i, w.operations.get id = some o ∧
      w.intents.get o.intentId = some i ∧ i.status = .signing
  | .transitionTransactionIntent id _ next _ => next = .signed ∧
      ∃ key o, w.operations.get key = some o ∧ o.intentId = id
  | _ => False

section Statuses

variable {w w' : SigningWork} {c : Call}

lemma IntentStatus.isSpent_of_mayTransitionTo {a b : IntentStatus}
    (h : a.mayTransitionTo b = true) : b.isSpent = true := by
  revert h
  cases a <;> cases b <;> decide

lemma WorkStep.intents (h : WorkStep w c w') :
    Evolves (fun i i' => i.status.isSpent = true → i'.status.isSpent = true) (fun _ => True)
      w.intents w'.intents := by
  cases h with
  | aside | operationFrozen | operationCompleted | operationTerminated =>
    exact evolves_refl fun _ h => h
  | intentCreated _ inserted => exact inserted.evolves (fun _ h => h) trivial
  | transition allowed changed =>
    exact changed.evolves (fun _ h => h) fun _ =>
      isSpent_of_mayTransitionTo allowed
  | approved pending changed =>
    exact changed.evolves (fun _ h => h) fun h => by simp [isSpent, pending] at h
  | frostNonceClaimed _ changed => exact changed.evolves (fun _ h => h) fun _ => rfl
  | jobCreated _ _ changed | operationCreated _ _ changed =>
    exact changed.evolves (fun _ h => h) fun _ => rfl
  | jobEnded _ ended _ _ _ changed =>
    refine changed.evolves (fun _ h => h) fun _ => ?_
    rcases ended with rfl | rfl <;> rfl
  | cutover now =>
    exact update_evolves
      (f := fun i : IntentRow => { i with status := .invalidated, updatedAt := now })
      (fun _ => rfl) (fun _ h => h) fun _ _ => rfl

lemma WorkStep.jobs (h : WorkStep w c w') :
    Evolves (fun j j' => j'.intentId = j.intentId)
      (fun j => ∃ i i', w.intents.get j.intentId = some i ∧ i.status = .approved ∧
        w'.intents.get j.intentId = some i' ∧ i'.status = .signing ∧
        w'.operations = w.operations) w.jobs w'.jobs := by
  cases h with
  | @jobCreated _ i now _ _ job _ approved forIntent changed inserted =>
    refine inserted.evolves (fun _ => rfl) ⟨i, i.moved .signing now, ?_, approved, ?_, rfl, rfl⟩
    · show w.intents.get job.intentId = some i
      rw [forIntent]
      exact changed.1
    · exact (changed.2.2 _).trans (if_pos forIntent)
  | jobEnded _ _ _ same jobChanged =>
    exact jobChanged.evolves (fun _ => rfl) (by rw [same])
  | aside | intentCreated | transition | approved | frostNonceClaimed | operationCreated
  | operationFrozen | operationCompleted | operationTerminated | cutover =>
    exact evolves_refl fun _ => rfl

lemma WorkStep.operations (h : WorkStep w c w') :
    Evolves (fun o o' => o'.intentId = o.intentId)
      (fun o => o.status = .collectingCommitments ∧ ∃ i i', w.intents.get o.intentId = some i ∧
        i.status = .approved ∧ w'.intents.get o.intentId = some i' ∧ i'.status = .signing ∧
        w'.jobs = w.jobs) w.operations w'.operations := by
  cases h with
  | @operationCreated _ i now _ _ o approved forIntent changed inserted =>
    refine inserted.evolves (fun _ => rfl)
      ⟨rfl, i, i.moved .signing now, ?_, approved, ?_, rfl, rfl⟩
    · show w.intents.get o.intentId = some i
      rw [forIntent]
      exact changed.1
    · exact (changed.2.2 _).trans (if_pos forIntent)
  | operationFrozen _ _ same changed | operationCompleted _ _ same changed
  | operationTerminated _ _ same changed =>
    exact changed.evolves (fun _ => rfl) (by rw [same])
  | aside | intentCreated | transition | approved | frostNonceClaimed | jobCreated | jobEnded
  | cutover => exact evolves_refl fun _ => rfl

variable {i i' : IntentRow} {o : OperationRow}

lemma not_spent_of_approved {id : Uuid} (hi : w.intents.get id = some i)
    (happr : i.status = .approved) (h : w.intents.get id = some i' ∧ i'.status.isSpent = true) :
    False := by
  cases hi.symm.trans h.1
  simp [isSpent, happr] at h

theorem SigningWork.Sound.step (hs : w.Sound) (h : WorkStep w c w') : w'.Sound := by
  have hkeeps : ∀ id, (∃ i, w.intents.get id = some i ∧ i.status.isSpent = true) →
      ∃ i, w'.intents.get id = some i ∧ i.status.isSpent = true := by
    intro id hid
    obtain ⟨i, hi, hspent⟩ := hid
    obtain ⟨i', hi', hmoved⟩ := h.intents.keeps id i hi
    exact ⟨i', hi', hmoved hspent⟩
  refine ⟨?_, ?_, ?_⟩
  · intro id j' hj'
    rcases h.jobs.origin id j' hj' with ⟨j, hj, hsame⟩ | ⟨-, i, i', -, -, hi', hsing, -⟩
    · exact hsame ▸ hkeeps _ (hs.jobs id j hj)
    · exact ⟨i', hi', by rw [hsing]; rfl⟩
  · intro id o' ho'
    rcases h.operations.origin id o' ho' with ⟨o, ho, hsame⟩ | ⟨-, -, i, i', -, -, hi', hsing, -⟩
    · exact hsame ▸ hkeeps _ (hs.operations id o ho)
    · exact ⟨i', hi', by rw [hsing]; rfl⟩
  · intro id o' id' j' ho' hj' hsame
    rcases h.operations.origin id o' ho' with ⟨o, ho, ho_same⟩ |
      ⟨-, -, i, i', hi, happr, -, -, hjobs⟩
    · rcases h.jobs.origin id' j' hj' with ⟨j, hj, hj_same⟩ |
        ⟨-, i, i', hi, happr, -, -, -⟩
      · exact hs.apart id o id' j ho hj (by rw [← ho_same, ← hj_same, hsame])
      · obtain ⟨i₁, hi₁⟩ := hs.operations id o ho
        rw [← ho_same, hsame] at hi₁
        exact not_spent_of_approved hi happr hi₁
    · rw [hjobs] at hj'
      obtain ⟨_, hi₁⟩ := hs.jobs id' j' hj'
      rw [← hsame] at hi₁
      exact not_spent_of_approved hi happr hi₁

lemma SigningWork.Sound.get_of_changed (hs : w.Sound) {intents : Rows IntentRow.id}
    (hchg : Changed w.intents i i' intents) (hspent : i.status.isSpent = false) {id : Uuid}
    (ho : w.operations.get id = some o) :
    intents.get o.intentId = w.intents.get o.intentId := by
  rw [hchg.2.2, if_neg]
  intro hsame
  obtain ⟨_, hi₁, hspent₁⟩ := hs.operations id o ho
  rw [hsame, hchg.1] at hi₁
  cases hi₁
  simp [hspent] at hspent₁

lemma OperationRow.agreesWith_of_collecting (ho : o.status.isCollecting = true)
    (hi : i.status ≠ .signed) : o.AgreesWith i := by
  have hstat : o.status = .collectingCommitments ∨ o.status = .collectingShares := by
    simpa [OperationStatus.isCollecting] using ho
  refine ⟨⟨fun hfinal => ?_, fun hsigned => absurd hsigned hi⟩, fun htermd => ?_⟩
  · rcases hstat with h | h <;> rw [h] at hfinal <;> cases hfinal
  · rcases hstat with h | h <;> rw [h] at htermd <;> cases htermd

lemma OperationRow.AgreesWith.not_signed (h : o.AgreesWith i)
    (ho : o.status.isCollecting = true) : i.status ≠ .signed := by
  intro hsigned
  have hfinal := h.1.mpr hsigned
  rw [hfinal] at ho
  cases ho

lemma OperationRow.AgreesWith.invalidated (h : o.AgreesWith i) (hi : i.status ≠ .signed)
    (hi' : i'.status = .invalidated) :
    o.AgreesWith i' := by
  refine ⟨⟨fun hfinal => absurd (h.1.mp hfinal) hi, fun hsigned => ?_⟩, fun _ => ?_⟩
  · simp [hi'] at hsigned
  · rw [hi']
    decide

lemma IntentStatus.signing_of_mayTransitionTo {a b : IntentStatus}
    (h : a.mayTransitionTo b = true) (ha : a.isSpent = true) :
    a = .signing ∧ (b = .signed ∨ b = .invalidated) := by
  revert h ha
  cases a <;> cases b <;> decide

/-- Only the calls that split an operation from its intent make them disagree. -/
theorem SigningWork.Agrees.step (ha : w.Agrees) (hs : w.Sound) (h : WorkStep w c w')
    (hc : ¬c.Splits w) : w'.Agrees := by
  intro id o i ho hi
  cases h with
  | aside => exact ha id o i ho hi
  | @intentCreated _ n _ _ inserted =>
    refine ha id o i ho ?_
    obtain ⟨i₁, hi₁, -⟩ := hs.operations id o ho
    have hne : o.intentId ≠ n.id := by
      intro hsame
      simp [hsame, inserted.1] at hi₁
    rwa [← (inserted.2 _).trans (if_neg hne)]
  | @transition n next now _ allowed changed =>
    by_cases hsame : o.intentId = n.id
    · -- the intent of the operation can only be invalidated
      obtain ⟨i₁, hi₁, hspent⟩ := hs.operations id o ho
      rw [hsame, changed.1] at hi₁
      cases hi₁
      obtain ⟨hsing, hnext⟩ := signing_of_mayTransitionTo allowed hspent
      have hinv : next = .invalidated :=
        hnext.resolve_left fun hsigned => hc ⟨hsigned, id, o, ho, hsame⟩
      have hagrees := ha id o n ho (hsame ▸ changed.1)
      have hi' : some (n.moved next now) = some i :=
        ((changed.2.2 _).trans (if_pos hsame)).symm.trans hi
      cases hi'
      exact hagrees.invalidated (by rw [hsing]; decide) hinv
    · exact ha id o i ho (((changed.2.2 _).trans (if_neg hsame)).symm.trans hi)
  | approved pending changed =>
    refine ha id o i ho ((hs.get_of_changed changed ?_ ho).symm.trans hi)
    simp [isSpent, pending]
  | frostNonceClaimed approved changed | jobCreated approved _ changed =>
    refine ha id o i ho ((hs.get_of_changed changed ?_ ho).symm.trans hi)
    simp [isSpent, approved]
  | jobEnded _ _ forIntent _ jobChanged changed =>
    refine ha id o i ho (((changed.2.2 _).trans (if_neg ?_)).symm.trans hi)
    rw [forIntent]
    exact hs.apart id o _ _ ho jobChanged.1
  | @operationCreated _ n now _ _ new approved forIntent changed inserted =>
    by_cases hid : id = new.operationId
    · cases ((inserted.2 _).trans (if_pos hid)).symm.trans ho
      have hi' : some (n.moved .signing now) = some i :=
        ((changed.2.2 _).trans (if_pos forIntent)).symm.trans hi
      cases hi'
      exact OperationRow.agreesWith_of_collecting rfl (by simp [IntentRow.moved])
    · have ho₁ : w.operations.get id = some o :=
        ((inserted.2 _).trans (if_neg hid)).symm.trans ho
      refine ha id o i ho₁ ((hs.get_of_changed changed ?_ ho₁).symm.trans hi)
      simp [isSpent, approved]
  | @operationFrozen _ old _ _ collecting next same changed =>
    by_cases hid : id = old.operationId
    · cases ((changed.2.2 _).trans (if_pos hid)).symm.trans ho
      have hagrees := ha old.operationId old i changed.1 (by rw [← same]; exact hi)
      refine OperationRow.agreesWith_of_collecting (by rw [next]; rfl) ?_
      exact hagrees.not_signed (by rw [collecting]; rfl)
    · exact ha id o i (((changed.2.2 _).trans (if_neg hid)).symm.trans ho) hi
  | operationCompleted => exact absurd trivial hc
  | @operationTerminated old _ _ _ _ _ _ collecting next same changed =>
    by_cases hid : id = old.operationId
    · cases ((changed.2.2 _).trans (if_pos hid)).symm.trans ho
      have hi₁ : w.intents.get old.intentId = some i := by rw [← same]; exact hi
      have hagrees := ha old.operationId old i changed.1 hi₁
      refine ⟨⟨fun hfinal => ?_, fun hsigned => ?_⟩, fun _ hsing => ?_⟩
      · rw [hfinal] at next
        cases next
      · exact absurd hsigned (hagrees.not_signed collecting)
      · exact hc ⟨old, i, changed.1, hi₁, hsing⟩
    · exact ha id o i (((changed.2.2 _).trans (if_neg hid)).symm.trans ho) hi
  | cutover =>
    obtain ⟨i₁, hi₁, _⟩ := hs.operations id o ho
    have hagrees := ha id o i₁ ho hi₁
    simp only [get_update, hi₁, map_some, some.injEq] at hi
    split_ifs at hi with hopen
    · rw [← hi]
      refine hagrees.invalidated ?_ rfl
      intro hsigned
      simp [hsigned, isOpen] at hopen
    · rw [← hi]
      exact hagrees

end Statuses

section Runs

variable {P : Platform} {db db' : Db} {c : Call}

theorem sound_of_reaches {walletId : Uuid} {created : Time}
    (h : Reaches (step P) (initializeWallet walletId created) db) : db.work.Sound := by
  refine h.invariant (I := fun db => db.work.Sound) ?_ fun _ _ _ hs hstep =>
    hs.step (step_does hstep).work
  constructor
  all_goals
    intros
    simp_all [Db.work, Authority.work, Db.authority, initializeWallet]

theorem not_agrees_of_splits (hs : db.work.Sound) (ha : db.work.Agrees) (hc : c.Splits db.work)
    (h : step P db c = .ok db') : ¬db'.work.Agrees := by
  intro ha'
  cases c with
  | completePersonalSigningOperation =>
    simp only [step, completePersonalSigningOperation, ok_iff] at h
    obtain ⟨-, -, db₁, hmove, rfl⟩ := h
    obtain ⟨o, operations, -, hp, hchg, rfl⟩ := changed_of_moveOperation hmove
    obtain ⟨i, hi, -⟩ := hs.operations _ o hchg.1
    have hpre := OperationRow.AgreesWith.not_signed (ha _ o i hchg.1 hi) (by rw [hp.1]; rfl)
    exact hpre ((ha' _ _ i ((hchg.2.2 _).trans (if_pos rfl)) hi).1.mp rfl)
  | terminatePersonalSigningOperation _ _ status =>
    simp only [step, terminatePersonalSigningOperation, ok_iff] at h
    obtain ⟨hstat, -, _, hmove, rfl⟩ := h
    obtain ⟨o, _, rfl, -, hchg, rfl⟩ := changed_of_moveOperation hmove
    obtain ⟨_, i, ho₁, hi, hsing⟩ := hc
    cases hchg.1.symm.trans ho₁
    have htermd : status.isTerminated = true := by
      simpa [OperationStatus.isTerminated] using hstat.1
    exact (ha' _ _ i ((hchg.2.2 _).trans (if_pos rfl)) hi).2 htermd hsing
  | transitionTransactionIntent =>
    simp only [step, transitionTransactionIntent, ok_iff] at h
    obtain ⟨hallow, -, -, _, hmove, rfl⟩ := h
    obtain ⟨i, hi, hp, hchg⟩ := changed_of_moveIntent hmove
    obtain ⟨rfl, key, o, ho, rfl⟩ := hc
    have hpre : i.status ≠ .signed := by
      rw [hp.2.2]
      rintro rfl
      cases hallow
    have hid : i.id = o.intentId := key_of_get hi
    have hafter := (ha' key o _ ho ((hchg.2.2 _).trans (if_pos hid.symm))).1.mpr rfl
    exact hpre ((ha key o i ho hi).1.mp hafter)
  | _ => exact hc

/-- In a run an operation is finalized exactly if its intent is signed, and no terminated operation
leaves its intent signing, if and only if no call that succeeds splits the two. -/
theorem operation_agrees_iff (P : Platform) (walletId : Uuid) (created : Time) (calls : List Call) :
    (∀ n, (run (step P) (initializeWallet walletId created) (calls.take n)).work.Agrees) ↔
      ∀ n c, calls[n]? = some c →
        c.Splits (run (step P) (initializeWallet walletId created) (calls.take n)).work →
        (step P (run (step P) (initializeWallet walletId created) (calls.take n)) c).isOk =
          false := by
  have hsound : ∀ n, (run (step P) (initializeWallet walletId created) (calls.take n)).work.Sound :=
    fun n => sound_of_reaches (reaches_run _ _)
  constructor
  · intro hagrees n c hc hsplits
    cases hstep : step P (run (step P) (initializeWallet walletId created) (calls.take n)) c with
    | error => rfl
    | ok =>
      have hnext := hagrees (n + 1)
      rw [run_take_succ hc, attempt_of_ok hstep] at hnext
      exact absurd hnext (not_agrees_of_splits (hsound n) (hagrees n) hsplits hstep)
  · intro hcalls n
    induction n with
    | zero =>
      intro _ o i ho
      simp [Db.work, Authority.work, Db.authority, initializeWallet, run] at ho
    | succ n ih =>
      cases hc : calls[n]? with
      | none =>
        have hlen : calls.length ≤ n := List.getElem?_eq_none_iff.mp hc
        rw [List.take_of_length_le (by omega)]
        rwa [List.take_of_length_le hlen] at ih
      | some c =>
        rw [run_take_succ hc]
        cases hstep : step P (run (step P) (initializeWallet walletId created)
            (calls.take n)) c with
        | error e =>
          rw [attempt_of_error hstep]
          exact ih
        | ok db' =>
          rw [attempt_of_ok hstep]
          refine ih.step (hsound n) (step_does hstep).work fun hsplits => ?_
          have hfails := hcalls n c hc hsplits
          rw [hstep] at hfails
          cases hfails

end Runs

/-- The sample intent is approved, and both signers of its operation give commitments and shares. -/
def sharedCalls : List Call :=
  approvalCalls ++ [.createPersonalSigningOperation 3 sampleOperation 3,
    .recordPersonalSigningReceipt (sampleOperation.row.receipt 1 .commitment),
    .recordPersonalSigningReceipt (sampleOperation.row.receipt 2 .commitment),
    .freezePersonalSigningOperation 4 (.replicate 5) [0] 4,
    .recordPersonalSigningReceipt (sampleOperation.row.receipt 1 .signatureShare),
    .recordPersonalSigningReceipt (sampleOperation.row.receipt 2 .signatureShare)]

def sampleDb (calls : List Call) : Db := run (step samplePlatform) (initializeWallet 7 0) calls

def Db.statuses (db : Db) (id : Uuid) : Option (OperationStatus × IntentStatus) := do
  let o ← db.operations.get id
  let i ← db.intents.get o.intentId
  return (o.status, i.status)

lemma SigningWork.Agrees.statuses {db : Db} {id : Uuid} {os : OperationStatus} {is : IntentStatus}
    (h : db.work.Agrees) (hs : db.statuses id = some (os, is)) :
    (os = .finalized ↔ is = .signed) ∧ (os.isTerminated = true → is ≠ .signing) := by
  simp only [Db.statuses, bind_eq_bind, bind_eq_some_iff, pure_def, some.injEq, Prod.mk.injEq] at hs
  obtain ⟨o, ho, i, hi, rfl, rfl⟩ := hs
  exact h id o i ho hi

/-- The operation is completed, or terminated, and its intent stays signing. -/
theorem ended_operation_disagrees :
    ¬(sampleDb (sharedCalls ++
        [.completePersonalSigningOperation 4 (.replicate 5) [1] 5])).work.Agrees ∧
      ¬(sampleDb (sharedCalls ++ [.terminatePersonalSigningOperation 4 (.replicate 5) .failed
        "invalid_share" 5])).work.Agrees := by
  have hcompd : (sampleDb (sharedCalls ++
      [.completePersonalSigningOperation 4 (.replicate 5) [1] 5])).statuses 4 =
      some (.finalized, .signing) := by
    decide +kernel
  have htermd : (sampleDb (sharedCalls ++ [.terminatePersonalSigningOperation 4 (.replicate 5)
      .failed "invalid_share" 5])).statuses 4 = some (.failed, .signing) := by
    decide +kernel
  constructor
  · intro h
    exact absurd ((h.statuses hcompd).1.mp rfl) (by decide)
  · intro h
    exact (h.statuses htermd).2 rfl rfl

/-- Every intent is of the wallet, and an open one is of the current epoch. -/
def Authority.Current (s : Authority) : Prop :=
  ∀ id i, s.intents.get id = some i →
    i.walletId = s.walletId ∧ (i.status.isOpen = true → i.epoch = s.epoch)

/-- A reason that both the call and the table accept, whose length ends at a NUL. -/
def ValidReason (reason : String) : Prop :=
  (reason ≠ "" ∧ reason.utf8ByteSize ≤ 128) ∧ reason.toList.head? ≠ some '\x00'

section Current

variable {P : Platform} {db : Db} {s s' : Authority} {m : Option Creation}

lemma Authority.Current.moved (hs : s.Current) {i : IntentRow} {next : IntentStatus} {now : Time}
    {intents : Rows IntentRow.id} (hi : i.epoch = s.epoch)
    (h : Changed s.intents i (i.moved next now) intents) :
    Authority.Current { s with intents := intents } := by
  intro id i' hi'
  rw [h.2.2] at hi'
  split_ifs at hi'
  · cases hi'
    exact ⟨(hs _ i h.1).1, fun _ => hi⟩
  · exact hs id i' hi'

theorem Authority.Current.step (hs : s.Current) (h : Effect s m s') : s'.Current := by
  cases h
  case intentCreated own inserted =>
    intro id i' hi'
    rw [inserted.2] at hi'
    split_ifs at hi'
    · cases hi'
      exact ⟨own.1, fun _ => own.2⟩
    · exact hs id i' hi'
  case intentMoved own changed | jobEnded own _ changed => exact hs.moved own.2 changed
  case approved intentEpoch _ _ _ _ _ changed => exact hs.moved intentEpoch changed
  case frostNonceClaimed spent | jobCreated spent _ _ _ _ _ _
      | operationCreated spent _ _ _ _ _ _ =>
    exact hs.moved spent.intentOwn.2 spent.moved
  case cutover now =>
    -- what is open is of the epoch that ends, so the cutover closes it
    intro id _ hi'
    simp only [get_update, map_eq_some_iff] at hi'
    obtain ⟨i, hi, hi'⟩ := hi'
    obtain ⟨hwal, hepoch⟩ := hs id i hi
    split_ifs at hi' with hclosed
    · rw [← hi']
      exact ⟨hwal, fun hopen => by cases hopen⟩
    · rw [← hi']
      refine ⟨hwal, fun hopen => absurd (decide_eq_true ⟨?_, hopen⟩) hclosed⟩
      rw [hepoch hopen]
      exact Nat.lt_succ_self _
  all_goals exact hs

/-- An authorization that can still be spent is of the current epoch. -/
def Authority.Usable (s : Authority) : Prop :=
  ∀ id a, s.authorizations.get id = some a → a.consumedAt = none → a.invalidatedAt = none →
    a.epoch = s.epoch

theorem Authority.Usable.step (hs : s.Usable) (h : Effect s m s') : s'.Usable := by
  intro id a ha hfree hinv
  have hused : ∀ {b now t}, Changed s.authorizations b (b.consumed now) t →
      t.get id = some a → a.epoch = s.epoch := by
    intro b now t changed ha
    rw [changed.2.2] at ha
    split_ifs at ha
    · cases ha
      cases hfree
    · exact hs id a ha hfree hinv
  cases h
  case approved own _ _ inserted _ =>
    rw [inserted.2] at ha
    split_ifs at ha
    · cases ha
      exact own.2
    · exact hs id a ha hfree hinv
  case authorizationConsumed changed => exact hused changed ha
  case frostNonceClaimed spent | jobCreated spent _ _ _ _ _ _
      | operationCreated spent _ _ _ _ _ _ =>
    exact hused spent.consumed ha
  case cutover =>
    simp only [get_update, map_eq_some_iff] at ha
    obtain ⟨b, hb, ha⟩ := ha
    split_ifs at ha with hold
    · rw [← ha] at hinv
      cases hinv
    · subst ha
      have hepoch := hs id b hb hfree hinv
      exact absurd (decide_eq_true ⟨by omega, hfree, hinv⟩) hold
  all_goals exact hs id a ha hfree hinv

/-- Whatever calls were made, only the current epoch has open intents and authorizations that can
be spent. -/
theorem run_authority_current (P : Platform) (walletId : Uuid) (created : Time)
    (calls : List Call) :
    let s := (run (step P) (initializeWallet walletId created) calls).authority
    s.Current ∧ s.Usable := by
  refine (reaches_run _ calls).invariant (I := fun db : Db => db.authority.Current ∧
    db.authority.Usable) ?_ fun _ _ _ hs h => ?_
  · constructor <;> intro id _ hrow <;> simp [Db.authority, initializeWallet] at hrow
  · exact ⟨hs.1.step (step_does h).effect, hs.2.step (step_does h).effect⟩

/-- A signing job can be terminated under its own digest exactly if its intent is still signing. -/
theorem terminateSigningJob_isOk_iff {walletId id : Uuid} {created now : Time} {j : SigningJobRow}
    {digest : Bytes32} {status : SigningJobStatus} {reason : String}
    (hdb : Reaches (step P) (initializeWallet walletId created) db)
    (hnormal : db.metadata.restoreState = .normal) (hj : db.jobs.get id = some j)
    (hsigning : j.status = .signing) (hdigest : j.operationBindingDigest = some digest)
    (hstatus : status = .aborted ∨ status = .expired ∨ status = .failed)
    (hreason : ValidReason reason) :
    (∃ db', terminateSigningJob db id digest status reason now = .ok db') ↔
      ∃ i, db.intents.get j.intentId = some i ∧ i.status = .signing := by
  have hown := ((wellFormed_of_reaches hdb).jobs id j hj).1
  have hcur : db.authority.Current := by
    refine hdb.invariant (I := fun db => db.authority.Current) ?_
      fun _ _ _ hs h => hs.step (step_does h).effect
    intro id i hi
    simp [Db.authority, initializeWallet] at hi
  have hjob : ((db.jobs.get id).filter fun j => j.walletId = db.metadata.walletId ∧
      j.operationBindingDigest = some digest ∧ j.status = .signing) = some j := by
    simp only [hj, filter_some]
    exact if_pos (decide_eq_true ⟨hown, hdigest, hsigning⟩)
  simp only [terminateSigningJob, Db.endJob, ok_iff, hjob, some.injEq, exists_eq_left']
  constructor
  · rintro ⟨-, -, -, -, ⟨-, -, intents, hmove, -⟩, -⟩
    obtain ⟨i, hi, hp, -⟩ := changed_of_moveIntent hmove
    exact ⟨i, hi, hp.2.2⟩
  · rintro ⟨i, hi, hstill⟩
    obtain ⟨hwal, hepoch⟩ := hcur _ i hi
    obtain ⟨jobs, hjobs⟩ := exists_updateAt (p := fun j => j.status = .signing)
      (f := fun j : SigningJobRow =>
        { j with status := status, terminalReason := some reason, updatedAt := now })
      (fun _ => rfl) hj (by simp [hsigning])
    obtain ⟨intents, hintents⟩ := exists_updateAt (p := fun i => i.walletId = db.metadata.walletId ∧
        i.epoch = db.metadata.epoch ∧ i.status = .signing)
      (f := fun i : IntentRow => i.moved .invalidated now) (fun _ => rfl) hi
      (decide_eq_true ⟨hwal, hepoch (by rw [hstill]; rfl), hstill⟩)
    exact ⟨_, ⟨hstatus, hreason.1⟩, ensureMutationsAllowed_normal hnormal, _,
      ⟨jobs, hjobs, intents, hintents, rfl⟩, rfl⟩

end Current

def sampleScope : ChainScope := ⟨1, .bitcoin, .bitcoin .regtest⟩

def sampleJob : NewSigningJob where
  jobId := 9
  walletId := 7
  profileId := 8
  intentId := 1
  chainScope := sampleScope
  signingSuiteId := .bitcoinBip340FrostV1
  backendRequirement := .frostSecp256k1Tr
  reviewSchemaVersion := 2
  reviewArtifact := ⟨2, sampleScope, .zeros, .replicate 1, "", [1]⟩
  reviewDigest := .zeros
  signingMessageDigest := .replicate 1
  policySnapshotDigest := .zeros
  chainSnapshotDigest := .zeros
  sessionId := .replicate 2
  selectedParties := ("a", "b")
  receiver := "a"
  expiresAt := 100
  createdAt := 3

/-- The sample intent is approved, and a signing job is created for it. -/
def jobCalls : List Call :=
  approvalCalls ++ [.registry (.putSecretRef ⟨6, .hsm, "hsm://key", 0, 0⟩),
    .registry (.registerSignerProfile ⟨8, 7, sampleScope, .bitcoinBip340FrostV1, .frostSecp256k1Tr,
      "set", "frost:participant-0", 1, 2, 3, [1], 6, 0⟩),
    .createSigningJob 3 sampleJob (.replicate 4) 3]

/-- A transition of its own invalidates the job's intent: the job stays signing, and its termination
fails. -/
theorem terminateSigningJob_conflict :
    let db := sampleDb (jobCalls ++ [.transitionTransactionIntent 1 .signing .invalidated 4])
    db.metadata.restoreState = .normal ∧ db.jobs.get 9 = some (sampleJob.row (.replicate 4)) ∧
      terminateSigningJob db 9 (.replicate 4) .failed "executor failed" 5 =
        .error .intentTransitionConflict := by
  decide +kernel

theorem terminateSigningJob_isOk_iff_sample :
    (∃ db', terminateSigningJob (sampleDb jobCalls) 9 (.replicate 4) .failed "executor failed" 5 =
      .ok db') ↔ ∃ i, (sampleDb jobCalls).intents.get 1 = some i ∧ i.status = .signing :=
  terminateSigningJob_isOk_iff (j := sampleJob.row (.replicate 4)) (reaches_run _ _)
    (by decide +kernel) (by decide +kernel) rfl rfl (.inr (.inr rfl))
    ⟨by decide +kernel, by decide +kernel⟩

end Catomicals.WalletStorage
