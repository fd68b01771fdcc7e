import Catomicals.WalletCore.SigningRecovery

/-!
# Expired operations and the providers

The request to abort an expired operation carries its expiry, and a provider refuses every request
whose expiry has passed. So a provider with the same clock never burns the nonce it has reserved.
-/
namespace Catomicals.WalletCore.PersonalSigningCoordinator

open Base Table Method WalletStorage ThresholdSigner GuardedSignerProvider List

variable {S : CoordinatorSuite} {K : PersonalSigningStore}
  {c c' c₀ : PersonalSigningCoordinator S K}

/-- A change of a live operation that leaves what is fixed of it. -/
structure KeepsSetup (live live' : LiveOperation S) : Prop where
  record : live'.record.toNewPersonalSigningOperation =
    live.record.toNewPersonalSigningOperation
  machine : SameSetup live.machine live'.machine

variable (c)

/-- A live operation that was opened or rebuilt from its durable record. -/
def Founds (b : Books) (id : Uuid) (live : LiveOperation S) : Prop :=
  b.record id = some live.record ∧ ∃ participants t start,
    startMachine c.profile live.record.toNewPersonalSigningOperation participants t = .ok start ∧
      SameSetup start live.machine

/-- A live operation after a call was live before it or is founded by it. -/
def Originates (operations : Table Uuid (LiveOperation S)) (b : Books) : Prop :=
  ∀ id live', operations.get id = some live' →
    (∃ live, c.operations.get id = some live ∧ KeepsSetup live live') ∨ c.Founds b id live'

variable {c}

lemma originates_same (b : Books) : c.Originates c.operations b := by
  intro _ live hlive
  exact .inl ⟨live, hlive, rfl, .refl _⟩

variable {id : Uuid} {b : Books} {draw : UInt16 → Bytes32} {live : LiveOperation S}

lemma originates_put {live' : LiveOperation S} (hlive : c.operations.get id = some live) (b : Books)
    (hrec : live'.record.toNewPersonalSigningOperation =
      live.record.toNewPersonalSigningOperation) (hmach : SameSetup live.machine live'.machine) :
    c.Originates (c.operations.put id live') b := by
  intro _ o ho
  rw [get_put] at ho
  split_ifs at ho with hid
  · cases ho
    exact .inl ⟨live, hid ▸ hlive, hrec, hmach⟩
  · exact .inl ⟨o, ho, rfl, .refl _⟩

lemma originates_founded (h : c.Founds b id live) : c.Originates (c.operations.put id live) b := by
  intro _ o ho
  rw [get_put] at ho
  split_ifs at ho with hid
  · cases ho
    exact .inr (hid ▸ h)
  · exact .inl ⟨o, ho, rfl, .refl _⟩

lemma Slip.sameSetup {e : PersonalSigningError} {m' : S.Machine}
    (h : Slip live e m') : SameSetup live.machine m' := by
  cases h with
  | closed hcloses => exact (sameSession_of_closes hcloses).1.toSameSetup
  | commitment _ _ hcmts =>
    obtain ⟨-, -, -, identifier, -, -, rfl⟩ := hcmts
    exact ⟨rfl, rfl, rfl, rfl, rfl, rfl⟩
  | freeze hfreezes =>
    obtain ⟨-, -, -, -, rfl⟩ := hfreezes
    exact ⟨rfl, rfl, rfl, rfl, rfl, rfl⟩
  | share _ _ hshares =>
    obtain ⟨-, -, -, _, -, -, -, rfl⟩ := hshares
    exact ⟨rfl, rfl, rfl, rfl, rfl, rfl⟩
  | finalize hfin => exact (sameSession_of_finalizes hfin).1.toSameSetup

variable {operations : Table Uuid (LiveOperation S)}

lemma Effect.originates {call : Call} {failure : Option PersonalSigningError}
    (h : c.Effect call failure operations b) : c.Originates operations b := by
  cases h with
  | same => exact originates_same _
  | slipped hlive hslip => exact originates_put hlive _ rfl hslip.sameSetup
  | opened _ _ _ _ _ hmach =>
    exact originates_founded ⟨if_pos rfl, _, _, _, hmach, .refl _⟩
  | committed hlive hctx _ hpart hcmts =>
    exact originates_put hlive _ rfl (Slip.commitment (e := .storage .sqlite) hctx hpart
      hcmts rfl).sameSetup
  | frozen hlive _ hfreezes =>
    exact originates_put hlive _ rfl (Slip.freeze (e := .expired) hfreezes).sameSetup
  | shared hlive hctx _ hpart hshares =>
    exact originates_put hlive _ rfl (Slip.share (e := .storage .sqlite) hctx hpart
      hshares rfl).sameSetup
  | finalized hlive hfin =>
    exact originates_put hlive _ rfl (sameSession_of_finalizes hfin).1.toSameSetup
  | expired hlive hcloses =>
    exact originates_put hlive _ rfl (sameSession_of_closes hcloses).1.toSameSetup

lemma Recovers.originates {now : Time} (h : c.Recovers id now draw operations b) :
    c.Originates operations b := by
  cases h with
  | same | ended => exact originates_same _
  | rebuilt hrec _ _ hbound hstart hrcpts hmach =>
    obtain ⟨hsame, -⟩ := rebuildMachine_matches hbound hstart ⟨K.key_of_receipt, hrcpts⟩ hmach
    exact originates_founded ⟨hrec, _, _, _, hstart, hsame⟩

/-- The machine of every live operation closes when its record says, and the group is 2 of 3. -/
def Dated (c : PersonalSigningCoordinator S K) : Prop :=
  ∀ id live, c.operations.get id = some live →
    live.machine.deadline = live.record.expiresAt ∧ live.record.threshold = 2 ∧
      live.record.maxSigners = 3

lemma Dated.step (h : c.Dated) (call : Call) : (step call c).2.Dated := by
  obtain ⟨operations, b, horig, hops, hbooks⟩ :
      ∃ operations b, c.Originates operations b ∧
        (PersonalSigningCoordinator.step call c).2.operations = operations ∧
        (PersonalSigningCoordinator.step call c).2.books = b := by
    cases hcall : call.isRecovery with
    | false =>
      obtain ⟨operations, b, heff, hends⟩ := step_effects c hcall
      exact ⟨operations, b, heff.originates, hends.operations, hends.books⟩
    | true =>
      cases call with
      | recoverOperation =>
        obtain ⟨⟨operations, b, hrecov, hends⟩, -⟩ := step_recovers (c := c)
        exact ⟨operations, b, hrecov.originates, hends.operations, hends.books⟩
      | _ => cases hcall
  intro id live' hlive'
  rw [hops] at hlive'
  rcases horig id live' hlive' with ⟨live, hlive, hkeeps⟩ | ⟨hrec, _, _, _, hstart, hsame⟩
  · obtain ⟨hdead, hthr, hmax⟩ := h id live hlive
    rw [hkeeps.machine.deadline, hkeeps.record]
    exact ⟨hdead, hthr, hmax⟩
  · rw [← hbooks] at hrec
    refine ⟨?_, K.group_of_record hrec⟩
    rw [hsame.deadline, (starts_of_startMachine hstart).deadline]

section Providers

variable {T : SignerSuite} {A : Type} {R : ProviderReplayStore}

/-- The request is for this provider, which has not seen its nonce and holds its session's
reservation. -/
structure Serves (p : GuardedSignerProvider T A R) (context : SignerRequestContext) (time : Time) :
    Prop where
  identity : context.toProviderIdentity = p.identity
  lifetime : checkLifetime p.maxSessionLifetimeSeconds context.expiresAt
    time = .ok ()
  fresh : (R.claim p.identity context time p.replayStore).1 = .ok ()
  reserved : ∃ reservation, p.backend.reservations.get context.operationId = some reservation ∧
    reservation.sessionId = context.sessionId

/-- The provider accepts the abort request at a time and destroys the reserved nonce. -/
def Burns (p : GuardedSignerProvider T A R) (d : PersonalAbortDispatch) (time : Time) : Prop :=
  (abort d.context d.reasonCode time).wp (fun r p' => r = .ok () ∧
    p'.backend.reservations.get d.context.operationId = none ∧
    p'.backend.participant.pending.get d.context.sessionId = none) p

lemma burns_iff {p : GuardedSignerProvider T A R} {d : PersonalAbortDispatch} {time : Time}
    (hserves : Serves p d.context time)
    (hvers : d.context.protocolVersion = signerProviderProtocolVersion)
    (hgroup : d.context.minSigners ≠ 0 ∧ d.context.minSigners ≤ d.context.maxSigners)
    (hreason : d.reasonCode = "deadline") : Burns p d time ↔ time ≤ d.context.expiresAt := by
  have hident : d.context.protocolVersion = signerProviderProtocolVersion ∧
      d.context.toProviderIdentity = p.identity ∧ d.context.minSigners ≠ 0 ∧
      d.context.minSigners ≤ d.context.maxSigners :=
    ⟨hvers, hserves.identity, hgroup⟩
  constructor
  · intro hburns
    by_contra hlate
    simp only [Burns, abort, authorizeContext, wp_iff] at hburns
    have hrefused := (hburns.1 hident).2 hlate
    cases hrefused.1
  · intro htime
    obtain ⟨_, hresn, hsess⟩ := hserves.reserved
    have hcode : d.reasonCode.toUTF8.toList ≠ [] ∧
        d.reasonCode.toUTF8.toList.length ≤ ThresholdSigner.maxReasonCodeBytes ∧
        d.reasonCode.toUTF8.toList.all GuardedSignerProvider.isReasonByte = true := by
      rw [hreason]
      decide +kernel
    rw [Burns, abort, wp_bind, authorizeContext]
    apply wp_get_bind
    apply wp_lift_bind_of_ok (require_pos hident)
    apply wp_lift_bind_of_ok (require_pos htime)
    apply wp_lift_bind_of_ok hserves.lifetime
    rw [wp_zoom, wp, hserves.fresh]
    apply wp_lift_bind_of_ok (require_pos hcode)
    rw [wp_zoom, LocalEncryptedFrostBackend.burnReservation]
    apply wp_get_bind
    apply wp_lift_bind_of_ok (orError_eq_ok.mpr hresn)
    simp only [wp_iff]
    refine ⟨fun _ => ⟨rfl, ?_, ?_⟩, fun hne => absurd hsess hne⟩
    · exact (get_delete _ _ _).trans (if_pos rfl)
    · exact (get_delete _ _ _).trans (if_pos rfl)

end Providers

variable {d : PersonalAbortDispatch} {t : PersonalSigningTermination}

lemma late_of_expire (hdated : c.Dated) {now : Time} (h : (expire id now draw c).1 = .ok (some t))
    (hd : d ∈ t.aborts) :
    d.context.expiresAt < now ∧ d.reasonCode = "deadline" ∧
      d.context.protocolVersion = signerProviderProtocolVersion ∧
      d.context.minSigners = 2 ∧ d.context.maxSigners = 3 := by
  have hdoes : c.Does (.expire id now draw) c (expire id now draw) _ := expire_does now draw
  rw [Does, wp, h] at hdoes
  obtain ⟨-, live, hlive, hlate, haborts⟩ := hdoes
  obtain ⟨hdead, hthr, hmax⟩ := hdated id live hlive
  rw [hdead] at hlate
  simp only [abortDispatches, pairSigners, mapM_cons, mapM_nil, ok_iff] at haborts
  obtain ⟨_, ⟨_, -, rfl⟩, _, ⟨_, ⟨_, -, rfl⟩, _, rfl, rfl⟩, hlist⟩ := haborts
  simp only [← hlist, mem_cons, not_mem_nil, or_false] at hd
  rcases hd with rfl | rfl
  · exact ⟨hlate, rfl, rfl, hthr, hmax⟩
  · exact ⟨hlate, rfl, rfl, hthr, hmax⟩

lemma dated_run (hempty : c₀.operations = .empty) (calls : List Call) : (run c₀ calls).Dated := by
  apply after_invariant (I := Dated) _ fun call c hdated => hdated.step call
  intro _ _ hlive
  simp [hempty, get_empty] at hlive

/-- A provider that holds the reservation of an expired operation burns it on the abort request
exactly until the operation's expiry, which has passed when the request is returned. -/
theorem abort_burns_iff {T : SignerSuite} {A : Type} {R : ProviderReplayStore}
    {profile : PersonalSignerProfile} {identities : List ProviderIdentity} {store : K.State}
    (hnew : new profile identities store = .ok c₀) {calls : List Call} {id : Uuid} {now : Time}
    {draw : UInt16 → Bytes32} (hexpire : (expire id now draw (run c₀ calls)).1 = .ok (some t))
    (hd : d ∈ t.aborts) {p : GuardedSignerProvider T A R} {time : Time}
    (hserves : Serves p d.context time) :
    (Burns p d time ↔ time ≤ d.context.expiresAt) ∧ d.context.expiresAt < now := by
  obtain ⟨hlate, hreason, hvers, hmin, hmax⟩ :=
    late_of_expire (dated_run (operations_of_new hnew) calls) hexpire hd
  refine ⟨burns_iff hserves hvers ?_ hreason, hlate⟩
  rw [hmin, hmax]
  decide

def sampleContext (nonce : Bytes32) : SignerRequestContext :=
  requestContext (newRecord sampleSuite sampleProfile
    ⟨4, 1, .replicate 2, .replicate 1, .zeros, .zeros, (1, 2), 100⟩ 3).row
    ⟨7, 6, 1, 1, 11, 1, .zeros, .zeros⟩ nonce

def reservedProvider :
    GuardedSignerProvider sampleSuite.toSignerSuite Unit memoryReplayStore :=
  (roundOne (fun _ _ => pure ()) (sampleContext .zeros) (5 : ℕ) 4
    ⟨⟨7, 6, 1, 1, 11, 1, .zeros, .zeros⟩,
      ⟨⟨1, ⟨(1 : UInt16), ()⟩, ⟨.empty⟩, .empty⟩, ⟨.empty, ()⟩, (), .empty⟩, (∅ : Finset Bytes32),
      none⟩).2

def sampleAbort : PersonalAbortDispatch := ⟨1, sampleContext (.replicate 9), "deadline"⟩

/-- The expiry of the sample operation at time 101 returns the request. -/
def sampleTermination : PersonalSigningTermination :=
  ⟨.expired, [sampleAbort, ⟨2, { sampleContext (.replicate 9) with
    signerId := 2, deviceId := 12 }, "deadline"⟩]⟩

lemma expire_sample : (expire 4 101 (fun _ => .replicate 9) (run sampleCoordinator [beginCall])).1 =
    .ok (some sampleTermination) := by
  decide +kernel

lemma serves_sample (time : Time) : Serves reservedProvider sampleAbort.context time := by
  have hresv : reservedProvider.backend.reservations.get 4 =
      some (ThresholdSigner.reservationBinding sampleSuite.toSignerSuite
        (sampleContext .zeros)) := by
    decide +kernel
  refine ⟨by decide +kernel, rfl, ?_, _, hresv, rfl⟩
  -- the claim does not look at the time
  show (memoryReplayStore.claim reservedProvider.identity sampleAbort.context 0
    reservedProvider.replayStore).1 = .ok ()
  decide +kernel

/-- When the operation has expired, the provider refuses the request and keeps the reserved
nonce. -/
theorem expired_abort_refused :
    (expire 4 101 (fun _ => .replicate 9) (run sampleCoordinator [beginCall])).1 =
        .ok (some sampleTermination) ∧
      sampleAbort ∈ sampleTermination.aborts ∧ Serves reservedProvider sampleAbort.context 101 ∧
      ¬Burns reservedProvider sampleAbort 101 ∧
      (reservedProvider.backend.participant.pending.get (.replicate 2)).isSome = true := by
  refine ⟨expire_sample, mem_cons_self, serves_sample 101, ?_, by decide +kernel⟩
  intro hburns
  have hrefused : (abort sampleAbort.context sampleAbort.reasonCode 101
      reservedProvider).1 = .error .expired := by
    decide +kernel
  have hacc := hburns.1
  simp [hrefused] at hacc

/-- The provider handles the request at time 102. -/
theorem abort_burns_iff_sample :
    (Burns reservedProvider sampleAbort 102 ↔ (102 : Time) ≤ sampleAbort.context.expiresAt) ∧
      sampleAbort.context.expiresAt < 101 :=
  abort_burns_iff new_sampleCoordinator expire_sample mem_cons_self (serves_sample 102)

end Catomicals.WalletCore.PersonalSigningCoordinator
