import Catomicals.ThresholdSigner.NonceUse

/-!
# Reservations and pending nonces in step

The backend keeps its reservations in one map and their nonces in another. The maps are in step as
long as no call gives a reservation up while its nonces stay pending.
-/
namespace Catomicals.ThresholdSigner.LocalEncryptedFrostBackend

open Base WalletStorage LocalFrostParticipant Method

variable {S : SignerSuite} {A : Type}

inductive Call (S : SignerSuite) where
  | reserve (context : SignerRequestContext) (entropy : S.Entropy)
  | sign (context : SignerRequestContext) (package : S.Package)
  | burn (operationId : Uuid) (sessionId : Bytes32)

variable (authorize : AuthorizeRequest A)

def perform : Call S → Action S A Unit
  | .reserve context entropy => do let _ ← reserveNonceAndCommit authorize context entropy
  | .sign context package => do let _ ← signReservedShare authorize context package
  | .burn operationId sessionId => burnReservation operationId sessionId

/-- The sessions with pending nonces are those with a reservation, one for each. -/
structure InStep (b : LocalEncryptedFrostBackend S A) : Prop where
  pending : ∀ sessionId, (b.participant.pending.get sessionId).isSome = true ↔
    ∃ id binding, b.reservations.get id = some binding ∧ binding.sessionId = sessionId
  distinct : b.Distinct

variable (b b' : LocalEncryptedFrostBackend S A)

/-- A burn that names another session, or a round two admitted without the pending commitment in its
package: the reservation ends and the nonces stay pending. -/
def Strands : Call S → Prop
  | .reserve _ _ => False
  | .sign context package =>
    b.Admits authorize context ∧ ¬b.participant.Holds (b.session context package)
  | .burn operationId sessionId =>
    ∃ binding, b.reservations.get operationId = some binding ∧ binding.sessionId ≠ sessionId

/-- A round two is turned away while its operation has a reservation or its session nonces. -/
def TurnsAway (context : SignerRequestContext) : Prop :=
  ¬b.Admits authorize context ∧ ¬(b.reservations.get context.operationId = none ∧
    b.participant.pending.get context.sessionId = none)

/-- A failed burn has changed nothing; after a failed round two, a fresh round one that is
authorized succeeds exactly if the round two was not turned away. -/
def Leaves : Call S → Prop
  | .reserve _ _ => True
  | .sign context _ => ∀ again entropy, again.sessionId = context.sessionId →
      again.operationId = context.operationId →
      (authorize again .roundOne b'.authorizer).1.isOk = true →
      ((reserveNonceAndCommit authorize again entropy b').1.isOk = true ↔
        ¬b.TurnsAway authorize context)
  | .burn _ _ => b' = b

variable {authorize} {b b'} {context : SignerRequestContext} {id : Uuid}
  {binding : ReservationBinding}

lemma isOk_reserveNonceAndCommit {entropy : S.Entropy}
    (hauth : (authorize context .roundOne b.authorizer).1.isOk = true) :
    (reserveNonceAndCommit authorize context entropy b).1.isOk = true ↔
      b.reservations.get context.operationId = none ∧
        b.participant.pending.get context.sessionId = none := by
  show (reserveNonceAndCommit authorize context entropy).wp (fun r _ => r.isOk = true ↔ _) b
  rcases ha : authorize context .roundOne b.authorizer with ⟨_ | u, a⟩
  · rw [ha] at hauth
    cases hauth
  simp only [reserveNonceAndCommit, ask, round1, wp_iff, wp_zoom, wp_of_eq ha,
    Option.isNone_iff_eq_none]
  exact ⟨fun hfree => ⟨fun hidle => iff_of_true rfl ⟨hfree, hidle⟩,
    fun hbusy => iff_of_false Bool.false_ne_true fun h => hbusy h.2⟩,
    fun hheld => iff_of_false Bool.false_ne_true fun h => hheld h.1⟩

namespace InStep

lemma pending_of_get (h : b.InStep) (hget : b.reservations.get id = some binding) :
    (b.participant.pending.get binding.sessionId).isSome = true :=
  (h.pending _).mpr ⟨id, binding, hget, rfl⟩

lemma releases (h : b.InStep) (hr : b.Releases id binding b')
    (hburns : b.participant.Burns binding.sessionId b'.participant) : b'.InStep := by
  refine ⟨fun sessionId => ?_, hr.distinct h.distinct⟩
  have hpre := h.pending sessionId
  have hheld := hr.held
  have honly := h.distinct id
  simp only [hburns.pending, hr.reservations, Table.get_delete]
  grind

lemma reserve {entropy : S.Entropy} (h : b.InStep) :
    (reserveNonceAndCommit authorize context entropy b).2.InStep := by
  have hwp : (reserveNonceAndCommit authorize context entropy).wp _ b := reserveNonceAndCommit_wp
  obtain ⟨ht, hheld⟩ := hwp
  have hdist := ht.distinct
    (fun id binding hget => Option.isSome_iff_ne_none.mp (h.pending_of_get hget)) h.distinct
  cases ht with
  | kept participant reservations =>
    refine ⟨?_, hdist⟩
    rw [participant, reservations]
    exact h.pending
  | reserved _ _ _ participant reservations =>
    refine ⟨fun sessionId => ?_, hdist⟩
    have hpre := h.pending sessionId
    simp only [participant, reservations, insertPending, Table.get_put]
    by_cases hsess : sessionId = context.sessionId
    · exact iff_of_true (by simp [hsess])
        ⟨context.operationId, reservationBinding S context, by simp, hsess.symm⟩
    · grind [reservationBinding]
  | released hr =>
    have hnone := hheld context.operationId (by simp [hr.reservations])
    simp [hr.held] at hnone

end InStep

lemma InStep.step (h : b.InStep) (c : Call S) (hkept : ¬b.Strands authorize c) :
    (perform authorize c b).2.InStep ∧ ((perform authorize c b).1.isOk = false →
      b.Leaves authorize (perform authorize c b).2 c) := by
  cases c with
  | reserve =>
    rw [perform, snd_bind_pure]
    exact ⟨h.reserve, fun _ => trivial⟩
  | sign context package =>
    rw [perform, snd_bind_pure]
    have hsign : (signReservedShare authorize context package).wp _ b := signReservedShare_wp
    rcases hsign.1 with ⟨hnot, a, heq⟩ | ⟨hadm, hr, hburns⟩
    · rw [heq]
      refine ⟨⟨h.pending, h.distinct⟩, fun _ again entropy hsess hop hauth => ?_⟩
      rw [isOk_reserveNonceAndCommit hauth, hsess, hop, TurnsAway]
      tauto
    · replace hburns := hburns (by_contra fun hlacks => hkept ⟨hadm, hlacks⟩)
      refine ⟨h.releases hr hburns, fun _ again entropy hsess hop hauth => ?_⟩
      rw [isOk_reserveNonceAndCommit hauth, hsess, hop, hr.reservations, hburns.pending]
      exact iff_of_true (by simp) fun haway => haway.1 hadm
  | burn operationId sessionId =>
    have hburn : (burnReservation operationId sessionId).wp _ b := burnReservation_wp
    rcases hburn with heq | ⟨binding, hr, ⟨hok, hburns⟩ | hsess⟩
    · rw [perform, heq]
      exact ⟨h, fun _ => rfl⟩
    · refine ⟨h.releases hr hburns, fun hfailed => ?_⟩
      rw [perform, hok] at hfailed
      cases hfailed
    · exact absurd ⟨binding, hr.held, hsess⟩ hkept

/-- If no call of a sequence strands nonces, the maps are in step after every call, and failed calls
leave what they should. -/
theorem reservations_in_step (authorize : AuthorizeRequest A)
    (participant : LocalFrostParticipant S) (keys : S.PublicKeys) (authorizer : A)
    (calls : List (Call S)) (hidle : participant.pending = .empty)
    (hkept : ∀ n c, calls[n]? = some c → ¬Strands authorize
      (after (perform authorize) (.new participant keys authorizer) (calls.take n)) c) (n : ℕ) :
    let b := after (perform authorize) (.new participant keys authorizer) (calls.take n)
    b.InStep ∧ ∀ c, calls[n]? = some c → (perform authorize c b).1.isOk = false →
      b.Leaves authorize (perform authorize c b).2 c := by
  intro b
  have hb : b.InStep := by
    refine after_take_keeps ⟨fun sessionId => ?_, fun op op' r r' hget => ?_⟩
      (fun n c hc hn => (hn.step c (hkept n c hc)).1) n
    · simp [new, hidle]
    · simp [new] at hget
  exact ⟨hb, fun c hc => (hb.step c (hkept n c hc)).2⟩

open GuardedSignerProvider

/-- A backend with one reservation, for operation 4 in session 0. -/
def echoBackend : LocalEncryptedFrostBackend echoSuite Unit :=
  after (perform fun _ _ => pure ()) (.new echoParticipant ⟨.empty, ()⟩ ())
    [.reserve (echoContext .zeros) (5 : ℕ)]

/-- A burn that names another session and a round two without the commitment give the reservation
up; the nonces stay pending and no round one passes. -/
theorem reservation_stranded :
    let burned := burnReservation 4 (.replicate 1) echoBackend
    let signed := signReservedShare (fun _ _ => pure ()) (echoContext .zeros) ⟨.empty, []⟩
      echoBackend
    burned.1.isOk = false ∧ signed.1.isOk = false ∧ ∀ b ∈ [burned.2, signed.2],
      b.reservations.get 4 = none ∧ (b.participant.pending.get .zeros).isSome = true ∧
        (reserveNonceAndCommit (fun _ _ => pure ()) (echoContext .zeros) (5 : ℕ) b).1.isOk =
          false := by
  decide +kernel

/-- After a reservation the maps are in step, and another operation's burn changes nothing. -/
theorem in_step_echo :
    echoBackend.InStep ∧ (burnReservation 9 .zeros echoBackend).1.isOk = false ∧
      (burnReservation 9 .zeros echoBackend).2 = echoBackend := by
  have hfailed : (burnReservation 9 .zeros echoBackend).1.isOk = false := by decide +kernel
  have h := reservations_in_step (fun _ _ => pure ()) echoParticipant ⟨.empty, ()⟩ ()
    [.reserve (echoContext .zeros) (5 : ℕ), .burn 9 .zeros] rfl ?_ 1
  · exact ⟨h.1, hfailed, h.2 _ rfl hfailed⟩
  · intro n c hc hstrands
    obtain _ | _ | n := n
    · cases hc
      exact hstrands
    · cases hc
      obtain ⟨_, hget, -⟩ := hstrands
      cases hget
    · cases hc

end Catomicals.ThresholdSigner.LocalEncryptedFrostBackend
