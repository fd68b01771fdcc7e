import Catomicals.ThresholdSigner.Provider

/-!
# Every nonce pair signs once

What a guarded provider draws, returns and accepts over a run: the nonce pairs in the pending map,
the shares with the nonces that were pending for them, and the request nonces that pass.
-/
namespace Catomicals.ThresholdSigner

open Base WalletStorage LocalFrostParticipant Table LocalEncryptedFrostBackend List Method

variable {S : SignerSuite} {A : Type} {R : ProviderReplayStore}

namespace LocalEncryptedFrostBackend

def new (participant : LocalFrostParticipant S) (publicKeyPackage : S.PublicKeys)
    (authorizer : A) : LocalEncryptedFrostBackend S A :=
  ⟨participant, publicKeyPackage, authorizer, .empty⟩

/-- The end of a reservation, with or without its nonces. -/
structure Releases (b : LocalEncryptedFrostBackend S A) (operationId : Uuid)
    (binding : ReservationBinding) (b' : LocalEncryptedFrostBackend S A) : Prop where
  held : b.reservations.get operationId = some binding
  participant : b'.participant = b.participant ∨
    b.participant.Burns binding.sessionId b'.participant
  reservations : b'.reservations = b.reservations.delete operationId

/-- Nothing, a reservation together with its nonces, or the end of a reservation. -/
inductive Touches (context : SignerRequestContext) (b b' : LocalEncryptedFrostBackend S A) : Prop
  | kept (participant : b'.participant = b.participant)
      (reservations : b'.reservations = b.reservations)
  | reserved (q : PendingRoundOne S)
      (idle : b.participant.pending.get context.sessionId = none)
      (free : b.reservations.get context.operationId = none)
      (participant : b'.participant = b.participant.insertPending context.sessionId q)
      (reservations : b'.reservations =
        b.reservations.put context.operationId (reservationBinding S context))
  | released {binding} (h : b.Releases context.operationId binding b')

/-- No two operations reserve the same session. -/
def Distinct (b : LocalEncryptedFrostBackend S A) : Prop :=
  ∀ op op' binding binding', b.reservations.get op = some binding →
    b.reservations.get op' = some binding' → binding.sessionId = binding'.sessionId → op = op'

variable {b : LocalEncryptedFrostBackend S A} {authorize : AuthorizeRequest A}
  {context : SignerRequestContext}

lemma ask_wp {round : ProviderRound} :
    (ask authorize context round).wp (fun r b' =>
      r.isOk = (authorize context round b.authorizer).1.isOk ∧
        ∃ a, b' = { b with authorizer := a }) b := by
  rw [ask, wp_zoom]
  refine ⟨?_, _, rfl⟩
  cases (authorize context round b.authorizer).1 <;> rfl

lemma reserveNonceAndCommit_wp {entropy : S.Entropy} :
    (reserveNonceAndCommit authorize context entropy).wp (fun _ b' => Touches context b b' ∧
      ∀ id, b'.reservations.get id = none → b.reservations.get id = none) b := by
  rw [reserveNonceAndCommit, wp_bind]
  apply wp_mono ask_wp
  rintro (_ | _) _ ⟨-, _, rfl⟩
  · exact ⟨.kept rfl rfl, fun _ h => h⟩
  simp only [wp_iff, wp_zoom]
  refine ⟨fun hfree => ?_, fun _ => ⟨.kept rfl rfl, fun _ h => h⟩⟩
  simp only [round1, wp_iff]
  refine ⟨fun hidle => ?_, fun _ => ⟨.kept rfl rfl, fun _ h => h⟩⟩
  rw [Option.isNone_iff_eq_none] at hfree hidle
  refine ⟨.reserved _ hidle hfree rfl rfl, fun id hnone => ?_⟩
  simp only [reserve, get_put] at hnone
  split_ifs at hnone
  exact hnone

/-- A round two passes the binding check and the authorizer. -/
def Admits (b : LocalEncryptedFrostBackend S A) (authorize : AuthorizeRequest A)
    (context : SignerRequestContext) : Prop :=
  b.reservations.get context.operationId = some (reservationBinding S context) ∧
    (authorize context .roundTwo b.authorizer).1.isOk = true

/-- An admitted round two ends the reservation, and the pending round if the package holds its
commitment; a share is signed with its nonces. -/
lemma signReservedShare_wp {package : S.Package} :
    (signReservedShare authorize context package).wp (fun r b' =>
      ((¬b.Admits authorize context ∧ ∃ a, b' = { b with authorizer := a }) ∨
        b.Admits authorize context ∧
          b.Releases context.operationId (reservationBinding S context) b' ∧
          (b.participant.Holds (b.session context package) →
            b.participant.Burns context.sessionId b'.participant)) ∧
      ∀ share, r = .ok share →
        b.reservations.get context.operationId = some (reservationBinding S context) ∧
          ∃ q, b.participant.Signs (b.session context package) share b'.participant q) b := by
  simp only [signReservedShare, wp_iff]
  refine ⟨fun hheld => ?_, fun h => ⟨.inl ⟨fun hadm => h hadm.1, _, rfl⟩, fun _ h => by cases h⟩⟩
  apply wp_mono ask_wp
  rintro (_ | _) _ ⟨hauth, a, rfl⟩
  · refine ⟨.inl ⟨fun hadm => ?_, a, rfl⟩, fun _ h => by cases h⟩
    cases hauth.trans hadm.2
  have hadm : b.Admits authorize context := ⟨hheld, hauth.symm⟩
  simp only [wp_zoom, Method.wp_withLocal]
  apply wp_mono round2_wp
  intro r s hround
  rcases hround with ⟨hlacks, ⟨_, rfl⟩, hsame⟩ | ⟨hburns, hsigned⟩
  · exact ⟨.inr ⟨hadm, ⟨hheld, .inl hsame, rfl⟩, fun hholds => absurd hholds hlacks⟩,
      fun _ h => by cases h⟩
  · refine ⟨.inr ⟨hadm, ⟨hheld, .inr hburns, rfl⟩, fun _ => hburns⟩, ?_⟩
    intro share hshare
    obtain rfl : r = .ok share := by
      cases r with
      | error => cases hshare
      | ok => exact congrArg Except.ok (Except.ok.inj hshare)
    obtain ⟨-, q, hq⟩ := hsigned share rfl
    exact ⟨hheld, q, hq⟩

lemma burnReservation_wp {operationId : Uuid} {sessionId : Bytes32} :
    (burnReservation operationId sessionId).wp (fun r b' => b' = b ∨ ∃ binding,
      b.Releases operationId binding b' ∧
        (r = .ok () ∧ b.participant.Burns binding.sessionId b'.participant ∨
          binding.sessionId ≠ sessionId)) b := by
  simp only [burnReservation, wp_iff]
  refine ⟨fun binding hheld => ⟨?_, ?_⟩, fun _ => .inl trivial⟩
  · rintro rfl
    have hburns : b.participant.Burns binding.sessionId
        (b.participant.abortRound binding.sessionId) := ⟨rfl, fun _ h => h, rfl, rfl⟩
    exact .inr ⟨binding, ⟨hheld, .inr hburns, rfl⟩, .inl ⟨trivial, hburns⟩⟩
  · intro hsess
    exact .inr ⟨binding, ⟨hheld, .inl rfl, rfl⟩, .inr hsess⟩

lemma Releases.distinct {b' : LocalEncryptedFrostBackend S A} {operationId : Uuid}
    {binding : ReservationBinding} (h : b.Releases operationId binding b')
    (hdist : b.Distinct) : b'.Distinct := by
  intro op op' r r' hget hget'
  rw [h.reservations, get_delete] at hget hget'
  split_ifs at hget hget'
  exact hdist op op' r r' hget hget'

namespace Touches

variable {b' : LocalEncryptedFrostBackend S A} (h : Touches context b b')
include h

lemma signerId_eq : b'.participant.signerId = b.participant.signerId := by
  cases h with
  | kept participant => rw [participant]
  | reserved _ _ _ participant => rw [participant]; rfl
  | released h =>
    rcases h.participant with hsame | hburns
    · rw [hsame]
    · exact hburns.signerId

lemma distinct (hheld : ∀ op binding,
    b.reservations.get op = some binding → b.participant.pending.get binding.sessionId ≠ none)
    (hdist : b.Distinct) : b'.Distinct := by
  intro op op' binding binding' hget hget' hsess
  cases h with
  | kept _ reservations =>
    rw [reservations] at hget hget'
    exact hdist op op' binding binding' hget hget' hsess
  | reserved _ idle _ _ reservations =>
    -- a session that is idle belongs to no reservation
    have hfree : ∀ op r, b.reservations.get op = some r → r.sessionId ≠ context.sessionId := by
      intro op r hr heq
      exact hheld op r hr (heq ▸ idle)
    rw [reservations, get_put] at hget hget'
    split_ifs at hget hget' with hop hop' hop'
    · rw [hop, hop']
    · cases hget
      exact absurd hsess.symm (hfree op' binding' hget')
    · cases hget'
      exact absurd hsess (hfree op binding hget)
    · exact hdist op op' binding binding' hget hget' hsess
  | released h => exact h.distinct hdist op op' binding binding' hget hget' hsess

end Touches

end LocalEncryptedFrostBackend

namespace GuardedSignerProvider

/-- A request with the time it is handled at, and the randomness round one would draw. -/
inductive Call (S : SignerSuite) where
  | roundOne (context : SignerRequestContext) (entropy : S.Entropy) (now : Time)
  | roundTwo (context : SignerRequestContext) (signingPackageHex : String) (now : Time)
  | abort (context : SignerRequestContext) (reasonCode : String) (now : Time)

namespace Call

def context : Call S → SignerRequestContext
  | roundOne context _ _ | roundTwo context _ _ | abort context _ _ => context

def time : Call S → Time
  | roundOne _ _ now | roundTwo _ _ now | abort _ _ now => now

end Call

variable (authorize : AuthorizeRequest A) (p : GuardedSignerProvider S A R)

def step : Call S → GuardedSignerProvider S A R
  | .roundOne context entropy now => (roundOne authorize context entropy now p).2
  | .roundTwo context signingPackageHex now =>
    (roundTwo authorize context signingPackageHex now p).2
  | .abort context reasonCode now => (abort context reasonCode now p).2

def pendingNonces (sessionId : Bytes32) : Option S.SigningNonces :=
  (p.backend.participant.pending.get sessionId).map PendingRoundOne.nonces

/-- A share that round two returned, with the nonces pending for its session. -/
structure Share (S : SignerSuite) where
  nonces : Option S.SigningNonces
  context : SignerRequestContext
  response : SignerRoundTwoResponse

structure Log (S : SignerSuite) where
  /-- the nonce pairs drawn, each with what it was reserved for -/
  generated : List (S.SigningNonces × ReservationBinding)
  /-- the shares returned -/
  shares : List (Share S)
  /-- the request nonces accepted -/
  accepted : List Bytes32

/-- The nonces that a request adds to the pending map. -/
def generated (c : Call S) : List (S.SigningNonces × ReservationBinding) :=
  match p.pendingNonces c.context.sessionId,
    (p.step authorize c).pendingNonces c.context.sessionId with
  | none, some nonces => [(nonces, reservationBinding S c.context)]
  | _, _ => []

def returned : Call S → List (Share S)
  | .roundTwo context signingPackageHex now =>
    match (roundTwo authorize context signingPackageHex now p).1 with
    | .ok response => [⟨p.pendingNonces context.sessionId, context, response⟩]
    | .error _ => []
  | _ => []

/-- The request nonce, if the request passes the checks of the provider. -/
def accepted (c : Call S) : List Bytes32 :=
  match (authorizeContext c.context c.time p).1 with
  | .ok () => [c.context.requestNonce]
  | .error _ => []

/-- One request, observed. -/
def observe (s : GuardedSignerProvider S A R × Log S) (c : Call S) :
    GuardedSignerProvider S A R × Log S :=
  (s.1.step authorize c,
    ⟨s.2.generated ++ s.1.generated authorize c, s.2.shares ++ s.1.returned authorize c,
      s.2.accepted ++ s.1.accepted c⟩)

def run (calls : List (Call S)) : GuardedSignerProvider S A R × Log S :=
  calls.foldl (observe authorize) (p, ⟨[], [], []⟩)

/-- The request nonce is claimed in the replay store. -/
def Claimed (nonce : Bytes32) : Prop :=
  R.Claimed p.replayStore p.identity nonce

/-- A request is accepted only with a request nonce that was not claimed before. -/
structure Handles (p : GuardedSignerProvider S A R) (context : SignerRequestContext) (now : Time)
    (p' : GuardedSignerProvider S A R) : Prop where
  touches : p.backend.Touches context p'.backend
  claimed : ∀ nonce, p.Claimed nonce → p'.Claimed nonce
  accepted : (authorizeContext context now p).1 = .ok () →
    ¬p.Claimed context.requestNonce ∧ p'.Claimed context.requestNonce

variable {authorize} {p : GuardedSignerProvider S A R} {context : SignerRequestContext}
  {now : Time}

/-- The checks of the provider only claim the request nonce, and pass only if it is new. -/
structure Authorizes (p : GuardedSignerProvider S A R) (context : SignerRequestContext)
    (r : Except ProviderError Unit) (p' : GuardedSignerProvider S A R) : Prop where
  backend : p'.backend = p.backend
  claimed : ∀ nonce, p.Claimed nonce → p'.Claimed nonce
  accepted : r = .ok () → ¬p.Claimed context.requestNonce ∧ p'.Claimed context.requestNonce

lemma authorizeContext_wp : (authorizeContext context now).wp (p.Authorizes context) p := by
  have hrefused : ∀ e, p.Authorizes context (.error e) p :=
    fun e => ⟨rfl, fun _ h => h, fun h => by cases h⟩
  simp only [authorizeContext, wp_iff]
  refine ⟨fun hident => ⟨fun _ => ?_, fun _ => hrefused _⟩, fun _ => hrefused _⟩
  rw [wp_lift]
  cases checkLifetime p.maxSessionLifetimeSeconds context.expiresAt now with
  | error e => exact hrefused e
  | ok =>
    simp only [wp_zoom]
    apply wp_mono (R.claim_wp p.replayStore p.identity context now hident.2.1)
    rintro r _ ⟨hkept, hacc⟩
    refine ⟨rfl, fun nonce h => hkept _ nonce h, ?_⟩
    intro hr
    apply hacc
    cases r with
    | error => cases hr
    | ok => rfl

lemma wp_authorized {α : Type} {f : Unit → Action S A R α}
    {Q : Except ProviderError α → GuardedSignerProvider S A R → Prop}
    (hf : ∀ p₁ : GuardedSignerProvider S A R, p₁.backend = p.backend →
      (f ()).wp (fun r p' => p'.identity = p₁.identity ∧ p'.replayStore = p₁.replayStore ∧
        p.backend.Touches context p'.backend ∧ Q r p') p₁)
    (hQ : ∀ e p', Q (.error e) p') :
    (authorizeContext context now >>= f).wp (fun r p' => p.Handles context now p' ∧ Q r p') p := by
  rcases hauth : authorizeContext context now p with ⟨r, p₁⟩
  obtain ⟨hback, hkept, hacc⟩ := (wp_of_eq hauth).mp authorizeContext_wp
  rw [wp_bind, wp_of_eq hauth]
  cases r with
  | error e =>
    refine ⟨⟨.kept (by rw [hback]) (by rw [hback]), hkept, ?_⟩, hQ e p₁⟩
    intro hok
    simp [hauth] at hok
  | ok =>
    apply wp_mono (hf p₁ hback)
    rintro _ p' ⟨hid, hstore, htouches, hq⟩
    have hclm : ∀ nonce, p'.Claimed nonce ↔ p₁.Claimed nonce := by
      intro nonce
      rw [Claimed, Claimed, hid, hstore]
    refine ⟨⟨htouches, fun nonce h => (hclm nonce).mpr (hkept nonce h), ?_⟩, hq⟩
    intro _
    obtain ⟨hnew, hnow⟩ := hacc rfl
    exact ⟨hnew, (hclm _).mpr hnow⟩

lemma roundOne_handles {entropy : S.Entropy} :
    p.Handles context now (roundOne authorize context entropy now p).2 := by
  have hwp : (roundOne authorize context entropy now).wp
      (fun _ p' => p.Handles context now p' ∧ True) p := by
    apply wp_authorized
    · intro _ hback
      simp only [wp_bind, wp_zoom]
      apply wp_mono reserveNonceAndCommit_wp
      rintro r _ ⟨htouches, -⟩
      rw [hback] at htouches
      cases r with
      | error => exact ⟨rfl, rfl, htouches, trivial⟩
      | ok =>
        simp only [mapError_ok, wp_iff]
        exact ⟨fun _ _ => ⟨rfl, rfl, htouches, trivial⟩, fun _ => ⟨rfl, rfl, htouches, trivial⟩⟩
    · exact fun _ _ => trivial
  exact hwp.1

lemma abort_handles {reasonCode : String} :
    p.Handles context now (abort context reasonCode now p).2 := by
  have hwp : (abort context reasonCode now).wp (fun _ p' => p.Handles context now p' ∧ True) p := by
    apply wp_authorized
    · intro _ hback
      simp only [wp_iff, wp_zoom]
      refine ⟨fun _ => ?_, fun _ => ?_⟩
      · apply wp_mono burnReservation_wp
        rw [hback]
        rintro _ _ (rfl | ⟨_, hrels, -⟩)
        · exact ⟨rfl, rfl, .kept rfl rfl, trivial⟩
        · exact ⟨rfl, rfl, .released hrels, trivial⟩
      · exact ⟨trivial, trivial, .kept (by rw [hback]) (by rw [hback]), trivial⟩
    · exact fun _ _ => trivial
  exact hwp.1

/-- The share of a response was signed with the nonces pending for a reservation that the request
held. -/
def SignedFor (context : SignerRequestContext)
    (response : SignerRoundTwoResponse) (p' : GuardedSignerProvider S A R) : Prop :=
  p.backend.reservations.get context.operationId = some (reservationBinding S context) ∧
    ∃ q package share,
      p.backend.participant.Signs (p.backend.session context package) share
        p'.backend.participant q ∧
      response.signatureShareHex = S.encodeHex (S.serializeShare share)

lemma roundTwo_wp {signingPackageHex : String} :
    (roundTwo authorize context signingPackageHex now).wp (fun r p' =>
      p.Handles context now p' ∧ ∀ response, r = .ok response →
        p.SignedFor context response p') p := by
  apply wp_authorized
  · intro _ hback
    simp only [wp_bind, wp_lift]
    cases readPackage context signingPackageHex with
    | error =>
      exact ⟨trivial, trivial, .kept (by rw [hback]) (by rw [hback]), fun _ h => by cases h⟩
    | ok package =>
      simp only [wp_zoom]
      apply wp_mono signReservedShare_wp
      rintro r b' ⟨hcases, hsigned⟩
      have htouches : p.backend.Touches context b' := by
        rw [← hback]
        rcases hcases with ⟨-, _, rfl⟩ | ⟨-, hrels, -⟩
        · exact .kept rfl rfl
        · exact .released hrels
      cases r with
      | error => exact ⟨rfl, rfl, htouches, fun _ h => by cases h⟩
      | ok share =>
        refine ⟨rfl, rfl, htouches, ?_⟩
        intro response hresp
        obtain rfl := Except.ok.inj hresp
        obtain ⟨hheld, q, hq⟩ := hsigned share rfl
        rw [hback] at hheld hq
        exact ⟨hheld, q, package, share, hq, rfl⟩
  · exact fun _ _ response h => by cases h

lemma step_handles (authorize : AuthorizeRequest A) (p : GuardedSignerProvider S A R) (c : Call S) :
    p.Handles c.context c.time (p.step authorize c) := by
  cases c with
  | roundOne => exact roundOne_handles
  | roundTwo => exact roundTwo_wp.1
  | abort => exact abort_handles

/-- The share was signed with these nonces, which were drawn for what its request binds. -/
structure SignedWith (generated : List (S.SigningNonces × ReservationBinding)) (s : Share S)
    (nonces : S.SigningNonces) : Prop where
  nonces_eq : s.nonces = some nonces
  drawn : (nonces, reservationBinding S s.context) ∈ generated
  signature : ∃ package share keyPackage, S.sign package nonces keyPackage = .ok share ∧
    s.response.signatureShareHex = S.encodeHex (S.serializeShare share)

def Spent (nonces : S.SigningNonces) : Prop :=
  (p.backend.participant.nonceGuard.claims.get
    (NonceGuard.fingerprint p.backend.participant.signerId nonces)).isSome = true

lemma Spent.step {nonces : S.SigningNonces} (h : p.Spent nonces) (c : Call S) :
    (p.step authorize c).Spent nonces := by
  have htouches := (step_handles authorize p c).touches
  rw [Spent, htouches.signerId_eq]
  cases htouches with
  | kept participant | reserved _ _ _ participant => rwa [participant]
  | released hr =>
    rcases hr.participant with hsame | hburns
    · rwa [hsame]
    · exact hburns.claims _ h

/-- Every reservation holds the nonces drawn for it, no two share a session, every share used nonces
claimed since, and accepted request nonces are claimed. -/
structure Guarded (p : GuardedSignerProvider S A R) (log : Log S) : Prop where
  held : ∀ op binding, p.backend.reservations.get op = some binding →
    ∃ q, p.backend.participant.pending.get binding.sessionId = some q ∧
      (q.nonces, binding) ∈ log.generated
  distinct : p.backend.Distinct
  signed : ∀ s ∈ log.shares, ∃ nonces, SignedWith log.generated s nonces ∧ p.Spent nonces
  once : (log.shares.map Share.nonces).Nodup
  seen : ∀ nonce ∈ log.accepted, p.Claimed nonce
  acceptedOnce : log.accepted.Nodup

variable {log : Log S}

lemma generated_of_reserved {c : Call S} {q : PendingRoundOne S}
    (hidle : p.backend.participant.pending.get c.context.sessionId = none)
    (hpart : (p.step authorize c).backend.participant =
      p.backend.participant.insertPending c.context.sessionId q) :
    p.generated authorize c = [(q.nonces, reservationBinding S c.context)] := by
  have hpre : p.pendingNonces c.context.sessionId = none := by
    simp [pendingNonces, hidle]
  have hafter : (p.step authorize c).pendingNonces c.context.sessionId = some q.nonces := by
    simp [pendingNonces, hpart, insertPending]
  rw [generated, hpre, hafter]

lemma Guarded.held_step (h : Guarded p log) (c : Call S) :
    ∀ op binding, (p.step authorize c).backend.reservations.get op = some binding →
      ∃ q, (p.step authorize c).backend.participant.pending.get binding.sessionId = some q ∧
        (q.nonces, binding) ∈ log.generated ++ p.generated authorize c := by
  intro op binding hget
  cases (step_handles authorize p c).touches with
  | kept participant reservations =>
    rw [reservations] at hget
    obtain ⟨q, hq, hmem⟩ := h.held op binding hget
    exact ⟨q, by rw [participant, hq], mem_append_left _ hmem⟩
  | reserved q idle _ participant reservations =>
    rw [generated_of_reserved idle participant]
    rw [reservations, get_put] at hget
    rw [participant]
    split_ifs at hget with hop
    · cases hget
      exact ⟨q, by simp [insertPending, reservationBinding], by simp⟩
    · obtain ⟨q', hq', hmem⟩ := h.held op binding hget
      have hne : binding.sessionId ≠ c.context.sessionId := by
        intro heq
        simp [heq, idle] at hq'
      exact ⟨q', by simp [insertPending, hne, hq'], mem_append_left _ hmem⟩
  | @released ended hended =>
    rw [hended.reservations, get_delete] at hget
    split_ifs at hget with hop
    obtain ⟨q, hq, hmem⟩ := h.held op binding hget
    refine ⟨q, ?_, mem_append_left _ hmem⟩
    rcases hended.participant with hsame | hburns
    · rw [hsame, hq]
    · have hne : binding.sessionId ≠ ended.sessionId := fun heq =>
        hop (h.distinct op _ binding ended hget hended.held heq)
      rw [hburns.pending, get_delete, if_neg hne, hq]

lemma Guarded.distinct_step (h : Guarded p log) (c : Call S) :
    (p.step authorize c).backend.Distinct := by
  apply (step_handles authorize p c).touches.distinct _ h.distinct
  intro op binding hget
  obtain ⟨_, hq, -⟩ := h.held op binding hget
  rw [hq]
  simp

lemma Guarded.returned_cases (h : Guarded p log) (c : Call S) :
    p.returned authorize c = [] ∨ ∃ s nonces, p.returned authorize c = [s] ∧
      SignedWith log.generated s nonces ∧ ¬p.Spent nonces ∧
      (p.step authorize c).Spent nonces := by
  cases c with
  | roundOne | abort => exact .inl rfl
  | roundTwo context signingPackageHex now =>
    cases hres : (roundTwo authorize context signingPackageHex now p).1 with
    | error =>
      left
      simp only [returned, hres]
    | ok response =>
      right
      obtain ⟨hheld, q, _, share, hsigns, hhex⟩ := roundTwo_wp.2 response hres
      obtain ⟨_, hq', hmem⟩ := h.held _ _ hheld
      have hpend : p.backend.participant.pending.get context.sessionId = some q := hsigns.pending
      cases hpend.symm.trans hq'
      refine ⟨⟨some q.nonces, context, response⟩, q.nonces, ?_,
        ⟨rfl, hmem, _, share, _, hsigns.share, hhex⟩, ?_, ?_⟩
      · simp only [returned, hres, pendingNonces, hpend, Option.map_some]
      · rw [Spent, hsigns.unclaimed]
        simp
      · have htouches := (step_handles authorize p
          (.roundTwo context signingPackageHex now)).touches
        rw [Spent, htouches.signerId_eq]
        exact hsigns.claimed

lemma accepted_cases (authorize : AuthorizeRequest A) (p : GuardedSignerProvider S A R)
    (c : Call S) :
    p.accepted c = [] ∨ p.accepted c = [c.context.requestNonce] ∧
      ¬p.Claimed c.context.requestNonce ∧
      (p.step authorize c).Claimed c.context.requestNonce := by
  unfold accepted
  cases hres : (authorizeContext c.context c.time p).1 with
  | error => exact .inl rfl
  | ok => exact .inr ⟨rfl, (step_handles authorize p c).accepted hres⟩

lemma Guarded.step (h : Guarded p log) (c : Call S) :
    Guarded (observe authorize (p, log) c).1 (observe authorize (p, log) c).2 := by
  have hhandles := step_handles authorize p c
  refine ⟨h.held_step c, h.distinct_step c, ?_, ?_, ?_, ?_⟩
  · intro s hs
    rcases mem_append.mp hs with hold | hnew
    · obtain ⟨nonces, hsigned, hspent⟩ := h.signed s hold
      exact ⟨nonces, { hsigned with drawn := mem_append_left _ hsigned.drawn }, hspent.step c⟩
    · rcases h.returned_cases c with hnone | ⟨s', nonces, hone, hsigned, -, hspent⟩
      · rw [hnone] at hnew
        cases hnew
      · rw [hone] at hnew
        obtain rfl := mem_singleton.mp hnew
        exact ⟨nonces, { hsigned with drawn := mem_append_left _ hsigned.drawn }, hspent⟩
  · show ((log.shares ++ p.returned authorize c).map Share.nonces).Nodup
    rcases h.returned_cases c with hnone | ⟨_, nonces, hone, hsigned, hfree, -⟩
    · rw [hnone, append_nil]
      exact h.once
    · rw [hone, map_append, map_singleton, ← concat_eq_append]
      refine List.Nodup.concat ?_ h.once
      intro hmem
      obtain ⟨s, hs, hsame⟩ := mem_map.mp hmem
      obtain ⟨n, hearlier, hspent⟩ := h.signed s hs
      have hn : some n = some nonces :=
        hearlier.nonces_eq.symm.trans (hsame.trans hsigned.nonces_eq)
      rw [Option.some.inj hn] at hspent
      exact hfree hspent
  · intro nonce hnonce
    rcases mem_append.mp hnonce with hold | hnew
    · exact hhandles.claimed nonce (h.seen nonce hold)
    · rcases accepted_cases authorize p c with hnone | ⟨hone, -, hclm⟩
      · simp [hnone] at hnew
      · rw [hone] at hnew
        obtain rfl := mem_singleton.mp hnew
        exact hclm
  · show (log.accepted ++ p.accepted c).Nodup
    rcases accepted_cases authorize p c with hnone | ⟨hone, hfree, -⟩
    · rw [hnone, append_nil]
      exact h.acceptedOnce
    · rw [hone, ← concat_eq_append]
      exact List.Nodup.concat (fun hmem => hfree (h.seen _ hmem)) h.acceptedOnce

lemma Guarded.foldl (authorize : AuthorizeRequest A) (h : Guarded p log) (calls : List (Call S)) :
    Guarded (calls.foldl (observe authorize) (p, log)).1
      (calls.foldl (observe authorize) (p, log)).2 := by
  induction calls generalizing p log with
  | nil => exact h
  | cons c _ ih => exact ih (h.step c)

lemma guarded_new (identity : ProviderIdentity) (participant : LocalFrostParticipant S)
    (keys : S.PublicKeys) (authorizer : A) (store : R.State) (maximum : Option Time) :
    Guarded ⟨identity, .new participant keys authorizer, store, maximum⟩ ⟨[], [], []⟩ where
  held := by
    intro op binding h
    simp [new] at h
  distinct := by
    intro _ _ _ _ h
    simp [new] at h
  signed := by simp
  once := by simp
  seen := by simp
  acceptedOnce := by simp

/-- If fresh randomness never repeats, each nonce pair yields one share at most, for exactly what it
was reserved for, and no request nonce is accepted twice. -/
theorem run_nonces_used_once (authorize : AuthorizeRequest A) (identity : ProviderIdentity)
    (participant : LocalFrostParticipant S) (keys : S.PublicKeys) (authorizer : A)
    (store : R.State) (maximum : Option Time) (calls : List (Call S))
    (hfresh : ((run authorize ⟨identity, .new participant keys authorizer, store, maximum⟩
      calls).2.generated.map Prod.fst).Nodup) :
    let log := (run authorize ⟨identity, .new participant keys authorizer, store, maximum⟩ calls).2
    (log.shares.map Share.nonces).Nodup ∧
      (∀ s ∈ log.shares, ∃ nonces, SignedWith log.generated s nonces ∧
        ∀ binding, (nonces, binding) ∈ log.generated → binding = reservationBinding S s.context) ∧
      log.accepted.Nodup := by
  intro _
  have hguarded := (guarded_new identity participant keys authorizer store maximum).foldl
    authorize calls
  refine ⟨hguarded.once, ?_, hguarded.acceptedOnce⟩
  intro s hs
  obtain ⟨nonces, hsigned, -⟩ := hguarded.signed s hs
  refine ⟨nonces, hsigned, ?_⟩
  intro _ hbind
  have hpair := inj_on_of_nodup_map hfresh hbind hsigned.drawn rfl
  exact congrArg Prod.snd hpair

/-- Nonces, commitments and shares are the number drawn; packages hold signer 1's commitment 5. -/
def echoSuite : SignerSuite where
  Identifier := UInt16
  SigningCommitments := ℕ
  SignatureShare := ℕ
  VerifyingShare := Unit
  VerifyingKey := Unit
  Signature := Unit
  identifierDecEq := inferInstance
  identifierOf := .ok
  verifySignatureShare := fun _ _ _ _ _ => .ok ()
  aggregate := fun _ _ _ => .ok ()
  verify := fun _ _ _ => .ok ()
  sha256 := fun _ => .zeros
  jsonValid := fun _ => true
  sqliteJsonValid := fun _ => true
  parsePersonalIntent := fun _ => none
  decodeHex32 := fun _ => none
  SigningNonces := ℕ
  SigningShare := Unit
  Entropy := ℕ
  commitmentsDecEq := inferInstanceAs (DecidableEq ℕ)
  commit := fun _ drawn => (drawn, drawn)
  serializeNonces := fun nonces => [UInt8.ofNat nonces]
  sign := fun _ nonces _ => .ok nonces
  serializeCommitments := fun _ => some []
  serializeShare := fun _ => []
  deserializePackage := fun _ => some ⟨empty.put (1 : UInt16) (5 : ℕ), Bytes32.zeros.bytes⟩
  decodeHex := fun _ => some []
  encodeHex := fun _ => ""

def echoIdentity : ProviderIdentity := ⟨1, 2, 1, 1, 3, 1, .zeros, .zeros⟩

def echoContext (nonce : Bytes32) : SignerRequestContext where
  toProviderIdentity := echoIdentity
  protocolVersion := 1
  operationId := 4
  intentId := 5
  sessionId := .zeros
  taprootSighash := .zeros
  policyDigest := .zeros
  minSigners := 1
  maxSigners := 1
  chainSnapshotDigest := .zeros
  requestNonce := nonce
  expiresAt := 10

def echoParticipant : LocalFrostParticipant echoSuite := ⟨1, ⟨(1 : UInt16), ()⟩, ⟨.empty⟩, .empty⟩

def echoCalls : List (Call echoSuite) :=
  [.roundOne (echoContext (.replicate 1)) (5 : ℕ) 1, .roundTwo (echoContext (.replicate 2)) "" 2,
    .roundTwo (echoContext (.replicate 3)) "" 3, .roundTwo (echoContext (.replicate 1)) "" 4]

def echoRun : GuardedSignerProvider echoSuite Unit memoryReplayStore × Log echoSuite :=
  run (fun _ _ => pure ())
    ⟨echoIdentity, .new echoParticipant ⟨.empty, ()⟩ (), (∅ : Finset Bytes32), none⟩ echoCalls

theorem run_nonces_used_once_echo :
    (echoRun.2.shares.length = 1 ∧ echoRun.2.accepted.length = 3) ∧
      (echoRun.2.shares.map Share.nonces).Nodup ∧
      (∀ s ∈ echoRun.2.shares, ∃ nonces, SignedWith echoRun.2.generated s nonces ∧
        ∀ binding, (nonces, binding) ∈ echoRun.2.generated →
          binding = reservationBinding echoSuite s.context) ∧
      echoRun.2.accepted.Nodup := by
  have hcounts : echoRun.2.shares.length = 1 ∧ echoRun.2.accepted.length = 3 := by
    decide +kernel
  have hgenerated : (echoRun.2.generated.map Prod.fst : List ℕ) = [5] := by
    decide +kernel
  have hfresh : (echoRun.2.generated.map Prod.fst : List ℕ).Nodup := by
    decide
  exact ⟨hcounts, run_nonces_used_once _ _ _ _ _ _ _ _ hfresh⟩

end GuardedSignerProvider

end Catomicals.ThresholdSigner
