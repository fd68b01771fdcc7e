import Catomicals.ThresholdSigner.Session
import Catomicals.WalletStorage.Operations

/-!
# A FROST participant

One signer with its key package and its pending nonces. Round two takes the nonces out of the
pending map before it asks for the authorization, so that a failure from there on burns them.
-/
namespace Catomicals.ThresholdSigner

open Base WalletStorage Method

structure KeyPackage (Identifier SigningShare : Type) where
  identifier : Identifier
  signingShare : SigningShare

/-- The linked crates of a signer. Randomness is drawn for each use. -/
structure SignerSuite extends FrostSuite, WalletStorage.Platform where
  (SigningNonces SigningShare Entropy : Type)
  commitmentsDecEq : DecidableEq SigningCommitments
  /-- `round1::commit` with the random bytes it draws -/
  commit : SigningShare → Entropy → SigningNonces × SigningCommitments
  /-- `SigningNonces::serialize` -/
  serializeNonces : SigningNonces → Bytes
  /-- `round2::sign` -/
  sign : SigningPackage Identifier SigningCommitments → SigningNonces →
    KeyPackage Identifier SigningShare → Except String SignatureShare
  /-- `SigningCommitments::serialize` -/
  serializeCommitments : SigningCommitments → Option Bytes
  /-- `SignatureShare::serialize` -/
  serializeShare : SignatureShare → Bytes
  /-- `SigningPackage::deserialize` -/
  deserializePackage : Bytes → Option (SigningPackage Identifier SigningCommitments)
  /-- `hex::decode` -/
  decodeHex : String → Option Bytes
  /-- `hex::encode` -/
  encodeHex : Bytes → String

attribute [instance] SignerSuite.commitmentsDecEq

variable {S : SignerSuite} {A : Type}

inductive NonceReuseError where
  | reusedInOtherSession (session : Bytes32)
  | reusedInSameSession

/-- The session of every nonce used, by fingerprint. -/
structure NonceGuard where
  claims : Table Bytes32 Bytes32

namespace NonceGuard

def fingerprint (participantId : UInt16) (nonces : S.SigningNonces) : Bytes32 :=
  S.sha256 ("catomicals-frost-nonce-v1".toUTF8.toList ++ beBytes 2 participantId.toNat ++
    S.serializeNonces nonces)

/-- A fingerprint is claimed once, for one session. -/
def claimFingerprint (fingerprint sessionId : Bytes32) :
    Method NonceGuard NonceReuseError Unit := do
  let guard ← get
  match guard.claims.get fingerprint with
  | none => modify fun guard => ⟨guard.claims.put fingerprint sessionId⟩
  | some prior =>
    if prior = sessionId then
      error .reusedInSameSession
    else
      error (.reusedInOtherSession prior)

def claim (participantId : UInt16) (nonces : S.SigningNonces) (sessionId : Bytes32) :
    Method NonceGuard NonceReuseError Unit :=
  claimFingerprint (fingerprint participantId nonces) sessionId

end NonceGuard

inductive AuthorizationError where
  | alreadyConsumed | wrongSession | wrongMessage | wrongSigner | expired

inductive SigningError where
  | authorization (e : AuthorizationError)
  | nonceReuse (e : NonceReuseError)
  | frost (text : String)
  | keyPackageSignerMismatch
  | roundOneAlreadyExists
  | roundOneNotFound
  | roundBindingMismatch

/-- `SigningAuthorization::authorize` on a token: session, message, signer and time. -/
abbrev Authorize (A : Type) :=
  Bytes32 → Bytes32 → UInt16 → Time → Method A AuthorizationError Unit

/-- `sign_share`: the nonces are claimed before they sign. -/
def signShare (authorize : Authorize A) (session : FrostSession S.toFrostSuite)
    (signerId : UInt16) (nonces : S.SigningNonces)
    (keyPackage : KeyPackage S.Identifier S.SigningShare) (now : Time) :
    Method (NonceGuard × A) SigningError S.SignatureShare := do
  zoom Prod.snd (fun s token => (s.1, token)) .authorization
    (authorize session.id session.message signerId now)
  zoom Prod.fst (fun s guard => (guard, s.2)) .nonceReuse
    (NonceGuard.claim signerId nonces session.id)
  let expected ← lift ((S.participantIdentifier signerId).mapError .frost)
  lift (require (keyPackage.identifier = expected) .keyPackageSignerMismatch)
  lift ((S.sign session.signingPackage nonces keyPackage).mapError .frost)

structure PendingRoundOne (S : SignerSuite) where
  message : Bytes32
  nonces : S.SigningNonces
  commitments : S.SigningCommitments

structure LocalFrostParticipant (S : SignerSuite) where
  signerId : UInt16
  keyPackage : KeyPackage S.Identifier S.SigningShare
  nonceGuard : NonceGuard
  pending : Table Bytes32 (PendingRoundOne S)

namespace LocalFrostParticipant

variable (p : LocalFrostParticipant S) (sessionId : Bytes32)

def insertPending (q : PendingRoundOne S) : LocalFrostParticipant S :=
  { p with pending := p.pending.put sessionId q }

/-- `round1`, for a session without pending nonces. -/
def round1 (entropy : S.Entropy) (sessionId message : Bytes32) :
    Method (LocalFrostParticipant S) SigningError S.SigningCommitments := do
  let p ← get
  lift (require ((p.pending.get sessionId).isNone = true) .roundOneAlreadyExists)
  let (nonces, commitments) := S.commit p.keyPackage.signingShare entropy
  modify fun p => p.insertPending sessionId ⟨message, nonces, commitments⟩
  return commitments

/-- `abort_round`, without the flag whether there was something to remove. -/
def abortRound : LocalFrostParticipant S :=
  { p with pending := p.pending.delete sessionId }

/-- `round2`, which gives the pending round up. -/
def round2 (authorize : Authorize A) (session : FrostSession S.toFrostSuite) (now : Time) :
    Method (LocalFrostParticipant S × A) SigningError S.SignatureShare := do
  let (p, _) ← get
  let pending ← lift (orError (p.pending.get session.id) .roundOneNotFound)
  let identifier ← lift ((S.participantIdentifier p.signerId).mapError .frost)
  lift (require (pending.message = session.message ∧
    session.signingPackage.signingCommitments.get identifier = some pending.commitments)
    .roundBindingMismatch)
  modify fun s => (s.1.abortRound session.id, s.2)
  zoom (fun s => (s.1.nonceGuard, s.2))
    (fun s t => ({ s.1 with nonceGuard := t.1 }, t.2)) id
    (signShare authorize session p.signerId pending.nonces p.keyPackage now)

/-- The pending round of a session is given up, and the nonce guard forgets nothing. -/
structure Burns (p' : LocalFrostParticipant S) : Prop where
  pending : p'.pending = p.pending.delete sessionId
  claims : ∀ k, (p.nonceGuard.claims.get k).isSome = true →
    (p'.nonceGuard.claims.get k).isSome = true
  signerId : p'.signerId = p.signerId
  keyPackage : p'.keyPackage = p.keyPackage

/-- The pending round of the session is for its message, and its commitment in the package. -/
def Holds (session : FrostSession S.toFrostSuite) : Prop :=
  ∃ q identifier, p.pending.get session.id = some q ∧
    S.participantIdentifier p.signerId = .ok identifier ∧ q.message = session.message ∧
    session.signingPackage.signingCommitments.get identifier = some q.commitments

/-- The nonces of the pending round were claimed for the first time and signed with. -/
structure Signs (session : FrostSession S.toFrostSuite) (share : S.SignatureShare)
    (p' : LocalFrostParticipant S) (q : PendingRoundOne S) : Prop where
  pending : p.pending.get session.id = some q
  message : q.message = session.message
  unclaimed : p.nonceGuard.claims.get (NonceGuard.fingerprint p.signerId q.nonces) = none
  claimed :
    (p'.nonceGuard.claims.get (NonceGuard.fingerprint p.signerId q.nonces)).isSome = true
  share : S.sign session.signingPackage q.nonces p.keyPackage = .ok share

end LocalFrostParticipant

namespace NonceGuard

lemma claim_wp {guard : NonceGuard} {participantId : UInt16} {nonces : S.SigningNonces}
    {sessionId : Bytes32} :
    (claim participantId nonces sessionId).wp (fun r guard' =>
      ((∃ e, r = .error e) ∧ guard' = guard) ∨
        r = .ok () ∧ guard.claims.get (fingerprint participantId nonces) = none ∧
          guard' = ⟨guard.claims.put (fingerprint participantId nonces) sessionId⟩) guard := by
  simp only [claim, claimFingerprint, wp_iff]
  cases hprior : guard.claims.get (fingerprint participantId nonces) with
  | none => exact .inr ⟨rfl, rfl, rfl⟩
  | some =>
    simp only [wp_ite, wp_error]
    exact ⟨fun _ => .inl ⟨⟨_, rfl⟩, trivial⟩, fun _ => .inl ⟨⟨_, rfl⟩, trivial⟩⟩

end NonceGuard

section SignShare

variable {authorize : Authorize A} {session : FrostSession S.toFrostSuite} {signerId : UInt16}
  {nonces : S.SigningNonces} {keyPackage : KeyPackage S.Identifier S.SigningShare} {now : Time}
  {guard : NonceGuard} {token : A}

/-- A share needs the authorization and the first claim of its nonces; claims are final. -/
lemma signShare_wp : (signShare authorize session signerId nonces keyPackage now).wp (fun r s =>
    (∀ k, (guard.claims.get k).isSome = true → (s.1.claims.get k).isSome = true) ∧
      ∀ share, r = .ok share →
        authorize session.id session.message signerId now token = (.ok (), s.2) ∧
          guard.claims.get (NonceGuard.fingerprint signerId nonces) = none ∧
          (s.1.claims.get (NonceGuard.fingerprint signerId nonces)).isSome = true ∧
          S.sign session.signingPackage nonces keyPackage = .ok share) (guard, token) := by
  simp only [signShare, wp_bind, wp_zoom]
  rcases hauth : authorize session.id session.message signerId now token with ⟨_ | u, token'⟩
  · rw [wp_of_eq hauth]
    exact ⟨fun _ h => h, fun share hshare => by cases hshare⟩
  rw [wp_of_eq hauth]
  apply wp_mono NonceGuard.claim_wp
  intro r _ hclaim
  rcases hclaim with ⟨⟨e, rfl⟩, rfl⟩ | ⟨rfl, hfree, rfl⟩
  · exact ⟨fun _ h => h, fun share hshare => by cases hshare⟩
  have hkept : ∀ k, (guard.claims.get k).isSome = true →
      ((guard.claims.put (NonceGuard.fingerprint signerId nonces) session.id).get k).isSome := by
    intro k hk
    rw [Table.get_put]
    split_ifs
    · rfl
    · exact hk
  have hclm : ((guard.claims.put (NonceGuard.fingerprint signerId nonces) session.id).get
      (NonceGuard.fingerprint signerId nonces)).isSome = true := by
    simp
  simp only [mapError_ok, wp_iff]
  refine ⟨fun expected _ => ⟨fun _ => ⟨?_, ?_⟩, ?_⟩, ?_⟩
  · intro share hsign
    refine ⟨hkept, fun share' hshare => ?_⟩
    obtain rfl := Except.ok.inj hshare
    exact ⟨trivial, hfree, hclm, hsign⟩
  -- every failure after the claim keeps it
  all_goals
    intros
    exact ⟨hkept, fun share hshare => by cases hshare⟩

/-- Without the pending commitment in the package round two changes nothing; else it gives the round
up, and a share is for its nonces. -/
lemma LocalFrostParticipant.round2_wp {p : LocalFrostParticipant S} :
    (round2 authorize session now).wp (fun r s =>
      (¬p.Holds session ∧ (∃ e, r = .error e) ∧ s.1 = p) ∨
        p.Burns session.id s.1 ∧ ∀ share, r = .ok share →
          authorize session.id session.message p.signerId now token = (.ok (), s.2) ∧
            ∃ q, p.Signs session share s.1 q) (p, token) := by
  simp only [round2, wp_iff]
  refine ⟨fun q hq => ?_, fun hnone => .inl ⟨?_, ⟨_, rfl⟩, trivial⟩⟩
  · simp only [wp_zoom]
    refine ⟨fun identifier hid => ⟨?_, fun hbind => .inl ⟨?_, ⟨_, rfl⟩, trivial⟩⟩,
      fun e hid => .inl ⟨?_, ⟨_, rfl⟩, trivial⟩⟩
    · rintro ⟨hmsg, _⟩
      apply wp_mono signShare_wp
      rintro r s ⟨hkept, hsigned⟩
      refine .inr ⟨⟨rfl, hkept, rfl, rfl⟩, ?_⟩
      intro share hshare
      obtain rfl : r = .ok share := by
        cases r with
        | error => cases hshare
        | ok => exact hshare
      obtain ⟨hauth, hfree, hclm, hsign⟩ := hsigned share rfl
      exact ⟨hauth, q, hq, hmsg, hfree, hclm, hsign⟩
    · rintro ⟨_, _, hq', hid', hmsg, hget⟩
      simp_all
    · rintro ⟨_, _, -, hid', -⟩
      simp_all
  · rintro ⟨_, _, hq, -⟩
    simp [hnone] at hq

end SignShare

end Catomicals.ThresholdSigner
