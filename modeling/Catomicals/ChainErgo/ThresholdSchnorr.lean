import Mathlib.Algebra.Module.Torsion.Field
import Mathlib.Tactic.FieldSimp
import Mathlib.Tactic.LinearCombination
import Mathlib.Tactic.Ring
import Catomicals.ChainErgo.Threshold

/-!
# The responses of two participants make up a proof

The shares of a split lie on a line, so the Lagrange coefficients of two participants give back the
secret. A partial is checked in a group of prime order, where one scalar passes.
-/
namespace Catomicals.ChainErgo

open Base Domain Method List Except

lemma line_at_zero {K : Type} [Field K] {x y : K} (h : y - x ≠ 0) (a r : K) :
    y * (y - x)⁻¹ * (a + r * x) + x * (x - y)⁻¹ * (a + r * y) = a := by
  have h' : x - y ≠ 0 := fun heq => h (by linear_combination -heq)
  field_simp
  ring

lemma zmod_two_add (s c : ZMod 2) (hs : s ≠ 0) (hc : c ≠ 0) : s + c = 0 := by
  revert s c
  decide

lemma two_ne_zero_of_share {q : ℕ} [Fact q.Prime] {s c : ZMod q} (hs : s ≠ 0) (hc : c ≠ 0)
    (hshare : s + c * (1 : ℕ) ≠ 0) : (2 : ZMod q) ≠ 0 := by
  intro htwo
  have hdvd : q ∣ 2 := (ZMod.natCast_eq_zero_iff 2 q).mp (by exact_mod_cast htwo)
  have hq : q = 2 := (Nat.prime_dvd_prime_iff_eq Fact.out Nat.prime_two).mp hdvd
  subst hq
  exact hshare (by simpa using zmod_two_add s c hs hc)

variable {C : Curve} {s c : C.Scalar} {out : ErgoThresholdDealerOutput} {i j : UInt16}
  {share : ErgoThresholdSecretShare}

lemma smul_generator_inj {t : C.Scalar} (h : s • C.generator = t • C.generator) : s = t :=
  smul_left_injective C.Scalar C.generator_ne_zero h

@[simp] lemma parsePoint_pointBytes (p : C.Point) : parsePoint C (C.pointBytes p) = .ok p := by
  simp [parsePoint, C.parsePoint_pointBytes, Except.mapError]

@[simp] lemma parseScalar_eq_ok {b : Bytes32} {field : String} :
    parseScalar C b field = .ok s ↔ C.scalarBytes s = b := by
  simp [parseScalar, C.fromRepr_eq_some]

@[simp] lemma parseNonzeroScalar_eq_ok {b : Bytes32} {field : String} :
    parseNonzeroScalar C b field = .ok s ↔ C.scalarBytes s = b ∧ s ≠ 0 := by
  simp only [parseNonzeroScalar, ok_iff, parseScalar_eq_ok]
  constructor
  · rintro ⟨_, hbytes, hne, rfl⟩
    exact ⟨hbytes, hne⟩
  · rintro ⟨hbytes, hne⟩
    exact ⟨s, hbytes, hne, rfl⟩

def IsParticipant (i : UInt16) : Prop := 1 ≤ i ∧ i ≤ 3

lemma validateParticipant_of (h : IsParticipant i) : validateParticipant i = .ok () := require_pos h

def shareAt (s c : C.Scalar) (i : UInt16) : C.Scalar := s + c * scalarFromParticipant C i

/-- The output of a dealer is the line with the given coefficients. -/
structure Deals (C : Curve) (s c : C.Scalar) (out : ErgoThresholdDealerOutput) : Prop where
  secret : s ≠ 0
  coefficient : c ≠ 0
  commitment : out.commitment =
    ⟨C.pointBytes (s • C.generator), C.pointBytes (c • C.generator)⟩
  share : ∀ a ∈ out.shares, IsParticipant a.participantId ∧
    a.scalar = C.scalarBytes (shareAt s c a.participantId) ∧ shareAt s c a.participantId ≠ 0
  first : shareAt s c 1 ≠ 0

lemma makeShare_eq_ok (h : makeShare C s c i = .ok share) :
    share = ⟨i, C.scalarBytes (shareAt s c i)⟩ ∧ IsParticipant i ∧ shareAt s c i ≠ 0 := by
  simp only [makeShare, importForSigning, validateParticipant, ok_iff,
    parseNonzeroScalar_eq_ok] at h
  obtain ⟨hne, hpart, _, -, rfl⟩ := h
  exact ⟨rfl, hpart, hne⟩

theorem dealerSplit_deals {secret coefficient : Bytes32}
    (h : dealerSplitThresholdSecret C secret coefficient = .ok out) :
    ∃ s c, C.scalarBytes s = secret ∧ C.scalarBytes c = coefficient ∧ Deals C s c out := by
  simp only [dealerSplitThresholdSecret, ok_iff, parseNonzeroScalar_eq_ok] at h
  obtain ⟨s, ⟨hs, hs0⟩, c, ⟨hc, hc0⟩, _, himport, _, h₁, _, h₂, _, h₃, rfl⟩ := h
  simp only [importCommitment, ok_iff, parsePoint_pointBytes, ok.injEq, exists_eq_left'] at himport
  obtain ⟨-, rfl⟩ := himport
  obtain ⟨rfl, hp₁, hne₁⟩ := makeShare_eq_ok h₁
  obtain ⟨rfl, hp₂, hne₂⟩ := makeShare_eq_ok h₂
  obtain ⟨rfl, hp₃, hne₃⟩ := makeShare_eq_ok h₃
  refine ⟨s, c, hs, hc, ⟨hs0, hc0, rfl, ?_, hne₁⟩⟩
  intro a ha
  simp only [mem_cons, not_mem_nil, or_false] at ha
  rcases ha with rfl | rfl | rfl
  · exact ⟨hp₁, rfl, hne₁⟩
  · exact ⟨hp₂, rfl, hne₂⟩
  · exact ⟨hp₃, rfl, hne₃⟩

section Deals

lemma isParticipant_cases (h : IsParticipant i) : i = 1 ∨ i = 2 ∨ i = 3 := by
  obtain ⟨hlow, hhigh⟩ := h
  have hlow' : 1 ≤ i.toNat := by simpa [UInt16.le_iff_toNat_le] using hlow
  have hhigh' : i.toNat ≤ 3 := by simpa [UInt16.le_iff_toNat_le] using hhigh
  have hcases : i.toNat = 1 ∨ i.toNat = 2 ∨ i.toNat = 3 := by omega
  rcases hcases with h | h | h
  · exact .inl (UInt16.toNat_inj.mp h)
  · exact .inr (.inl (UInt16.toNat_inj.mp h))
  · exact .inr (.inr (UInt16.toNat_inj.mp h))

theorem Deals.apart (h : Deals C s c out) (hi : IsParticipant i) (hj : IsParticipant j)
    (hne : i ≠ j) : scalarFromParticipant C j - scalarFromParticipant C i ≠ 0 := by
  have htwo : (2 : C.Scalar) ≠ 0 := two_ne_zero_of_share h.secret h.coefficient h.first
  have hone : (1 : C.Scalar) ≠ 0 := one_ne_zero
  have h1 : scalarFromParticipant C 1 = 1 := by simp [scalarFromParticipant]
  have h2 : scalarFromParticipant C 2 = 2 := by simp [scalarFromParticipant]
  have h3 : scalarFromParticipant C 3 = 3 := by simp [scalarFromParticipant]
  intro heq
  rcases isParticipant_cases hi with rfl | rfl | rfl <;>
    rcases isParticipant_cases hj with rfl | rfl | rfl
  · exact hne rfl
  · exact hone (by linear_combination heq - h2 + h1)
  · exact htwo (by linear_combination heq - h3 + h1)
  · exact hone (by linear_combination -heq + h1 - h2)
  · exact hne rfl
  · exact hone (by linear_combination heq - h3 + h2)
  · exact htwo (by linear_combination -heq + h1 - h3)
  · exact hone (by linear_combination -heq + h2 - h3)
  · exact hne rfl

lemma Deals.sharePublicKey (h : Deals C s c out) (hi : IsParticipant i) :
    out.commitment.sharePublicKey C i = .ok (C.pointBytes (shareAt s c i • C.generator)) := by
  simp only [ErgoThresholdCommitment.sharePublicKey, validateParticipant, h.commitment, ok_iff,
    parsePoint_pointBytes, ok.injEq, exists_eq_left']
  refine ⟨hi, ?_⟩
  rw [smul_smul, ← add_smul, mul_comm]
  rfl

end Deals

/-- The nonces of a participant: two scalars and the commitments to them. -/
structure HoldsNonces (C : Curve) (i : UInt16) (sessionId : Bytes32) (k l : C.Scalar)
    (n : ErgoThresholdSigningNonces) : Prop where
  participantId : n.participantId = i
  hidingNonce : n.hidingNonce = C.scalarBytes k
  bindingNonce : n.bindingNonce = C.scalarBytes l
  commitments : n.commitments =
    ⟨i, sessionId, C.pointBytes (k • C.generator), C.pointBytes (l • C.generator)⟩

lemma generateThresholdNonces_holds {R : NonceReplayGuard} {sessionId : Bytes32} {k l : C.Scalar}
    {r r' : R.State} {n : ErgoThresholdSigningNonces}
    (h : generateThresholdNonces C R share sessionId k l r = (.ok n, r')) :
    HoldsNonces C share.participantId sessionId k l n ∧ sessionId ≠ .zeros := by
  have hwp : (generateThresholdNonces C R share sessionId k l).wp (fun result _ =>
      ∀ n, result = .ok n →
        HoldsNonces C share.participantId sessionId k l n ∧ sessionId ≠ .zeros) r := by
    simp only [generateThresholdNonces, validateParticipant, validateSessionId, wp_iff]
    refine ⟨fun _ => ⟨fun hsess => ?_, fun _ => by simp⟩, fun _ => by simp⟩
    apply wp_mono (Q := fun _ _ => True) trivial
    intro result _ _
    cases result with
    | error => simp
    | ok =>
      intro n hn
      cases hn
      exact ⟨⟨rfl, rfl, rfl, rfl⟩, hsess⟩
  rw [wp_of_eq h] at hwp
  exact hwp n rfl

lemma orderCommitments_comm {a b : ErgoThresholdCommitments}
    (h : a.participantId ≠ b.participantId) : orderCommitments a b = orderCommitments b a := by
  have hne : a.participantId.toNat ≠ b.participantId.toNat := fun heq => h (UInt16.toNat_inj.mp heq)
  simp only [orderCommitments, UInt16.le_iff_toNat_le]
  split_ifs
  · omega
  · rfl
  · rfl
  · omega

theorem newSigningPackage_comm (commitment : ErgoThresholdCommitment)
    (reviewBinding : ReviewBinding) (sessionId : Bytes32) (message : Bytes)
    (a b : ErgoThresholdCommitments) :
    newSigningPackage C commitment reviewBinding sessionId message [a, b] =
      newSigningPackage C commitment reviewBinding sessionId message [b, a] := by
  by_cases hne : a.participantId = b.participantId
  · -- both orders are refused for the same reason
    have hab : (orderCommitments a b) = (a, b) := by simp [orderCommitments, hne]
    have hba : (orderCommitments b a) = (b, a) := by simp [orderCommitments, hne]
    simp only [newSigningPackage, hab, hba, hne]
    simp [require, bind, Except.bind]
  · simp only [newSigningPackage, orderCommitments_comm hne]

/-- The package two participants sign: their commitments in some order, and the challenge for their
nonces' sum. -/
structure PackageOf (C : Curve) (commitment : ErgoThresholdCommitment)
    (reviewBinding : ReviewBinding) (a b : ErgoThresholdCommitments) (A : C.Point)
    (package : ErgoThresholdSigningPackage) : Prop where
  reviewBinding : package.reviewBinding = reviewBinding
  sessionId : package.sessionId = a.sessionId ∧ package.sessionId = b.sessionId
  apart : a.participantId ≠ b.participantId
  commitments : package.commitments = (a, b) ∨ package.commitments = (b, a)
  digest : package.transcriptDigest = transcriptDigest C commitment package.reviewBinding
    package.sessionId package.message package.commitments
  aggregate : package.aggregateCommitment = C.pointBytes A

variable {commitment : ErgoThresholdCommitment} {reviewBinding : ReviewBinding}
  {a b : ErgoThresholdCommitments} {A : C.Point} {package : ErgoThresholdSigningPackage}

section

variable (h : PackageOf C commitment reviewBinding a b A package)
include h

lemma PackageOf.symm : PackageOf C commitment reviewBinding b a A package :=
  ⟨h.reviewBinding, h.sessionId.symm, h.apart.symm, h.commitments.symm, h.digest, h.aggregate⟩

lemma PackageOf.commitmentFor : package.commitmentFor a.participantId = some a := by
  unfold ErgoThresholdSigningPackage.commitmentFor
  rcases h.commitments with heq | heq
  · simp [heq]
  · simp [heq, h.apart.symm]

lemma PackageOf.lagrangeCoefficient
    (hapart : scalarFromParticipant C b.participantId - scalarFromParticipant C a.participantId
      ≠ 0) :
    lagrangeCoefficient C a.participantId package.signerIds = .ok
      (scalarFromParticipant C b.participantId * (scalarFromParticipant C b.participantId -
        scalarFromParticipant C a.participantId)⁻¹) := by
  unfold ChainErgo.lagrangeCoefficient ErgoThresholdSigningPackage.signerIds
  rcases h.commitments with heq | heq
  · simp [heq, require, hapart, bind, Except.bind, pure, Except.pure]
  · simp [heq, require, hapart, h.apart.symm, bind, Except.bind, pure, Except.pure]

lemma PackageOf.validateCommitment : package.validateCommitment C commitment = .ok () := by
  simp only [ErgoThresholdSigningPackage.validateCommitment, require_eq_ok]
  exact h.digest.symm

end

section Rounds

variable {sessionId : Bytes32} {k l k' l' : C.Scalar} {n n' : ErgoThresholdSigningNonces}
  {message : Bytes}

/-- The nonce a participant answers for, under a transcript. -/
def boundNonce (C : Curve) (digest : Bytes32) (i : UInt16) (k l : C.Scalar) : C.Scalar :=
  k + bindingFactor C digest i * l

lemma HoldsNonces.check (h : HoldsNonces C i sessionId k l n) (hk : k ≠ 0) (hl : l ≠ 0) :
    n.commitments.check C sessionId = .ok () := by
  simp only [ErgoThresholdCommitments.check, parseNonidentityPoint, h.commitments, ok_iff,
    parsePoint_pointBytes, ok.injEq, exists_eq_left']
  simp [hk, hl, C.generator_ne_zero]

lemma HoldsNonces.nonce (h : HoldsNonces C i sessionId k l n) (digest : Bytes32) :
    n.commitments.nonce C digest = .ok (boundNonce C digest i k l • C.generator) := by
  simp only [ErgoThresholdCommitments.nonce, h.commitments, ok_iff, parsePoint_pointBytes,
    ok.injEq, exists_eq_left']
  rw [smul_smul, ← add_smul]
  rfl

/-- The digest of the transcript that two participants sign. -/
def digestOf (C : Curve) (commitment : ErgoThresholdCommitment) (reviewBinding : ReviewBinding)
    (sessionId : Bytes32) (message : Bytes) (n n' : ErgoThresholdSigningNonces) : Bytes32 :=
  transcriptDigest C commitment reviewBinding sessionId message
    (orderCommitments n.commitments n'.commitments)

/-- The package of two participants holds the sum of their nonces, if not zero. -/
theorem newSigningPackage_eq (hn : HoldsNonces C i sessionId k l n)
    (hn' : HoldsNonces C j sessionId k' l' n') (hi : IsParticipant i) (hj : IsParticipant j)
    (hne : i ≠ j) (hsess : sessionId ≠ .zeros) (hk : k ≠ 0) (hl : l ≠ 0) (hk' : k' ≠ 0)
    (hl' : l' ≠ 0) {P : C.Point} (hgroup : commitment.groupPublicKey = C.pointBytes P)
    {digest : Bytes32} (hdig : digestOf C commitment reviewBinding sessionId message n n' = digest)
    (hsum : boundNonce C digest i k l + boundNonce C digest j k' l' ≠ 0) :
    ∃ package, newSigningPackage C commitment reviewBinding sessionId message
        [n.commitments, n'.commitments] = .ok package ∧
      PackageOf C commitment reviewBinding n.commitments n'.commitments
        (boundNonce C package.transcriptDigest i k l • C.generator +
          boundNonce C package.transcriptDigest j k' l' • C.generator) package := by
  have hid : n.commitments.participantId = i := by rw [hn.commitments]
  have hid' : n'.commitments.participantId = j := by rw [hn'.commitments]
  wlog hle : i ≤ j generalizing i j k l k' l' n n'
  · have hle' : j ≤ i := by
      rw [UInt16.le_iff_toNat_le] at hle ⊢
      omega
    have hdig' : digestOf C commitment reviewBinding sessionId message n' n = digest := by
      rw [← hdig, digestOf, digestOf, orderCommitments_comm (by rw [hid, hid']; exact hne.symm)]
    rw [newSigningPackage_comm]
    obtain ⟨package, hok, hpackage⟩ := this hn' hn hj hi hne.symm hk' hl' hk hl hdig'
      (by rwa [add_comm]) hid' hid hle'
    rw [add_comm] at hpackage
    exact ⟨package, hok, hpackage.symm⟩
  have hordered : orderCommitments n.commitments n'.commitments =
      (n.commitments, n'.commitments) := by
    simp [orderCommitments, hid, hid', hle]
  rw [digestOf, hordered] at hdig
  generalize hA : boundNonce C digest i k l • C.generator +
    boundNonce C digest j k' l' • C.generator = A
  have hnonzero : A ≠ 0 := by
    rw [← hA, ← add_smul]
    exact smul_ne_zero hsum C.generator_ne_zero
  have hchal : ∃ challenge, ergoChallenge C commitment.groupPublicKey (C.pointBytes A)
      message = .ok challenge := by
    simp only [ergoChallenge, hgroup, ok_iff, parsePoint_pointBytes, ok.injEq,
      exists_eq_left', exists_eq']
  obtain ⟨challenge, hchal⟩ := hchal
  refine ⟨⟨message, reviewBinding, sessionId, (n.commitments, n'.commitments), digest,
    C.pointBytes A, challenge⟩, ?_, ?_⟩
  · simp only [newSigningPackage, validateSessionId, require_pos hsess,
      hordered, hid, hid', validateParticipant_of hi, validateParticipant_of hj, require_pos hne,
      hdig, hn.check hk hl, hn'.check hk' hl', hn.nonce digest, hn'.nonce digest, zero_add, hA,
      hchal, ok_bind, require_pos hnonzero]
    rfl
  · exact ⟨rfl, ⟨by rw [hn.commitments], by rw [hn'.commitments]⟩, by rw [hid, hid']; exact hne,
      .inl rfl, hdig.symm, by rw [hA]⟩

def honestResponse (C : Curve) (package : ErgoThresholdSigningPackage) (i j : UInt16)
    (k l secret : C.Scalar) : C.Scalar :=
  boundNonce C package.transcriptDigest i k l + challengeScalar C package.challenge *
    (scalarFromParticipant C j *
      (scalarFromParticipant C j - scalarFromParticipant C i)⁻¹) * secret

def honestShare (C : Curve) (package : ErgoThresholdSigningPackage) (i j : UInt16)
    (k l secret : C.Scalar) : ErgoThresholdSignatureShare :=
  ⟨i, package.transcriptDigest, C.scalarBytes (honestResponse C package i j k l secret)⟩

section Signing

variable (hdeals : Deals C s c out) (hi : IsParticipant i) (hj : IsParticipant j)
  (hn : HoldsNonces C i sessionId k l n) (hn' : HoldsNonces C j sessionId k' l' n') (hne : i ≠ j)
  (hpackage : PackageOf C out.commitment reviewBinding n.commitments n'.commitments A package)
include hdeals hi hj hn hn' hne hpackage

lemma commitment_and_coefficient : package.commitmentFor i = some n.commitments ∧
    lagrangeCoefficient C i package.signerIds = .ok (scalarFromParticipant C j *
      (scalarFromParticipant C j - scalarFromParticipant C i)⁻¹) := by
  have hid : n.commitments.participantId = i := by rw [hn.commitments]
  have hid' : n'.commitments.participantId = j := by rw [hn'.commitments]
  have hfor := hpackage.commitmentFor
  have hlag := hpackage.lagrangeCoefficient (by rw [hid, hid']; exact hdeals.apart hi hj hne)
  rw [hid] at hfor
  rw [hid, hid'] at hlag
  exact ⟨hfor, hlag⟩

theorem signThresholdShare_honest (hshare : share ∈ out.shares) (hid : share.participantId = i)
    (hk : k ≠ 0) (hl : l ≠ 0) {R : NonceReplayGuard} {r r' : R.State}
    (hconsume : R.consume n.reservation package.transcriptDigest r = (.ok (), r')) :
    signThresholdShare C R out.commitment share n reviewBinding package r =
      (.ok (honestShare C package i j k l (shareAt s c i)), r') := by
  subst hid
  obtain ⟨-, hscalar, hsecret⟩ := hdeals.share share hshare
  obtain ⟨hfor, hlag⟩ := commitment_and_coefficient hdeals hi hj hn hn' hne hpackage
  have hscalarOf : share.scalarOf C = .ok (shareAt s c share.participantId) := by
    simp only [ErgoThresholdSecretShare.scalarOf, parseNonzeroScalar_eq_ok]
    exact ⟨hscalar.symm, hsecret⟩
  have hvalid : validateThresholdSecretShare C out.commitment share = .ok () := by
    simp only [validateThresholdSecretShare, hdeals.sharePublicKey hi, hscalarOf, ok_bind,
      require_eq_ok]
  have hhiding : parseNonzeroScalar C n.hidingNonce "hiding nonce" = .ok k :=
    parseNonzeroScalar_eq_ok.mpr ⟨hn.hidingNonce.symm, hk⟩
  have hbind : parseNonzeroScalar C n.bindingNonce "binding nonce" = .ok l :=
    parseNonzeroScalar_eq_ok.mpr ⟨hn.bindingNonce.symm, hl⟩
  unfold signThresholdShare
  rw [lift_bind_of_ok hpackage.validateCommitment,
    lift_bind_of_ok (require_pos hpackage.reviewBinding),
    lift_bind_of_ok (require_pos hpackage.sessionId.1),
    lift_bind_of_ok (require_pos hn.participantId.symm),
    lift_bind_of_ok hvalid, lift_bind_of_ok (orError_eq_ok.mpr hfor),
    lift_bind_of_ok (require_pos rfl), bind_of_ok hconsume,
    lift_bind_of_ok hhiding, lift_bind_of_ok hbind,
    lift_bind_of_ok hlag, lift_bind_of_ok hscalarOf]
  rfl

/-- Only its response share is accepted as the partial of a participant. -/
theorem checkPartial_eq_ok (seen : List UInt16) (p : ErgoThresholdSignatureShare) (z : C.Scalar)
    (hp : p.participantId = i) :
    checkPartial C out.commitment package seen p = .ok z ↔
      i ∉ seen ∧ p = honestShare C package i j k l (shareAt s c i) ∧
        z = honestResponse C package i j k l (shareAt s c i) := by
  obtain ⟨hfor, hlag⟩ := commitment_and_coefficient hdeals hi hj hn hn' hne hpackage
  have hexp : k • C.generator + bindingFactor C package.transcriptDigest i • l • C.generator +
      (challengeScalar C package.challenge * (scalarFromParticipant C j *
        (scalarFromParticipant C j - scalarFromParticipant C i)⁻¹)) •
        shareAt s c i • C.generator =
      honestResponse C package i j k l (shareAt s c i) • C.generator := by
    rw [smul_smul, smul_smul, ← add_smul, ← add_smul]
    rfl
  simp only [checkPartial, hp, validateParticipant_of hi, ok_bind, ok_iff, hfor, Option.some.injEq,
    exists_eq_left', parseScalar_eq_ok, hlag, ok.injEq, hdeals.sharePublicKey hi,
    parsePoint_pointBytes, hn.commitments, hexp]
  constructor
  · rintro ⟨hseen, hdig, _, hbytes, hz, rfl⟩
    have hvalue := smul_generator_inj hz
    refine ⟨hseen, ?_, hvalue⟩
    cases p
    simp only at hp hdig hbytes
    subst hp hdig
    rw [← hbytes, hvalue]
    rfl
  · rintro ⟨hseen, rfl, rfl⟩
    exact ⟨hseen, rfl, _, rfl, rfl, rfl⟩

end Signing

end Rounds

lemma aggregateResponse_eq_ok {partials : List ErgoThresholdSignatureShare} {z : C.Scalar} :
    aggregateResponse C commitment package partials = .ok z ↔
      package.validateCommitment C commitment = .ok () ∧ ∃ p q z₁ z₂, partials = [p, q] ∧
        checkPartial C commitment package [] p = .ok z₁ ∧
        checkPartial C commitment package [p.participantId] q = .ok z₂ ∧ z = z₁ + z₂ := by
  simp only [aggregateResponse, ok_iff]
  constructor
  · rintro ⟨hvalid, hlen, hsum⟩
    obtain ⟨p, q, rfl⟩ := length_eq_two.mp hlen
    simp only [sumPartials, bind_eq_ok, ok.injEq, nil_append, zero_add] at hsum
    obtain ⟨z₁, h₁, z₂, h₂, rfl⟩ := hsum
    exact ⟨hvalid, p, q, z₁, z₂, rfl, h₁, h₂, rfl⟩
  · rintro ⟨hvalid, _, _, z₁, z₂, rfl, h₁, h₂, rfl⟩
    refine ⟨hvalid, rfl, ?_⟩
    simp only [sumPartials, bind_eq_ok, ok.injEq, nil_append, zero_add]
    exact ⟨z₁, h₁, z₂, h₂, rfl⟩

lemma PackageOf.participant_of_checkPartial
    (h : PackageOf C commitment reviewBinding a b A package) {seen : List UInt16}
    {p : ErgoThresholdSignatureShare} {z : C.Scalar}
    (hp : checkPartial C commitment package seen p = .ok z) :
    p.participantId = a.participantId ∨ p.participantId = b.participantId := by
  simp only [checkPartial, ok_iff] at hp
  obtain ⟨-, -, -, roundOne, hfor, -⟩ := hp
  have hmem := mem_of_find?_eq_some hfor
  have hid : roundOne.participantId = p.participantId := by simpa using find?_some hfor
  rw [← hid]
  rcases h.commitments with heq | heq
  · simp only [heq, mem_cons, not_mem_nil, or_false] at hmem
    rcases hmem with rfl | rfl
    · exact .inl rfl
    · exact .inr rfl
  · simp only [heq, mem_cons, not_mem_nil, or_false] at hmem
    rcases hmem with rfl | rfl
    · exact .inr rfl
    · exact .inl rfl

lemma aggregateThresholdP2pkProof_eq_ok {partials : List ErgoThresholdSignatureShare}
    {proof : ErgoP2pkProof} {P : C.Point} (hP : parsePoint C commitment.groupPublicKey = .ok P) :
    aggregateThresholdP2pkProof C commitment package partials = .ok proof ↔
      ∃ z, aggregateResponse C commitment package partials = .ok z ∧
        C.verifySignature P package.message proof.bytes = .ok true ∧
        proof = ⟨package.challenge.bytes ++ (C.scalarBytes z).bytes, package.reviewBinding⟩ := by
  simp only [aggregateThresholdP2pkProof, ok_iff, mapError_eq_ok, hP, ok.injEq, exists_eq_left']
  constructor
  · rintro ⟨z, hz, _, hvalid, rfl, rfl⟩
    exact ⟨z, hz, hvalid, rfl⟩
  · rintro ⟨z, hz, hvalid, rfl⟩
    exact ⟨z, hz, true, hvalid, rfl, rfl⟩

/-- An aggregation accepts the only partials of two participants, in either order. -/
lemma PackageOf.aggregateResponse_iff (h : PackageOf C commitment reviewBinding a b A package)
    (ha : a.participantId = i) (hb : b.participantId = j) {pa pb : ErgoThresholdSignatureShare}
    (hpa : pa.participantId = i) (hpb : pb.participantId = j) {za zb : C.Scalar}
    (haccept : ∀ seen p z, p.participantId = i →
      (checkPartial C commitment package seen p = .ok z ↔ i ∉ seen ∧ p = pa ∧ z = za))
    (haccept' : ∀ seen p z, p.participantId = j →
      (checkPartial C commitment package seen p = .ok z ↔ j ∉ seen ∧ p = pb ∧ z = zb))
    (partials : List ErgoThresholdSignatureShare) (z : C.Scalar) :
    aggregateResponse C commitment package partials = .ok z ↔
      (partials = [pa, pb] ∨ partials = [pb, pa]) ∧ z = za + zb := by
  subst ha hb
  have hne := h.apart
  rw [aggregateResponse_eq_ok]
  constructor
  · rintro ⟨-, p, q, z₁, z₂, rfl, h₁, h₂, rfl⟩
    rcases h.participant_of_checkPartial h₁ with hp | hp <;>
      rcases h.participant_of_checkPartial h₂ with hq | hq
    · exact absurd (by simp [hp]) ((haccept _ q _ hq).mp h₂).1
    · obtain ⟨-, rfl, rfl⟩ := (haccept _ p _ hp).mp h₁
      obtain ⟨-, rfl, rfl⟩ := (haccept' _ q _ hq).mp h₂
      exact ⟨.inl rfl, rfl⟩
    · obtain ⟨-, rfl, rfl⟩ := (haccept' _ p _ hp).mp h₁
      obtain ⟨-, rfl, rfl⟩ := (haccept _ q _ hq).mp h₂
      exact ⟨.inr rfl, add_comm _ _⟩
    · exact absurd (by simp [hp]) ((haccept' _ q _ hq).mp h₂).1
  · rintro ⟨rfl | rfl, rfl⟩
    · exact ⟨h.validateCommitment, pa, pb, za, zb, rfl, (haccept _ _ _ hpa).mpr (by simp),
        (haccept' _ _ _ hpb).mpr (by simp [hpa, hne.symm]), rfl⟩
    · exact ⟨h.validateCommitment, pb, pa, zb, za, rfl, (haccept' _ _ _ hpb).mpr (by simp),
        (haccept _ _ _ hpa).mpr (by simp [hpb, hne]), add_comm _ _⟩

/-- Each of the two participants signs with one share once it may use its nonces, the sum answers
the challenge for the group key, an aggregation accepts these shares in either order and no others,
and then only the linked crate's check is left. -/
def Completes (C : Curve) (R : NonceReplayGuard) (out : ErgoThresholdDealerOutput)
    (a b : ErgoThresholdSecretShare) (na nb : ErgoThresholdSigningNonces)
    (reviewBinding : ReviewBinding) (package : ErgoThresholdSigningPackage) : Prop :=
  ∃ (pa pb : ErgoThresholdSignatureShare) (z : C.Scalar) (A P : C.Point),
    (∀ r r', R.consume na.reservation package.transcriptDigest r = (.ok (), r') →
      signThresholdShare C R out.commitment a na reviewBinding package r = (.ok pa, r')) ∧
    (∀ r r', R.consume nb.reservation package.transcriptDigest r = (.ok (), r') →
      signThresholdShare C R out.commitment b nb reviewBinding package r = (.ok pb, r')) ∧
    parsePoint C package.aggregateCommitment = .ok A ∧
    parsePoint C out.commitment.groupPublicKey = .ok P ∧
    z • C.generator = A + challengeScalar C package.challenge • P ∧
    (∀ partials z', aggregateResponse C out.commitment package partials = .ok z' ↔
      (partials = [pa, pb] ∨ partials = [pb, pa]) ∧ z' = z) ∧
    ∀ partials proof, aggregateThresholdP2pkProof C out.commitment package partials = .ok proof ↔
      (partials = [pa, pb] ∨ partials = [pb, pa]) ∧
        proof = ⟨package.challenge.bytes ++ (C.scalarBytes z).bytes, reviewBinding⟩ ∧
        C.verifySignature P package.message proof.bytes = .ok true

/-- Two-of-three threshold Schnorr is correct: for any two participants of a split with nonces that
are not zero and do not cancel out, there is one package for both orders of the commitments, and
only their own shares are accepted, which add up to a proof for the group key. -/
theorem threshold_schnorr_correct {R : NonceReplayGuard} {secret coefficient : Bytes32}
    {out : ErgoThresholdDealerOutput}
    (hsplit : dealerSplitThresholdSecret C secret coefficient = .ok out)
    {a b : ErgoThresholdSecretShare} (ha : a ∈ out.shares) (hb : b ∈ out.shares)
    (hne : a.participantId ≠ b.participantId) {sessionId : Bytes32} {k l k' l' : C.Scalar}
    (hk : k ≠ 0) (hl : l ≠ 0) (hk' : k' ≠ 0) (hl' : l' ≠ 0) {r₁ r₁' r₂ r₂' : R.State}
    {na nb : ErgoThresholdSigningNonces}
    (hna : generateThresholdNonces C R a sessionId k l r₁ = (.ok na, r₁'))
    (hnb : generateThresholdNonces C R b sessionId k' l' r₂ = (.ok nb, r₂'))
    (reviewBinding : ReviewBinding) (message : Bytes)
    (hsum : let digest := digestOf C out.commitment reviewBinding sessionId message na nb
      boundNonce C digest a.participantId k l + boundNonce C digest b.participantId k' l' ≠ 0) :
    ∃ package,
      newSigningPackage C out.commitment reviewBinding sessionId message
        [na.commitments, nb.commitments] = .ok package ∧
      newSigningPackage C out.commitment reviewBinding sessionId message
        [nb.commitments, na.commitments] = .ok package ∧
      Completes C R out a b na nb reviewBinding package := by
  obtain ⟨s, c, -, -, hdeals⟩ := dealerSplit_deals hsplit
  obtain ⟨hn, hsess⟩ := generateThresholdNonces_holds hna
  obtain ⟨hn', -⟩ := generateThresholdNonces_holds hnb
  have hi := (hdeals.share a ha).1
  have hj := (hdeals.share b hb).1
  have hgroup : out.commitment.groupPublicKey = C.pointBytes (s • C.generator) := by
    rw [hdeals.commitment]
  have hP : parsePoint C out.commitment.groupPublicKey = .ok (s • C.generator) := by
    rw [hgroup]
    exact parsePoint_pointBytes _
  obtain ⟨package, hok, hpackage⟩ :=
    newSigningPackage_eq hn hn' hi hj hne hsess hk hl hk' hl' hgroup rfl hsum
  refine ⟨package, hok, by rw [newSigningPackage_comm, hok], ?_⟩
  have hida : na.commitments.participantId = a.participantId := by rw [hn.commitments]
  have hidb : nb.commitments.participantId = b.participantId := by rw [hn'.commitments]
  have hresponse := hpackage.aggregateResponse_iff hida hidb rfl rfl
    (checkPartial_eq_ok hdeals hi hj hn hn' hne hpackage)
    (checkPartial_eq_ok hdeals hj hi hn' hn hne.symm hpackage.symm)
  refine ⟨_, _, _, _, _, ?_, ?_, by rw [hpackage.aggregate]; exact parsePoint_pointBytes _, hP, ?_,
    hresponse, ?_⟩
  · intro r r' hconsume
    exact signThresholdShare_honest hdeals hi hj hn hn' hne hpackage ha rfl hk hl hconsume
  · intro r _ hconsume
    exact signThresholdShare_honest hdeals hj hi hn' hn hne.symm hpackage.symm hb rfl hk' hl'
      hconsume
  · have hline := line_at_zero (hdeals.apart hi hj hne) s c
    rw [smul_smul, ← add_smul, ← add_smul]
    congr 1
    simp only [honestResponse, shareAt]
    linear_combination challengeScalar C package.challenge * hline
  · intro partials proof
    rw [aggregateThresholdP2pkProof_eq_ok hP]
    simp only [hresponse, hpackage.reviewBinding]
    constructor
    · rintro ⟨z, ⟨hpartials, rfl⟩, hvalid, hproof⟩
      exact ⟨hpartials, hproof, hvalid⟩
    · rintro ⟨hpartials, hproof, hvalid⟩
      exact ⟨_, ⟨hpartials, rfl⟩, hvalid, hproof⟩

/-- The integers modulo seven, with fixed answers of the hash. -/
def sevenCurve : Curve where
  order := 7
  prime := ⟨by decide⟩
  Point := ZMod 7
  group := inferInstance
  module := inferInstance
  pointDecEq := inferInstance
  generator := 1
  generator_ne_zero := by decide
  pointBytes := fun p => ⟨UInt8.ofNat p.val :: replicate 32 0, by simp⟩
  parsePoint := fun b => .ok (b.bytes.headD 0).toNat
  parsePoint_pointBytes := by decide
  scalarBytes := fun s => ⟨UInt8.ofNat s.val :: replicate 31 0, by simp⟩
  fromRepr := fun b => (finRange 7).find? fun s =>
    UInt8.ofNat s.val :: replicate 31 0 = b.bytes
  fromRepr_eq_some := by
    intro b s
    constructor
    · intro h
      have hs := find?_some h
      cases b
      simpa using hs
    · rintro rfl
      revert s
      decide
  reduceBytes := fun _ => 1
  blake2b256 := fun _ => .zeros
  p2pkTreeBytes := fun _ => []
  verifySignature := fun _ _ _ => .ok true

def openGuard : NonceReplayGuard where
  State := Unit
  reserve := fun _ => pure ()
  consume := fun _ _ => pure ()

def sevenBytes (s : ZMod 7) : Bytes32 := sevenCurve.scalarBytes s

def sevenReview : ReviewBinding :=
  ⟨1, ⟨1, .ergo, .ergo .testnet⟩, .ergoSigmaP2pkThreshold2of3V1, "set", 1, 1, .zeros⟩

def sevenOut : ErgoThresholdDealerOutput where
  commitment := ⟨sevenCurve.pointBytes (1 : ZMod 7), sevenCurve.pointBytes (1 : ZMod 7)⟩
  shares := [⟨1, sevenBytes 2⟩, ⟨2, sevenBytes 3⟩, ⟨3, sevenBytes 4⟩]

def sevenNonces (i : UInt16) : ErgoThresholdSigningNonces :=
  let commitments : ErgoThresholdCommitments :=
    ⟨i, .replicate 1, sevenCurve.pointBytes (1 : ZMod 7), sevenCurve.pointBytes (1 : ZMod 7)⟩
  ⟨i, sevenBytes 1, sevenBytes 1, commitments, ⟨.replicate 1, i, .zeros, commitments⟩⟩

/-- The third and the first participant sign a message. -/
theorem threshold_schnorr_correct_seven :
    dealerSplitThresholdSecret sevenCurve (sevenBytes 1) (sevenBytes 1) = .ok sevenOut ∧
      ∃ package, newSigningPackage sevenCurve sevenOut.commitment sevenReview (.replicate 1) [1, 2]
          [(sevenNonces 3).commitments, (sevenNonces 1).commitments] = .ok package ∧
        Completes sevenCurve openGuard sevenOut ⟨3, sevenBytes 4⟩ ⟨1, sevenBytes 2⟩
          (sevenNonces 3) (sevenNonces 1) sevenReview package := by
  have hsplit : dealerSplitThresholdSecret sevenCurve (sevenBytes 1) (sevenBytes 1) =
      .ok sevenOut := by decide +kernel
  have hthird : (⟨3, sevenBytes 4⟩ : ErgoThresholdSecretShare) ∈ sevenOut.shares := by decide
  have hfirst : (⟨1, sevenBytes 2⟩ : ErgoThresholdSecretShare) ∈ sevenOut.shares := by decide
  have hone : (1 : sevenCurve.Scalar) ≠ 0 := by decide
  have hnonces : ∀ i scalar, IsParticipant i → generateThresholdNonces sevenCurve openGuard
      ⟨i, scalar⟩ (.replicate 1) 1 1 () = (.ok (sevenNonces i), ()) := by
    intro i _ hi
    rcases isParticipant_cases hi with rfl | rfl | rfl <;> rfl
  obtain ⟨package, hpackage, -, hcompletes⟩ := threshold_schnorr_correct hsplit hthird hfirst
    (by decide) hone hone hone hone (hnonces 3 _ ⟨by decide, by decide⟩)
    (hnonces 1 _ ⟨by decide, by decide⟩) sevenReview [1, 2] (by decide +kernel)
  exact ⟨hsplit, package, hpackage, hcompletes⟩

end Catomicals.ChainErgo
