import Catomicals.ThresholdSigner.DeviceRegistry
import Catomicals.ThresholdSigner.Orchestrator

/-!
# What the digests of the signer bind

The bytes that a registration and an audit event are hashed from determine all their fields but one
kind: an absent value has the bytes of a present one.
-/
namespace Catomicals.ThresholdSigner

open Base WalletStorage AuditEvent ThresholdSessionMachine SignerDeviceRegistry List

lemma prefixFree_providerCode : PrefixFree fun k : SignerProviderKind => [k.code] := by
  intro a b h
  cases a <;> cases b <;> first | rfl | exact absurd h (by decide)

section

variable {challenge challenge' : DeviceRegistrationChallenge}
  {proof proof' : DeviceRegistrationProof} {key key' : Bytes32} {spki spki' : Option Bytes32}

theorem registrationPreimage_eq_iff (hexpires : IsI64 challenge.expiresAt)
    (hexpires' : IsI64 challenge'.expiresAt) :
    registrationPreimage challenge proof key spki =
        registrationPreimage challenge' proof' key' spki' ↔
      challenge = challenge' ∧ proof.deviceId = proof'.deviceId ∧
        proof.provider = proof'.provider ∧ key = key' ∧
        (spki = spki' ∨ Confused .zeros spki spki') := by
  obtain ⟨⟩ := challenge
  obtain ⟨⟩ := challenge'
  simp only [registrationPreimage, append_assoc, append_cancel_left_eq,
    prefixFree_uuid.append_iff, prefixFree_u64.append_iff, prefixFree_u16.append_iff,
    prefixFree_bytes32.append_iff, i64_append hexpires hexpires',
    prefixFree_providerCode.append_iff, prefixFree_bytes32.inj, getD_eq_getD_iff,
    DeviceRegistrationChallenge.mk.injEq, and_assoc]

/-- The preimage tells registrations apart, unless one has no certificate digest, the other zeros,
and all else is equal. -/
theorem registrationPreimage_binds_iff (hexpires : IsI64 challenge.expiresAt)
    (hexpires' : IsI64 challenge'.expiresAt) :
    (registrationPreimage challenge proof key spki =
        registrationPreimage challenge' proof' key' spki' →
      challenge = challenge' ∧ proof.deviceId = proof'.deviceId ∧
        proof.provider = proof'.provider ∧ key = key' ∧ spki = spki') ↔
    ¬(challenge = challenge' ∧ proof.deviceId = proof'.deviceId ∧
      proof.provider = proof'.provider ∧ key = key' ∧ Confused .zeros spki spki') := by
  rw [registrationPreimage_eq_iff hexpires hexpires']
  constructor
  · rintro hbinds ⟨hchal, hdevice, hprov, hkey, hconf⟩
    exact hconf.ne (hbinds ⟨hchal, hdevice, hprov, hkey, .inr hconf⟩).2.2.2.2
  · rintro hconf ⟨hchal, hdevice, hprov, hkey, hspki⟩
    exact ⟨hchal, hdevice, hprov, hkey,
      hspki.resolve_right fun h => hconf ⟨hchal, hdevice, hprov, hkey, h⟩⟩

end

/-- The registrations with no certificate digest and with one of zeros. -/
theorem registrationPreimage_absent_zeros :
    registrationPreimage ⟨0, 0, 0, 1, 1, .zeros, 0⟩ ⟨0, 1, .remoteMtls, "", none, "", none⟩ .zeros
        none =
      registrationPreimage ⟨0, 0, 0, 1, 1, .zeros, 0⟩ ⟨0, 1, .remoteMtls, "", none, "", none⟩ .zeros
        (some .zeros) := rfl

theorem registrationPreimage_binds_present :
    registrationPreimage ⟨0, 0, 0, 1, 1, .zeros, 0⟩ ⟨0, 1, .remoteMtls, "", none, "", none⟩ .zeros
        (some .zeros) ≠
      registrationPreimage ⟨0, 0, 0, 1, 1, .zeros, 0⟩ ⟨0, 1, .remoteMtls, "", none, "", none⟩
        .zeros (some (.replicate 1)) := by
  intro h
  have hspki := ((registrationPreimage_binds_iff (by simp [IsI64]) (by simp [IsI64])).mpr
    (by simp [Confused]) h).2.2.2.2
  exact absurd hspki (by decide)

def AuditEvent.preimage (e : AuditEvent) : Bytes :=
  auditPreimage e.sequence e.time e.kind e.signerId e.code e.previousDigest

/-- They differ at most in an absent signer for signer 0 and an absent code for the empty one. -/
def AuditEvent.HashedAlike (e e' : AuditEvent) : Prop :=
  e.sequence = e'.sequence ∧ e.time = e'.time ∧ e.kind = e'.kind ∧
    e.previousDigest = e'.previousDigest ∧
    (e.signerId = e'.signerId ∨ Confused 0 e.signerId e'.signerId) ∧
    (e.code = e'.code ∨ Confused "" e.code e'.code)

lemma prefixFree_kindCode : PrefixFree fun k : AuditEventKind => [k.code] := by
  intro a b h
  cases a <;> cases b <;> first | rfl | exact absurd h (by decide)

lemma AuditEvent.preimage_eq_iff {e e' : AuditEvent} (htime : IsI64 e.time)
    (htime' : IsI64 e'.time) : e.preimage = e'.preimage ↔ e.HashedAlike e' := by
  simp only [preimage, auditPreimage, timeBytes, append_assoc, append_cancel_left_eq,
    prefixFree_bytes32.append_iff, prefixFree_u64.append_iff, i64_append htime htime',
    prefixFree_kindCode.append_iff, prefixFree_u16.append_iff, getD_eq_getD_iff]
  -- the code stands last, so its bytes are known even where their length does not fit
  have hcode {c c' : String} :
      beBytes 4 (c.toUTF8.toList.length % 2 ^ 32) ++ c.toUTF8.toList =
        beBytes 4 (c'.toUTF8.toList.length % 2 ^ 32) ++ c'.toUTF8.toList ↔ c = c' :=
    ⟨fun h => utf8_inj.mp (append_inj h (by simp)).2, fun h => h ▸ rfl⟩
  rw [hcode, getD_eq_getD_iff, HashedAlike]
  tauto

lemma AuditEvent.HashedAlike.eq {e e' : AuditEvent} (h : e.HashedAlike e')
    (hsigner : e.signerId = e'.signerId) (hcode : e.code = e'.code) :
    e' = { e with eventDigest := e'.eventDigest } := by
  obtain ⟨hseqn, htime, hkind, hprev, -, -⟩ := h
  simp only [hseqn, htime, hkind, hprev, hsigner, hcode]

/-- Two events are told apart by their preimages, and neither can replace the other in an audit
stream under the same head, unless they are different events hashed alike. -/
theorem audit_unambiguous_iff (e e' : AuditEvent) (htime : IsI64 e.time)
    (htime' : IsI64 e'.time) :
    ((e.preimage = e'.preimage → e' = { e with eventDigest := e'.eventDigest }) ∧
      ∀ (F : FrostSuite) (m m' : ThresholdSessionMachine F) (before after : List AuditEvent),
        (F.sha256 e.preimage = F.sha256 e'.preimage → e.preimage = e'.preimage) →
        m.audit = before ++ e :: after → m'.audit = before ++ e' :: after →
        m.verifyAuditChain = true → m'.verifyAuditChain = true → m.auditHead = m'.auditHead →
          e = e') ↔
      ¬(e.HashedAlike e' ∧ (e.signerId ≠ e'.signerId ∨ e.code ≠ e'.code)) := by
  constructor
  · rintro ⟨htold, -⟩ ⟨halike, hdiff⟩
    have heq := htold ((preimage_eq_iff htime htime').mpr halike)
    rw [heq] at hdiff
    simp at hdiff
  · intro hdiff
    have htold : e.preimage = e'.preimage → e' = { e with eventDigest := e'.eventDigest } := by
      intro h
      have halike := (preimage_eq_iff htime htime').mp h
      exact halike.eq (by_contra fun hne => hdiff ⟨halike, .inl hne⟩)
        (by_contra fun hne => hdiff ⟨halike, .inr hne⟩)
    refine ⟨htold, ?_⟩
    intro F m _ _ _ hcoll haudit haudit' hverify hverify' hhead
    simp only [verifyAuditChain, auditHead, haudit, haudit'] at hverify hverify' hhead
    obtain ⟨hdig, d, ⟨hprev, hsealed⟩, hprev', hsealed'⟩ :=
      (auditLinking F).follows_of_replaced hverify hverify' hhead
    have hsame : F.sha256 e.preimage = F.sha256 e'.preimage := by
      obtain rfl : e.previousDigest = d := hprev
      obtain hprev' : e'.previousDigest = e.previousDigest := hprev'
      rw [preimage, preimage, hprev']
      exact hsealed.symm.trans (hdig.trans hsealed')
    rw [htold (hcoll hsame)]
    obtain hdig : e.eventDigest = e'.eventDigest := hdig
    rw [← hdig]

/-- A suite whose hash is the length of the text. -/
def lengthSuite : FrostSuite :=
  { openSuite with sha256 := fun text => .replicate (.ofNat text.length) }

def acceptedEvent : AuditEvent :=
  ⟨1, 0, .commitmentAccepted, some 1, none, .zeros, .replicate 81⟩

/-- A machine with one event in its audit stream. -/
def auditedMachine (event : AuditEvent) : ThresholdSessionMachine lengthSuite :=
  ⟨.zeros, .zeros, .zeros, 1, 10, .collectingCommitments, ⟨.empty, ()⟩, .empty, .empty, none,
    .empty, [event]⟩

/-- An accepted commitment and the same event with a code have streams that verify, with different
heads. -/
theorem audit_unambiguous_code :
    let coded := { acceptedEvent with code := some "x", eventDigest := .replicate 82 }
    (auditedMachine acceptedEvent).verifyAuditChain = true ∧
      (auditedMachine coded).verifyAuditChain = true ∧ acceptedEvent.preimage ≠ coded.preimage ∧
      (auditedMachine acceptedEvent).auditHead ≠ (auditedMachine coded).auditHead := by
  intro coded
  have hverify : (auditedMachine acceptedEvent).verifyAuditChain = true := by decide +kernel
  have hverify' : (auditedMachine coded).verifyAuditChain = true := by decide +kernel
  obtain ⟨htold, hreplace⟩ := (audit_unambiguous_iff acceptedEvent coded
    (by simp [IsI64, acceptedEvent]) (by simp [IsI64, coded, acceptedEvent])).mpr
    (by simp [HashedAlike, Confused, coded, acceptedEvent])
  refine ⟨hverify, hverify', fun h => absurd (htold h) (by decide), fun hhead => ?_⟩
  have heq := hreplace lengthSuite (auditedMachine acceptedEvent) (auditedMachine coded) [] []
    (fun h => absurd h (by decide +kernel)) rfl rfl hverify hverify' hhead
  exact absurd heq (by decide)

/-- The event with no signer and code, and the one with signer 0 and an empty code. -/
theorem audit_ambiguous_defaults :
    AuditEvent.preimage ⟨1, 0, .sessionAborted, none, none, .zeros, .zeros⟩ =
      AuditEvent.preimage ⟨1, 0, .sessionAborted, some 0, some "", .zeros, .zeros⟩ := rfl

end Catomicals.ThresholdSigner
