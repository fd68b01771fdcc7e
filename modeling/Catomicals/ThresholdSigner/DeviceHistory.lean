import Catomicals.ThresholdSigner.DeviceRegistry

/-!
# Histories of signer devices

What the calls of a registry can do to the device of a signer, and what follows for histories from
an arbitrary registry: generations count registrations, and no request is authorized twice.
-/
namespace Catomicals.ThresholdSigner

open Base WalletStorage Table Method List

variable {signerId : UInt16} {challenge : DeviceRegistrationChallenge}
  {request : Option SignerRequestContext}

namespace SignerDeviceRegistry

variable {P : RegistryPlatform} {r r' : SignerDeviceRegistry}

/-- A public call, with the random values that it draws. -/
inductive Call where
  | issueRegistrationChallenge (signerId : UInt16) (now ttlSeconds : Time) (challengeId : Uuid)
      (nonce : Bytes32)
  | register (proof : DeviceRegistrationProof) (now : Time)
  | revoke (signerId : UInt16) (expectedDeviceId : Uuid) (expectedGeneration : UInt64)
      (now : Time)
  | authorizeRequest (context : SignerRequestContext) (presentedSpkiSha256 : Option Bytes32)
      (now : Time)
  | markUnavailable (signerId : UInt16) (expectedDeviceId : Uuid) (expectedGeneration : UInt64)
      (errorCode : String) (now : Time)

section Runs

variable (P)

def step (r : SignerDeviceRegistry) : Call → SignerDeviceRegistry
  | .issueRegistrationChallenge signerId now ttlSeconds challengeId nonce =>
    (issueRegistrationChallenge P signerId now ttlSeconds challengeId nonce r).2
  | .register proof now => (register P proof now r).2
  | .revoke signerId expectedDeviceId expectedGeneration now =>
    (revoke signerId expectedDeviceId expectedGeneration now r).2
  | .authorizeRequest context presentedSpkiSha256 now =>
    (authorizeRequest P context presentedSpkiSha256 now r).2
  | .markUnavailable signerId expectedDeviceId expectedGeneration errorCode now =>
    (markUnavailable signerId expectedDeviceId expectedGeneration errorCode now r).2

def run (r : SignerDeviceRegistry) (calls : List Call) : SignerDeviceRegistry :=
  calls.foldl (step P) r

def registered (r : SignerDeviceRegistry) : Call → Option SignerDeviceRecord
  | .register proof now => (register P proof now r).1.toOption
  | _ => none

def authorized (r : SignerDeviceRegistry) : Call → Option SignerRequestContext
  | .authorizeRequest context presentedSpkiSha256 now =>
    (authorizeRequest P context presentedSpkiSha256 now r).1.toOption.map fun _ => context
  | _ => none

def registrations (r : SignerDeviceRegistry) (signerId : UInt16) : List Call → ℕ
  | [] => 0
  | c :: rest =>
    (if (r.registered P c).any (·.signerId = signerId) then 1 else 0) +
      (r.step P c).registrations signerId rest

def requestTriple (context : SignerRequestContext) : Uuid × UInt64 × Bytes32 :=
  (context.deviceId, context.deviceGeneration, context.requestNonce)

def authorizations (r : SignerDeviceRegistry) : List Call → List (Uuid × UInt64 × Bytes32)
  | [] => []
  | c :: rest => ((r.authorized P c).map requestTriple).toList ++
      (r.step P c).authorizations rest

end Runs

/-- The two records are of the same device in the same generation. -/
structure SameDevice (record record' : SignerDeviceRecord) : Prop where
  generation : record'.generation = record.generation
  deviceId : record'.deviceId = record.deviceId
  identityPublicKeyHex : record'.identityPublicKeyHex = record.identityPublicKeyHex
  provider : record'.provider = record.provider

lemma SameDevice.refl (record : SignerDeviceRecord) : SameDevice record record :=
  ⟨rfl, rfl, rfl, rfl⟩

lemma SameDevice.trans {a b c : SignerDeviceRecord} (hab : SameDevice a b)
    (hbc : SameDevice b c) : SameDevice a c :=
  ⟨hbc.generation.trans hab.generation, hbc.deviceId.trans hab.deviceId,
    hbc.identityPublicKeyHex.trans hab.identityPublicKeyHex, hbc.provider.trans hab.provider⟩

/-- The changes of the devices and consumed request nonces, with what is registered or
authorized. -/
inductive Effect (P : RegistryPlatform) (r r' : SignerDeviceRegistry) :
    Option SignerDeviceRecord → Option SignerRequestContext → Prop
  | kept (devices : r'.devices = r.devices)
      (consumed : r'.consumedRequestNonces = r.consumedRequestNonces) : Effect P r r' none none
  | updated {signerId record record'}
      (found : r.devices.get signerId = some record) (same : SameDevice record record')
      (status : record'.status = record.status ∨ record'.status = .revoked)
      (devices : r'.devices = r.devices.put signerId record')
      (consumed : r'.consumedRequestNonces = r.consumedRequestNonces) : Effect P r r' none none
  | registered {current record} (found : r.devices.get record.signerId = some current)
      (live : current.status ≠ .revoked)
      (next : nextGeneration P current.generation = .ok record.generation)
      (devices : r'.devices = r.devices.put record.signerId record)
      (consumed : r'.consumedRequestNonces = r.consumedRequestNonces) :
      Effect P r r' (some record) none
  | authorized {context record record'}
      (found : r.devices.get context.signerId = some record) (active : record.status = .active)
      (same : SameDevice record record') (status : record'.status = record.status)
      (devices : r'.devices = r.devices.put context.signerId record')
      (fresh : requestTriple context ∉ r.consumedRequestNonces)
      (consumed : r'.consumedRequestNonces =
        insert (requestTriple context) r.consumedRequestNonces) :
      Effect P r r' none (some context)

lemma issueRegistrationChallenge_wp {now ttlSeconds : Time} {challengeId : Uuid} {nonce : Bytes32} :
    (issueRegistrationChallenge P signerId now ttlSeconds challengeId nonce).wp
      (fun _ r' => Effect P r r' none none) r := by
  simp only [issueRegistrationChallenge, nextGeneration, wp_iff]
  refine ⟨fun _ => ⟨fun record _ => ⟨fun generation _ => ⟨?_, ?_⟩, ?_⟩, ?_⟩, ?_⟩ <;>
    intros <;> exact .kept rfl rfl

/-- The signature in hexadecimal is one of the key in hexadecimal over the digest. -/
def SignedBy (P : RegistryPlatform) (keyHex signatureHex : String) (digest : Bytes32) : Prop :=
  ∃ publicKey signature, parseHex32 P keyHex = .ok publicKey ∧
    parseHex64 P signatureHex = .ok signature ∧
    P.verifySchnorr signature digest publicKey = true

variable {proof : DeviceRegistrationProof} {now : Time}

lemma verifyDigest_signedBy {keyHex signatureHex : String} {spki : Option Bytes32}
    (h : verifyDigest P keyHex signatureHex challenge proof spki = .ok ()) :
    ∃ digest, registrationDigest P challenge proof spki = .ok digest ∧
      SignedBy P keyHex signatureHex digest := by
  simp only [verifyDigest, ok_iff] at h
  obtain ⟨publicKey, hkey, -, signature, hsig, -, digest, hdig, hver⟩ := h
  exact ⟨digest, hdig, publicKey, signature, hkey, hsig, hver⟩

/-- The proof is signed by the new device and the current one, over one registration digest. -/
def RotationAuthorized (P : RegistryPlatform) (r : SignerDeviceRegistry)
    (current : SignerDeviceRecord) (proof : DeviceRegistrationProof) : Prop :=
  ∃ challenge certificate digest currentKey signatureHex,
    r.challenges.get proof.challengeId = some challenge ∧
    registrationDigest P challenge proof certificate = .ok digest ∧
    current.identityPublicKeyHex = some currentKey ∧
    proof.previousDeviceSignatureHex = some signatureHex ∧
    SignedBy P proof.identityPublicKeyHex proof.signatureHex digest ∧
    SignedBy P currentKey signatureHex digest

lemma register_wp :
    (register P proof now).wp (fun x r' => Effect P r r' x.toOption none ∧
      ∀ record, x = .ok record → ∀ current, r.devices.get record.signerId = some current →
        current.status = .active → RotationAuthorized P r current proof) r := by
  have hrefused : ∀ (e : Fault ProviderError) (r' : SignerDeviceRegistry),
      r'.devices = r.devices → r'.consumedRequestNonces = r.consumedRequestNonces →
      Effect P r r' (Except.error e : Except _ SignerDeviceRecord).toOption none ∧
        ∀ record, (Except.error e : Except _ SignerDeviceRecord) = .ok record →
          ∀ current, r.devices.get record.signerId = some current → current.status = .active →
            RotationAuthorized P r current proof :=
    fun e r' hdevs hcons => ⟨.kept hdevs hcons, fun _ h => by cases h⟩
  simp only [register, wp_iff]
  refine ⟨fun challenge hchal => ⟨fun _ => ⟨fun certificate _ => ⟨fun current hcur => ?_,
    ?_⟩, ?_⟩, ?_⟩, ?_⟩
  · rw [wp_lift]
    cases hnext : nextGeneration P current.generation with
    | error e => exact hrefused e _ rfl rfl
    | ok =>
      refine ⟨fun hgen => ⟨fun hlive => ⟨fun _ hproofs => ?_, ?_⟩, ?_⟩, ?_⟩
      · refine ⟨.registered hcur hlive (by rw [hnext, ← hgen]; rfl) rfl rfl, ?_⟩
        intro _ hrec _ hcur' hact
        obtain rfl := Except.ok.inj hrec
        cases hcur.symm.trans hcur'
        simp only [verifyProofs, verifyRotationAuthorization, ok_iff, hact, if_true] at hproofs
        obtain ⟨hnew, currentKey, hkey, signatureHex, hsig, hold⟩ := hproofs
        obtain ⟨digest, hdig, hsigned⟩ := verifyDigest_signedBy hnew
        obtain ⟨digest', hdig', hsigned'⟩ := verifyDigest_signedBy hold
        obtain rfl : digest = digest' := Except.ok.inj (hdig.symm.trans hdig')
        exact ⟨_, _, digest, currentKey, signatureHex, hchal, hdig, hkey, hsig, hsigned, hsigned'⟩
      all_goals
        intros
        exact hrefused _ _ rfl rfl
  all_goals
    intros
    exact hrefused _ _ rfl rfl

lemma revoke_wp {expectedDeviceId : Uuid} {expectedGeneration : UInt64} :
    (revoke signerId expectedDeviceId expectedGeneration now).wp
      (fun _ r' => Effect P r r' none none) r := by
  simp only [revoke, wp_iff]
  refine ⟨fun record hrec => ⟨fun _ => ⟨fun _ => ?_, fun _ => .kept rfl rfl⟩,
    fun _ => .kept rfl rfl⟩, fun _ => .kept rfl rfl⟩
  refine .updated hrec ?_ (.inr ?_) rfl rfl
  · exact ⟨rfl, rfl, rfl, rfl⟩
  · rfl

lemma markUnavailable_wp {expectedDeviceId : Uuid} {expectedGeneration : UInt64}
    {errorCode : String} :
    (markUnavailable signerId expectedDeviceId expectedGeneration errorCode now).wp
      (fun _ r' => Effect P r r' none none) r := by
  simp only [markUnavailable, wp_iff]
  refine ⟨fun record hrec => ⟨fun _ => ?_, fun _ => .kept rfl rfl⟩, fun _ => .kept rfl rfl⟩
  refine .updated hrec ?_ (.inl ?_) rfl rfl
  · exact ⟨rfl, rfl, rfl, rfl⟩
  · rfl

variable {context : SignerRequestContext}

lemma authorizeRequest_wp {presented : Option Bytes32} :
    (authorizeRequest P context presented now).wp
      (fun x r' => Effect P r r' none (x.toOption.map fun _ => context)) r := by
  simp only [authorizeRequest, wp_iff]
  refine ⟨fun _ => ⟨fun _ => ⟨fun record hrec => ⟨fun _ hact => ⟨fun _ =>
    ⟨fun spki _ => ⟨fun _ => ⟨fun hfresh => ?_, ?_⟩, ?_⟩, ?_⟩, ?_⟩, ?_⟩, ?_⟩, ?_⟩, ?_⟩
  · refine .authorized hrec ?_ ?_ ?_ rfl hfresh rfl
    · cases hstat : record.status <;> simp [hstat, requireActive] at hact ⊢
    · exact ⟨rfl, rfl, rfl, rfl⟩
    · rfl
  all_goals
    intros
    exact .kept rfl rfl

lemma step_effect (P : RegistryPlatform) (r : SignerDeviceRegistry) (c : Call) :
    Effect P r (r.step P c) (r.registered P c) (r.authorized P c) := by
  cases c with
  | issueRegistrationChallenge =>
    exact issueRegistrationChallenge_wp
  | register => exact register_wp.1
  | revoke => exact revoke_wp
  | authorizeRequest => exact authorizeRequest_wp
  | markUnavailable =>
    exact markUnavailable_wp

/-- A signer's record goes to the next generation, or its device stays and may become revoked. -/
inductive Develops (P : RegistryPlatform) (signerId : UInt16)
    (record record' : SignerDeviceRecord) : Option SignerDeviceRecord → Prop
  | kept {registered}
      (other : registered.any (·.signerId = signerId) = false) (same : SameDevice record record')
      (status : record'.status = record.status ∨ record'.status = .revoked) :
      Develops P signerId record record' registered
  | replaced (own : record'.signerId = signerId) (live : record.status ≠ .revoked)
      (next : nextGeneration P record.generation = .ok record'.generation) :
      Develops P signerId record record' (some record')

variable {record : SignerDeviceRecord}

lemma develops_of_put {written : UInt16} {new : SignerDeviceRecord}
    (h : r.devices.get signerId = some record) (hne : signerId ≠ written)
    (hdevs : r'.devices = r.devices.put written new) {registered : Option SignerDeviceRecord}
    (hother : registered.any (·.signerId = signerId) = false) :
    ∃ record', r'.devices.get signerId = some record' ∧
      Develops P signerId record record' registered := by
  refine ⟨record, ?_, .kept hother (.refl record) (.inl rfl)⟩
  rw [hdevs, get_put, if_neg hne, h]

lemma Effect.develops {new : Option SignerDeviceRecord} (heff : Effect P r r' new request)
    (h : r.devices.get signerId = some record) :
    ∃ record', r'.devices.get signerId = some record' ∧ Develops P signerId record record' new := by
  cases heff with
  | kept devices =>
    exact ⟨record, by rw [devices, h], .kept rfl (.refl record) (.inl rfl)⟩
  | @updated written old new found same status devices =>
    by_cases hs : signerId = written
    · obtain rfl : record = old := by
        rw [hs, found] at h
        exact (Option.some.inj h).symm
      refine ⟨new, ?_, .kept rfl same status⟩
      rw [devices, get_put, if_pos hs]
    · exact develops_of_put h hs devices rfl
  | @registered current new found live next devices =>
    by_cases hs : signerId = new.signerId
    · obtain rfl : record = current := by
        rw [hs, found] at h
        exact (Option.some.inj h).symm
      refine ⟨new, ?_, .replaced hs.symm live next⟩
      rw [devices, get_put, if_pos hs]
    · exact develops_of_put h hs devices (by simpa using fun heq => hs heq.symm)
  | @authorized context old new found _ same status devices =>
    by_cases hs : signerId = context.signerId
    · obtain rfl : record = old := by
        rw [hs, found] at h
        exact (Option.some.inj h).symm
      refine ⟨new, ?_, .kept rfl same (.inl status)⟩
      rw [devices, get_put, if_pos hs]
    · exact develops_of_put h hs devices rfl

lemma Develops.revoked {record' : SignerDeviceRecord} {new : Option SignerDeviceRecord}
    (h : Develops P signerId record record' new) (hrev : record.status = .revoked) :
    record'.status = .revoked := by
  cases h with
  | kept _ _ status =>
    rcases status with hkept | hrev'
    · rw [hkept, hrev]
    · exact hrev'
  | replaced _ live => exact absurd hrev live

/-- The counters have room for the next registration, or the build checks for overflow. -/
def Ample (P : RegistryPlatform) (r : SignerDeviceRegistry) : Prop :=
  P.overflowChecks = true ∨ ∀ signerId record, r.devices.get signerId = some record →
    record.generation.toNat + 1 < 2 ^ 64

/-- No call of the run finds a counter at its end. -/
def Unwrapped (P : RegistryPlatform) : SignerDeviceRegistry → List Call → Prop
  | _, [] => True
  | r, c :: rest => Ample P r ∧ Unwrapped P (r.step P c) rest

lemma toNat_nextGeneration {generation next : UInt64}
    (hroom : P.overflowChecks = true ∨ generation.toNat + 1 < 2 ^ 64)
    (h : nextGeneration P generation = .ok next) : next.toNat = generation.toNat + 1 := by
  unfold nextGeneration addU64 at h
  rw [UInt64.toNat_one] at h
  split_ifs at h with hover
  · cases h
  · obtain rfl := Except.ok.inj h
    have hlt : generation.toNat + 1 < 2 ^ 64 := by
      rcases hroom with hchecks | hlt
      · by_contra hge
        exact hover ⟨hchecks, by omega⟩
      · exact hlt
    rw [UInt64.toNat_add, UInt64.toNat_one, Nat.mod_eq_of_lt hlt]

/-- The generation counts the signer's registrations, and a device stays as long as it does. -/
lemma run_generation (calls : List Call) (hcalls : Unwrapped P r calls)
    (h : r.devices.get signerId = some record) :
    ∃ record', (r.run P calls).devices.get signerId = some record' ∧
      record'.generation.toNat = record.generation.toNat + r.registrations P signerId calls ∧
      (r.registrations P signerId calls = 0 → SameDevice record record') := by
  induction calls generalizing r record with
  | nil => exact ⟨record, h, rfl, fun _ => .refl record⟩
  | cons c _ ih =>
    obtain ⟨next, hnext, hdevelops⟩ := (step_effect P r c).develops h
    obtain ⟨last, hlast, hcount, hsame⟩ := ih hcalls.2 hnext
    refine ⟨last, hlast, ?_⟩
    rw [registrations]
    cases hreg : r.registered P c with
    | none =>
      rw [hreg] at hdevelops
      cases hdevelops with
      | kept _ same =>
        simp only [Option.any_none, Bool.false_eq_true, if_false, zero_add]
        exact ⟨by rw [hcount, same.generation], fun hzero => same.trans (hsame hzero)⟩
    | some =>
      rw [hreg] at hdevelops
      cases hdevelops with
      | kept other same =>
        simp only [other, Bool.false_eq_true, if_false, zero_add]
        exact ⟨by rw [hcount, same.generation], fun hzero => same.trans (hsame hzero)⟩
      | replaced own _ hgen =>
        have hroom : P.overflowChecks = true ∨ record.generation.toNat + 1 < 2 ^ 64 :=
          hcalls.1.imp id fun hroom => hroom signerId record h
        have hsucc := toNat_nextGeneration hroom hgen
        simp only [Option.any_some, own, decide_true, if_true]
        refine ⟨by omega, fun hzero => by omega⟩

lemma run_revoked (calls : List Call) (h : r.devices.get signerId = some record)
    (hrev : record.status = .revoked) :
    ∃ record', (r.run P calls).devices.get signerId = some record' ∧ record'.status = .revoked := by
  induction calls generalizing r record with
  | nil => exact ⟨record, h, hrev⟩
  | cons c _ ih =>
    obtain ⟨next, hnext, hdevelops⟩ := (step_effect P r c).develops h
    exact ih hnext (hdevelops.revoked hrev)

lemma not_registered_of_revoked (c : Call) (h : r.devices.get signerId = some record)
    (hrev : record.status = .revoked) {new : SignerDeviceRecord}
    (hnew : r.registered P c = some new) : new.signerId ≠ signerId := by
  intro hs
  have heff := step_effect P r c
  rw [hnew] at heff
  generalize r.authorized P c = request at heff
  cases heff with
  | @registered _ _ found live =>
    rw [hs, h] at found
    cases found
    exact live hrev

lemma not_authorized_of_revoked (c : Call) (h : r.devices.get signerId = some record)
    (hrev : record.status = .revoked)
    (hctx : r.authorized P c = some context) : context.signerId ≠ signerId := by
  intro hs
  have heff := step_effect P r c
  rw [hctx] at heff
  generalize r.registered P c = new at heff
  cases heff with
  | @authorized _ _ _ found active =>
    rw [hs, h] at found
    cases found
    simp [hrev] at active

lemma Effect.consumes {new : Option SignerDeviceRecord} (heff : Effect P r r' new request) :
    r'.consumedRequestNonces =
        (request.map requestTriple).toList.toFinset ∪ r.consumedRequestNonces ∧
      ∀ triple ∈ (request.map requestTriple).toList, triple ∉ r.consumedRequestNonces := by
  cases heff with
  | kept _ consumed | updated _ _ _ _ consumed | registered _ _ _ _ consumed =>
    exact ⟨by simp [consumed], by simp⟩
  | @authorized context _ _ _ _ _ _ _ fresh consumed =>
    refine ⟨by simp [consumed], ?_⟩
    intro triple htriple
    obtain rfl : triple = requestTriple context := by simpa using htriple
    exact fresh

lemma authorizations_nodup (P : RegistryPlatform) (r : SignerDeviceRegistry) (calls : List Call) :
    (r.authorizations P calls).Nodup ∧
      ∀ triple ∈ r.authorizations P calls, triple ∉ r.consumedRequestNonces := by
  induction calls generalizing r with
  | nil => exact ⟨nodup_nil, by simp [authorizations]⟩
  | cons c _ ih =>
    obtain ⟨hrest, hlater⟩ := ih (r.step P c)
    obtain ⟨hcons, hfresh⟩ := (step_effect P r c).consumes
    have hnow : ((r.authorized P c).map requestTriple).toList.Nodup := by
      cases r.authorized P c <;> simp
    rw [authorizations]
    constructor
    · rw [nodup_append]
      refine ⟨hnow, hrest, ?_⟩
      intro a ha b hb hab
      apply hlater b hb
      rw [hcons, Finset.mem_union, mem_toFinset, ← hab]
      exact .inl ha
    · intro triple htriple
      rcases mem_append.mp htriple with hnew | hold
      · exact hfresh triple hnew
      · intro hmem
        apply hlater triple hold
        rw [hcons]
        exact Finset.mem_union_right _ hmem

/-- From whatever state: as long as no generation counter wraps around, generations count
registrations and each belongs to one device; a revoked signer is never registered or authorized
again; an active device is only replaced with its signature over the registration digest; and no
request is authorized twice. -/
theorem run_device_history (P : RegistryPlatform) (r : SignerDeviceRegistry) (calls : List Call) :
    (Unwrapped P r calls → ∀ signerId record, r.devices.get signerId = some record →
      ∃ record', (r.run P calls).devices.get signerId = some record' ∧
        record'.generation.toNat = record.generation.toNat + r.registrations P signerId calls ∧
        (record'.generation = record.generation → SameDevice record record')) ∧
      (∀ signerId record, r.devices.get signerId = some record → record.status = .revoked →
        ∀ c, (∀ new, (r.run P calls).registered P c = some new → new.signerId ≠ signerId) ∧
          ∀ context, (r.run P calls).authorized P c = some context → context.signerId ≠ signerId) ∧
      (∀ proof now new current, (register P proof now (r.run P calls)).1 = .ok new →
        (r.run P calls).devices.get new.signerId = some current → current.status = .active →
        RotationAuthorized P (r.run P calls) current proof) ∧
      (r.authorizations P calls).Nodup := by
  refine ⟨?_, ?_, ?_, (authorizations_nodup P r calls).1⟩
  · intro hcalls signerId record hrec
    obtain ⟨record', hget, hcount, hsame⟩ := run_generation calls hcalls hrec
    refine ⟨record', hget, hcount, ?_⟩
    intro hgen
    apply hsame
    rw [hgen] at hcount
    omega
  · intro _ _ hrec hrev c
    obtain ⟨record', hget, hrev'⟩ := run_revoked (P := P) calls hrec hrev
    exact ⟨fun new hnew => not_registered_of_revoked c hget hrev' hnew,
      fun context hctx => not_authorized_of_revoked c hget hrev' hctx⟩
  · intro _ _ new current hnew hcur hact
    exact register_wp.2 new hnew current hcur hact

def uncheckedPlatform : RegistryPlatform where
  sha256 := fun _ => .zeros
  decodeHex := fun text =>
    if text = "key" then some (replicate 32 0)
    else if text = "sig" then some (replicate 64 0) else none
  encodeHex := fun _ => ""
  isXOnly := fun _ => true
  isSignature := fun _ => true
  verifySchnorr := fun _ _ _ => true
  overflowChecks := false

def rotationProof : DeviceRegistrationProof := ⟨7, 9, .hsmAdapter, "key", none, "sig", some "sig"⟩

def rotation : List Call :=
  [.issueRegistrationChallenge 1 0 10 7 .zeros, .register rotationProof 1]

def rotations : ℕ → List Call
  | 0 => []
  | n + 1 => rotations n ++ rotation

def Rotatable (r : SignerDeviceRegistry) (generation : UInt64) : Prop :=
  ∃ record, r.devices.get 1 = some record ∧ record.generation = generation ∧
    (record.status = .unconfigured ∨
      record.status = .active ∧ record.identityPublicKeyHex = some "key")

lemma issue_rotation (h : r.devices.get 1 = some record) :
    (issueRegistrationChallenge uncheckedPlatform 1 0 10 7 .zeros).wp (fun _ r' =>
      r'.devices = r.devices ∧ r'.challenges.get 7 = some
        ⟨7, r'.signerSetId, r'.signerEpoch, 1, record.generation + 1, .zeros, 10⟩) r := by
  simp [issueRegistrationChallenge, nextGeneration, addU64, uncheckedPlatform, checkedAddTime, h,
    wp_lift, require, orError]

lemma register_rotation (h : r.devices.get 1 = some record)
    (hstat : record.status = .unconfigured ∨
      record.status = .active ∧ record.identityPublicKeyHex = some "key")
    (hchal : r.challenges.get 7 = some
      ⟨7, r.signerSetId, r.signerEpoch, 1, record.generation + 1, .zeros, 10⟩) :
    (register uncheckedPlatform rotationProof 1).wp (fun _ r' =>
      Rotatable r' (record.generation + 1)) r := by
  have hdig : ∀ challenge, verifyDigest uncheckedPlatform "key" "sig" challenge rotationProof
      none = .ok () := fun _ => rfl
  have hproofs : ∀ challenge, verifyProofs uncheckedPlatform record challenge rotationProof none =
      .ok () := by
    intro challenge
    rcases hstat with hidle | ⟨hact, hkey⟩
    · simp only [verifyProofs, bind_eq_ok, exists_unit, hidle, reduceCtorEq, if_false]
      exact ⟨hdig challenge, rfl⟩
    · simp only [verifyProofs, bind_eq_ok, exists_unit, hact, if_true,
        verifyRotationAuthorization, hkey]
      exact ⟨hdig challenge, "key", rfl, "sig", rfl, hdig challenge⟩
  have hlive : record.status ≠ .revoked := by
    rcases hstat with hidle | ⟨hact, -⟩
    · simp [hidle]
    · simp [hact]
  have hcert : proofCertificate uncheckedPlatform rotationProof = .ok none := rfl
  have hnext : nextGeneration uncheckedPlatform record.generation =
      .ok (record.generation + 1) := rfl
  have hid : rotationProof.challengeId = 7 := rfl
  have hpost : Rotatable ({ r with challenges := r.challenges.delete 7 }.setDevice 1
      (registeredRecord uncheckedPlatform record
        ⟨7, r.signerSetId, r.signerEpoch, 1, record.generation + 1, .zeros, 10⟩ rotationProof none
        1)) (record.generation + 1) := by
    have hkey : toAsciiLowercase "key" = "key" := by decide +kernel
    refine ⟨_, by rw [setDevice, get_put, if_pos rfl], rfl, .inr ⟨rfl, ?_⟩⟩
    exact congrArg some hkey
  simp only [register, hid, wp_iff, wp_lift, hchal, orError, require, and_self, hcert,
    mapError_ok, h, hnext, if_true, hlive, ne_eq, not_false_eq_true, hproofs]
  exact hpost

lemma run_rotation {generation : UInt64} (h : Rotatable r generation) :
    Rotatable (r.run uncheckedPlatform rotation) (generation + 1) := by
  obtain ⟨record, hget, rfl, hstat⟩ := h
  obtain ⟨hdevs, hchal⟩ := issue_rotation hget
  have hkept : (issueRegistrationChallenge uncheckedPlatform 1 0 10 7 .zeros r).2.devices.get 1 =
      some record := by
    rw [hdevs, hget]
  exact register_rotation hkept hstat hchal

lemma run_rotations (h : Rotatable r 0) (n : ℕ) :
    Rotatable (r.run uncheckedPlatform (rotations n)) (UInt64.ofNat n) := by
  induction n with
  | zero => exact h
  | succ n ih =>
    have hrun : r.run uncheckedPlatform (rotations (n + 1)) =
        (r.run uncheckedPlatform (rotations n)).run uncheckedPlatform rotation :=
      foldl_append
    have hsucc : UInt64.ofNat (n + 1) = UInt64.ofNat n + 1 := by
      rw [UInt64.ofNat_add]
      rfl
    rw [hrun, hsucc]
    exact run_rotation ih

/-- Without overflow checks the generation falls back to zero, in a history from an empty
registry. -/
theorem generation_wraps_around : ∃ (calls : List Call) (record record' : SignerDeviceRecord),
    ((new 1 1 1).run uncheckedPlatform calls).devices.get 1 = some record ∧
      record.generation.toNat = 2 ^ 64 - 1 ∧
      ((new 1 1 1).run uncheckedPlatform (calls ++ rotation)).devices.get 1 = some record' ∧
      record'.generation = 0 := by
  have hnew : Rotatable (new 1 1 1) 0 := ⟨.unconfigured 1, by decide, rfl, .inl rfl⟩
  have hlast := run_rotations hnew (2 ^ 64 - 1)
  have hrun : (new 1 1 1).run uncheckedPlatform (rotations (2 ^ 64 - 1) ++ rotation) =
      ((new 1 1 1).run uncheckedPlatform (rotations (2 ^ 64 - 1))).run uncheckedPlatform rotation :=
    foldl_append
  obtain ⟨record', hget', hgen', -⟩ := run_rotation hlast
  obtain ⟨record, hget, hgen, -⟩ := hlast
  refine ⟨rotations (2 ^ 64 - 1), record, record', hget, ?_, ?_, ?_⟩
  · rw [hgen]
    decide
  · rw [hrun, hget']
  · rw [hgen']
    decide

end SignerDeviceRegistry

end Catomicals.ThresholdSigner
