import Catomicals.Base.EventLog
import Catomicals.ThresholdSigner.DeviceRegistry
import Catomicals.WalletStorage.Calls

/-!
# The events of signer devices

The device that signs for a signer is recorded as a log of events, and is the one of the last event.
-/
namespace Catomicals.WalletStorage

open Base ThresholdSigner Bytes32 EventLog List

inductive DeviceEventType where
  | registered | rotated | revoked
  deriving DecidableEq

def DeviceEventType.asStr : DeviceEventType → String
  | .registered => "registered"
  | .rotated => "rotated"
  | .revoked => "revoked"

inductive RemoteProvider where
  | remoteMtls | hsmAdapter

def RemoteProvider.kind : RemoteProvider → SignerProviderKind
  | .remoteMtls => .remoteMtls
  | .hsmAdapter => .hsmAdapter

structure SignerKey where
  (walletId signerSetId : Uuid)
  signerEpoch : UInt64
  signerId : UInt16
  deriving DecidableEq

structure DeviceEvent where
  sequence : ℕ
  signer : SignerKey
  deviceId : Uuid
  deviceGeneration : UInt64
  provider : RemoteProvider
  identityPublicKey : Bytes32
  mtlsSpkiSha256 : Option Bytes32
  eventType : DeviceEventType
  occurredAt : Time

/-- The linked crates, with both directions of the hexadecimal coding. -/
structure DevicePlatform extends Platform where
  /-- `hex::decode` -/
  decodeHex : String → Option Bytes
  /-- `hex::encode` -/
  encodeHex : Bytes → String

structure DeviceDb where
  db : Db
  events : EventLog DeviceEvent.sequence

def DeviceDb.history (s : DeviceDb) (signer : SignerKey) : List DeviceEvent :=
  s.events.history fun e => e.signer = signer

def DeviceDb.latest (s : DeviceDb) (signer : SignerKey) : Option DeviceEvent :=
  s.events.latest fun e => e.signer = signer

variable (P : DevicePlatform)

def decodeHex32 (value field : String) : Except StorageError Bytes32 := do
  let bytes ← orError (P.decodeHex value) (.invalidStoredValue (field ++ " is not hexadecimal"))
  orError (ofBytes bytes) (.invalidStoredValue (field ++ " must be 32 bytes"))

/-- `as_deref().map(decode_hex32).transpose()`. -/
def decodeOptionalHex32 (value : Option String) (field : String) :
    Except StorageError (Option Bytes32) :=
  match value with
  | none => .ok none
  | some text => (decodeHex32 P text field).map some

def remoteProvider : Option SignerProviderKind → Except StorageError RemoteProvider
  | some .remoteMtls => .ok .remoteMtls
  | some .hsmAdapter => .ok .hsmAdapter
  | _ => .error (.invalidStoredValue "remote signer provider kind is invalid")

/-- The event a record stands for after the last event of its signer. -/
def deviceEventType (prior : Option DeviceEvent) (expectedGeneration : UInt64) (deviceId : Uuid)
    (record : SignerDeviceRecord) : Except StorageError DeviceEventType :=
  match prior with
  | none =>
    if expectedGeneration = 0 ∧ record.generation = 1 ∧ record.status = .active then
      .ok .registered
    else .error (.invalidStoredValue "signer device generation or lifecycle transition drifted")
  | some prior =>
    if prior.eventType = .revoked then
      .error (.invalidStoredValue
        "revoked signer device cannot be replaced in the same signer epoch")
    else if prior.deviceGeneration = expectedGeneration ∧
        record.generation.toNat = prior.deviceGeneration.toNat + 1 ∧ record.status = .active then
      .ok .rotated
    else if prior.deviceGeneration = expectedGeneration ∧
        record.generation = prior.deviceGeneration ∧ prior.deviceId = deviceId ∧
        record.status = .revoked then
      .ok .revoked
    else .error (.invalidStoredValue "signer device generation or lifecycle transition drifted")

/-- `INSERT INTO signer_device_events`, with the constraints of the table. -/
def DeviceDb.insertEvent (s : DeviceDb) (e : DeviceEvent) : Except StorageError DeviceDb := do
  require (e.deviceGeneration.toNat ≤ maxInteger ∧ s.events.last < maxInteger) .sqlite
  require (e.signer.signerId ≠ 0 ∧ e.deviceGeneration ≠ 0) .sqlite
  require ((e.eventType = .registered ∧ e.deviceGeneration = 1) ∨
    (e.eventType = .rotated ∧ 1 < e.deviceGeneration) ∨ e.eventType = .revoked) .sqlite
  require (¬s.events.rows.any fun other => other.signer = e.signer ∧
    other.deviceGeneration = e.deviceGeneration ∧ other.eventType = e.eventType) .sqlite
  return { s with events := s.events.append (fun n => { e with sequence := n }) fun _ => rfl }

def persistSignerDeviceTransition (s : DeviceDb) (walletId signerSetId : Uuid)
    (signerEpoch expectedGeneration : UInt64) (record : SignerDeviceRecord) (now : Time) :
    Except StorageError DeviceDb := do
  let deviceId ← orError record.deviceId
    (.invalidStoredValue "configured signer device id is missing")
  let provider ← remoteProvider record.provider
  let identityHex ← orError record.identityPublicKeyHex
    (.invalidStoredValue "configured signer identity key is missing")
  let identityKey ← decodeHex32 P identityHex "signer identity key"
  let certificate ← decodeOptionalHex32 P record.mtlsSpkiSha256Hex "signer mTLS SPKI digest"
  require (¬(record.provider = some .remoteMtls ∧ certificate = none))
    (.invalidStoredValue "remote signer SPKI digest is missing")
  ensureMutationsAllowed s.db.metadata
  require (s.db.metadata.walletId = walletId ∧ signerEpoch ≠ 0)
    (.invalidStoredValue "signer device belongs to a different wallet or epoch")
  require (signerEpoch.toNat ≤ maxInteger) .sqlite
  let signer : SignerKey := ⟨walletId, signerSetId, signerEpoch, record.signerId⟩
  let eventType ← deviceEventType (s.latest signer) expectedGeneration deviceId record
  let s' ← s.insertEvent
    { sequence := 0, signer := signer, deviceId := deviceId,
      deviceGeneration := record.generation, provider := provider,
      identityPublicKey := identityKey, mtlsSpkiSha256 := certificate, eventType := eventType,
      occurredAt := now }
  return { s' with
    db := s'.db.log ("signer.device_" ++ eventType.asStr) (some (.uuid deviceId)) now }

def DeviceDb.record (s : DeviceDb) (current : DeviceEvent) : SignerDeviceRecord where
  signerId := current.signer.signerId
  deviceId := some current.deviceId
  generation := current.deviceGeneration
  provider := some current.provider.kind
  identityPublicKeyHex := some (P.encodeHex current.identityPublicKey.bytes)
  mtlsSpkiSha256Hex := current.mtlsSpkiSha256.map fun digest => P.encodeHex digest.bytes
  status := if current.eventType = .revoked then .revoked else .active
  registeredAt := ((s.history current.signer).map DeviceEvent.occurredAt).min?
  rotatedAt := (((s.history current.signer).filter fun e => e.eventType = .rotated).map
    DeviceEvent.occurredAt).max?
  revokedAt := (((s.history current.signer).filter fun e => e.eventType = .revoked).map
    DeviceEvent.occurredAt).max?
  health := .unknown

/-- The rows of a signer set with the largest sequence number of their signer. -/
def DeviceDb.current (s : DeviceDb) (walletId signerSetId : Uuid) (signerEpoch : UInt64) :
    List DeviceEvent :=
  s.events.rows.filter fun e => e.signer.walletId = walletId ∧
    e.signer.signerSetId = signerSetId ∧ e.signer.signerEpoch = signerEpoch ∧
    (s.latest e.signer).map DeviceEvent.sequence = some e.sequence

def signerDeviceRecords (s : DeviceDb) (walletId signerSetId : Uuid) (signerEpoch : UInt64) :
    Except StorageError (List SignerDeviceRecord) := do
  require (s.db.metadata.walletId = walletId)
    (.invalidStoredValue "signer device inventory belongs to a different wallet")
  require (signerEpoch.toNat ≤ maxInteger) .sqlite
  return ((s.current walletId signerSetId signerEpoch).mergeSort fun a b =>
    a.signer.signerId ≤ b.signer.signerId).map (s.record P)

/-- A call that writes to the database or to the device events. -/
inductive DeviceCall where
  | persistSignerDeviceTransition (walletId signerSetId : Uuid)
      (signerEpoch expectedGeneration : UInt64) (record : SignerDeviceRecord) (now : Time)
  | storage (c : Call)

def deviceStep (s : DeviceDb) : DeviceCall → Except StorageError DeviceDb
  | .persistSignerDeviceTransition walletId signerSetId signerEpoch expectedGeneration record now =>
    persistSignerDeviceTransition P s walletId signerSetId signerEpoch expectedGeneration record now
  | .storage c => do
    let db ← step P.toPlatform s.db c
    return { s with db := db }

def DeviceDb.new (walletId : Uuid) (created : Time) : DeviceDb :=
  ⟨initializeWallet walletId created, .empty⟩

variable {e : DeviceEvent}

section Appends

variable {P} {s s' : DeviceDb}

/-- Its registration, a rotation to the next generation, or the revocation of its device. -/
def DeviceEvent.Follows (h : List DeviceEvent) (e : DeviceEvent) : Prop :=
  match h.getLast? with
  | none => e.eventType = .registered ∧ e.deviceGeneration.toNat = 1
  | some prior => prior.eventType ≠ .revoked ∧
      (e.eventType = .rotated ∧ e.deviceGeneration.toNat = prior.deviceGeneration.toNat + 1 ∨
        e.eventType = .revoked ∧ e.deviceGeneration = prior.deviceGeneration ∧
          e.deviceId = prior.deviceId)

/-- The same device, generation, provider and keys, and a revocation exactly for a revoked
record. -/
structure DeviceEvent.MadeFrom (P : DevicePlatform) (record : SignerDeviceRecord)
    (e : DeviceEvent) : Prop where
  deviceId : record.deviceId = some e.deviceId
  generation : record.generation = e.deviceGeneration
  provider : record.provider = some e.provider.kind
  identity : (record.identityPublicKeyHex.bind P.decodeHex).bind ofBytes =
    some e.identityPublicKey
  certificate : (record.mtlsSpkiSha256Hex.bind P.decodeHex).bind ofBytes =
    e.mtlsSpkiSha256
  status : record.status = if e.eventType = .revoked then .revoked else .active

lemma deviceEventType_eq_ok {h : List DeviceEvent} {expected : UInt64} {deviceId : Uuid}
    {record : SignerDeviceRecord} {eventType : DeviceEventType}
    (hok : deviceEventType h.getLast? expected deviceId record = .ok eventType)
    (htype : e.eventType = eventType) (hdevice : e.deviceId = deviceId)
    (hgen : e.deviceGeneration = record.generation) :
    e.Follows h ∧ record.status = if e.eventType = .revoked then .revoked else .active := by
  subst htype hdevice
  unfold deviceEventType at hok
  unfold DeviceEvent.Follows
  cases hlast : h.getLast? with
  | none =>
    simp only [hlast] at hok
    split_ifs at hok with hfirst
    have hregd : e.eventType = .registered := by simpa using hok.symm
    simp only [hregd, hgen, hfirst.2.1, hfirst.2.2]
    decide
  | some =>
    simp only [hlast] at hok
    split_ifs at hok with hrev hrotates hrevs
    · have hrotd : e.eventType = .rotated := by simpa using hok.symm
      simp only [hrotd, hgen, hrotates.2.1, hrotates.2.2]
      simp [hrev]
    · have hends : e.eventType = .revoked := by simpa using hok.symm
      simp only [hends, hgen, hrevs.2.1, hrevs.2.2.1, hrevs.2.2.2]
      simp [hrev]

lemma remoteProvider_eq_ok {kind : Option SignerProviderKind} {provider : RemoteProvider}
    (h : remoteProvider kind = .ok provider) : kind = some provider.kind := by
  unfold remoteProvider at h
  split at h
  · cases h
    rfl
  · cases h
    rfl
  · cases h

lemma decodeHex32_eq_ok {value field : String} {digest : Bytes32}
    (h : decodeHex32 P value field = .ok digest) :
    (P.decodeHex value).bind ofBytes = some digest := by
  simp only [decodeHex32, ok_iff] at h
  obtain ⟨_, hbytes, hdig⟩ := h
  rw [hbytes]
  exact hdig

lemma DeviceDb.latest_eq (s : DeviceDb) (signer : SignerKey) :
    s.latest signer = (s.history signer).getLast? :=
  s.events.latest_eq_getLast? _

lemma insertEvent_eq_ok (h : s.insertEvent e = .ok s') :
    ∃ e', e' = { e with sequence := s.events.last + 1 } ∧ s'.db = s.db ∧
      s'.history e.signer = s.history e.signer ++ [e'] ∧
      ∀ other, other ≠ e.signer → s'.history other = s.history other := by
  simp only [DeviceDb.insertEvent, ok_iff] at h
  obtain ⟨-, -, -, -, rfl⟩ := h
  refine ⟨_, rfl, rfl, ?_, ?_⟩
  · simp [DeviceDb.history, history_append]
  · intro _ hother
    simp [DeviceDb.history, history_append, hother.symm]

/-- An accepted transition appends one event of its signer, made from the record and in order. -/
theorem persistSignerDeviceTransition_appends {walletId signerSetId : Uuid}
    {signerEpoch expectedGeneration : UInt64} {record : SignerDeviceRecord} {now : Time}
    (h : persistSignerDeviceTransition P s walletId signerSetId signerEpoch expectedGeneration
      record now = .ok s') :
    ∃ e, e.signer = ⟨walletId, signerSetId, signerEpoch, record.signerId⟩ ∧
      e.MadeFrom P record ∧ e.occurredAt = now ∧ e.Follows (s.history e.signer) ∧
      s'.history e.signer = s.history e.signer ++ [e] ∧
      (∀ other, other ≠ e.signer → s'.history other = s.history other) ∧
      s.db.metadata.walletId = walletId ∧ signerEpoch.toNat ≤ maxInteger := by
  simp only [persistSignerDeviceTransition, ok_iff] at h
  obtain ⟨deviceId, hdevice, provider, hprov, _, hidentityHex, _,
    hident, certificate, hcert, -, -, hwal, hepoch, _, htype, _, hinsert,
    rfl⟩ := h
  rw [DeviceDb.latest_eq] at htype
  obtain ⟨e, he, -, hown, hother⟩ := insertEvent_eq_ok hinsert
  have hsgn : e.signer = ⟨walletId, signerSetId, signerEpoch, record.signerId⟩ := by rw [he]
  obtain ⟨hfoll, hstat⟩ := deviceEventType_eq_ok (e := e) htype (by rw [he]) (by rw [he])
    (by rw [he])
  have hmade : e.MadeFrom P record :=
    { deviceId := by rw [hdevice, he]
      generation := by rw [he]
      provider := by rw [remoteProvider_eq_ok hprov, he]
      identity := by
        rw [hidentityHex, he]
        exact decodeHex32_eq_ok hident
      certificate := by
        rw [he]
        unfold decodeOptionalHex32 at hcert
        split at hcert
        · cases hcert
          simp [*]
        next text hsome =>
          rw [hsome]
          cases hdecode : decodeHex32 P text _ with
          | error =>
            rw [hdecode] at hcert
            cases hcert
          | ok =>
            rw [hdecode] at hcert
            cases hcert
            exact decodeHex32_eq_ok hdecode
      status := hstat }
  rw [← hsgn] at hown hfoll
  refine ⟨e, hsgn, hmade, by rw [he], hfoll, hown, ?_, hwal.1, hepoch⟩
  intro other hne
  exact hother other (hsgn ▸ hne)

end Appends

/-- Generations 1, 2, 3, ... for the registration and rotations, and perhaps a final revocation. -/
def FaithfulHistory (h : List DeviceEvent) : Prop :=
  ∃ (lives : List DeviceEvent) (revocation : Option DeviceEvent), h = lives ++ revocation.toList ∧
    (∀ n e, lives[n]? = some e → e.deviceGeneration.toNat = n + 1 ∧
      e.eventType = if n = 0 then .registered else .rotated) ∧
    ∀ r, revocation = some r → r.eventType = .revoked ∧
      ∃ e, lives.getLast? = some e ∧ r.deviceGeneration = e.deviceGeneration ∧
        r.deviceId = e.deviceId

section Runs

variable {P} {s s' : DeviceDb} {h : List DeviceEvent}

lemma FaithfulHistory.lives (hh : FaithfulHistory h)
    (hlast : ∀ prior, h.getLast? = some prior → prior.eventType ≠ .revoked) (n : ℕ)
    (e : DeviceEvent) (he : h[n]? = some e) :
    e.deviceGeneration.toNat = n + 1 ∧ e.eventType = if n = 0 then .registered else .rotated := by
  obtain ⟨_, revocation, rfl, hlives, hrevn⟩ := hh
  cases revocation with
  | none => exact hlives n e (by simpa using he)
  | some r =>
    refine absurd (hrevn r rfl).1 (hlast r ?_)
    simp

theorem FaithfulHistory.append (hh : FaithfulHistory h) (he : e.Follows h) :
    FaithfulHistory (h ++ [e]) := by
  unfold DeviceEvent.Follows at he
  cases hlast : h.getLast? with
  | none =>
    have hnil : h = [] := by simpa using hlast
    subst hnil
    refine ⟨[e], none, rfl, ?_, by simp⟩
    intro n x hx
    have hn : n = 0 := by
      by_contra hne
      rw [getElem?_eq_none (by simp; omega)] at hx
      cases hx
    subst hn
    obtain rfl : e = x := by simpa using hx
    exact ⟨he.2, he.1⟩
  | some prior =>
    simp only [hlast] at he
    obtain ⟨hopen, hnext⟩ := he
    have hlives := hh.lives (by rw [hlast]; intro x hx; cases hx; exact hopen)
    have hlen : 0 < h.length := by
      cases h with
      | nil => simp at hlast
      | cons => simp
    have hprior : h[h.length - 1]? = some prior := by rw [← getLast?_eq_getElem?, hlast]
    rcases hnext with ⟨hrotd, hgen⟩ | ⟨hrev, hgen, hdevice⟩
    · refine ⟨h ++ [e], none, by simp, ?_, by simp⟩
      intro n x hx
      by_cases hn : n < h.length
      · rw [getElem?_append_left hn] at hx
        exact hlives n x hx
      · have hn' : n = h.length := by
          by_contra hne
          rw [getElem?_eq_none (by simp; omega)] at hx
          cases hx
        subst hn'
        obtain rfl : e = x := by simpa using hx
        have hg := (hlives _ prior hprior).1
        refine ⟨by omega, ?_⟩
        rw [if_neg (by omega), hrotd]
    · refine ⟨h, some e, rfl, hlives, ?_⟩
      rintro _ hr
      cases hr
      exact ⟨hrev, prior, hlast, hgen, hdevice⟩

/-- A call appends an event that may follow to the history of one signer, or changes none. -/
lemma deviceStep_history {c : DeviceCall} (hstep : deviceStep P s c = .ok s') (signer : SignerKey) :
    s'.history signer = s.history signer ∨
      ∃ e, e.Follows (s.history signer) ∧ s'.history signer = s.history signer ++ [e] ∧
        signer.signerEpoch.toNat ≤ maxInteger := by
  cases c with
  | persistSignerDeviceTransition =>
    obtain ⟨e, hsgn, -, -, hfoll, hown, hother, -, hepoch⟩ :=
      persistSignerDeviceTransition_appends hstep
    by_cases hsame : signer = e.signer
    · subst hsame
      exact .inr ⟨e, hfoll, hown, by rw [hsgn]; exact hepoch⟩
    · exact .inl (hother signer hsame)
  | storage =>
    simp only [deviceStep, ok_iff] at hstep
    obtain ⟨_, -, rfl⟩ := hstep
    exact .inl rfl

/-- What holds of the events of a signer in every reachable database. -/
structure DeviceDb.Sound (s : DeviceDb) : Prop where
  faithful : ∀ signer, FaithfulHistory (s.history signer)
  epochs : ∀ signer, s.history signer ≠ [] → signer.signerEpoch.toNat ≤ maxInteger

theorem DeviceDb.Sound.step {c : DeviceCall} (hs : s.Sound) (hstep : deviceStep P s c = .ok s') :
    s'.Sound := by
  constructor
  · intro signer
    rcases deviceStep_history hstep signer with hsame | ⟨e, hfoll, happend, -⟩
    · rw [hsame]
      exact hs.faithful signer
    · rw [happend]
      exact (hs.faithful signer).append hfoll
  · intro signer hne
    rcases deviceStep_history hstep signer with hsame | ⟨_, -, -, hepoch⟩
    · exact hs.epochs signer (hsame ▸ hne)
    · exact hepoch

theorem DeviceDb.sound_of_reaches {walletId : Uuid} {created : Time}
    (hs : Reaches (deviceStep P) (.new walletId created) s) : s.Sound := by
  refine hs.invariant (I := DeviceDb.Sound) ?_ fun _ _ _ hs hstep => hs.step hstep
  have hempty : ∀ signer, (DeviceDb.new walletId created).history signer = [] := fun _ => rfl
  constructor
  · intro signer
    exact ⟨[], none, rfl, by simp, by simp⟩
  · intro signer hne
    exact absurd (hempty signer) hne

end Runs

section Inventory

variable {P} {s : DeviceDb} {walletId signerSetId : Uuid} {signerEpoch : UInt64}

/-- The record shows the device, generation, provider, keys and status of the event. -/
structure DeviceEvent.ShownBy (P : DevicePlatform) (e : DeviceEvent)
    (record : SignerDeviceRecord) : Prop where
  deviceId : record.deviceId = some e.deviceId
  generation : record.generation = e.deviceGeneration
  provider : record.provider = some e.provider.kind
  identity : record.identityPublicKeyHex = some (P.encodeHex e.identityPublicKey.bytes)
  certificate : record.mtlsSpkiSha256Hex =
    e.mtlsSpkiSha256.map fun digest => P.encodeHex digest.bytes
  status : record.status = if e.eventType = .revoked then .revoked else .active

/-- The records show the last event of every signer that has events, one record each. -/
structure ShowsCurrent (P : DevicePlatform) (s : DeviceDb) (walletId signerSetId : Uuid)
    (signerEpoch : UInt64) (records : List SignerDeviceRecord) : Prop where
  once : (records.map SignerDeviceRecord.signerId).Nodup
  every : ∀ signerId, s.history ⟨walletId, signerSetId, signerEpoch, signerId⟩ ≠ [] →
    ∃ record ∈ records, record.signerId = signerId
  last : ∀ record ∈ records, ∃ e,
    (s.history ⟨walletId, signerSetId, signerEpoch, record.signerId⟩).getLast? = some e ∧
      e.ShownBy P record

lemma mem_current : e ∈ s.current walletId signerSetId signerEpoch ↔
    e.signer = ⟨walletId, signerSetId, signerEpoch, e.signer.signerId⟩ ∧
      (s.history e.signer).getLast? = some e := by
  have hkey : (e.signer.walletId = walletId ∧ e.signer.signerSetId = signerSetId ∧
      e.signer.signerEpoch = signerEpoch) ↔
      e.signer = ⟨walletId, signerSetId, signerEpoch, e.signer.signerId⟩ := by
    cases e.signer
    simp
  simp only [DeviceDb.current, mem_filter, Bool.decide_and, Bool.and_eq_true,
    decide_eq_true_eq, DeviceDb.latest_eq, Option.map_eq_some_iff]
  constructor
  · rintro ⟨hmem, hwal, hset, hepoch, latest, hlatest, hseqn⟩
    have hrow := (mem_history.mp (mem_of_getLast? hlatest)).1
    obtain rfl : latest = e := inj_on_of_nodup_map (nodup_sequences _) hrow hmem hseqn
    exact ⟨hkey.mp ⟨hwal, hset, hepoch⟩, hlatest⟩
  · rintro ⟨hsgn, hlast⟩
    obtain ⟨hwal, hset, hepoch⟩ := hkey.mpr hsgn
    exact ⟨(mem_history.mp (mem_of_getLast? hlast)).1, hwal, hset, hepoch, e, hlast, rfl⟩

lemma current_nodup :
    ((s.current walletId signerSetId signerEpoch).map fun e => e.signer.signerId).Nodup := by
  have hrows : (s.current walletId signerSetId signerEpoch).Nodup :=
    s.events.nodup_sequences.of_map.filter _
  refine hrows.map_on ?_
  intro a ha b hb hsame
  obtain ⟨hasigner, halast⟩ := mem_current.mp ha
  obtain ⟨hbsigner, hblast⟩ := mem_current.mp hb
  have hsgn : a.signer = b.signer := by rw [hasigner, hbsigner, hsame]
  rw [hsgn, hblast] at halast
  exact (Option.some.inj halast).symm

theorem signerDeviceRecords_shows (hwal : s.db.metadata.walletId = walletId)
    (hepoch : signerEpoch.toNat ≤ maxInteger) :
    ∃ records, signerDeviceRecords P s walletId signerSetId signerEpoch = .ok records ∧
      ShowsCurrent P s walletId signerSetId signerEpoch records := by
  refine ⟨((s.current walletId signerSetId signerEpoch).mergeSort fun a b =>
    a.signer.signerId ≤ b.signer.signerId).map (s.record P), ?_, ?_⟩
  · simp only [signerDeviceRecords, ok_iff]
    exact ⟨hwal, hepoch, trivial⟩
  constructor
  · rw [map_map]
    exact (((mergeSort_perm _ _).map _).nodup_iff).mpr current_nodup
  · intro signerId hne
    obtain ⟨e, he⟩ := Option.ne_none_iff_exists'.mp (mt getLast?_eq_none_iff.mp hne)
    have hsgn : e.signer = ⟨walletId, signerSetId, signerEpoch, signerId⟩ := by
      simpa using (mem_history.mp (mem_of_getLast? he)).2
    have hcur : e ∈ s.current walletId signerSetId signerEpoch := by
      rw [mem_current, hsgn]
      exact ⟨rfl, he⟩
    refine ⟨s.record P e, mem_map_of_mem (mem_mergeSort.mpr hcur), ?_⟩
    show e.signer.signerId = signerId
    rw [hsgn]
  · intro _ hrec
    obtain ⟨e, he, rfl⟩ := mem_map.mp hrec
    obtain ⟨hsgn, hlast⟩ := mem_current.mp (mem_mergeSort.mp he)
    refine ⟨e, ?_, ⟨rfl, rfl, rfl, rfl, rfl, rfl⟩⟩
    show (s.history ⟨walletId, signerSetId, signerEpoch, e.signer.signerId⟩).getLast? = some e
    rw [← hsgn]
    exact hlast

end Inventory

/-- Whatever calls were made: an accepted transition appends one event made from its record to its
signer's history and a rejected one changes nothing, every history is a life that a revocation ends
for good, and the inventory shows every signer's last event. -/
theorem signerDevices_faithful (P : DevicePlatform) (walletId : Uuid) (created : Time)
    (calls : List DeviceCall) :
    let s := run (deviceStep P) (.new walletId created) calls
    (∀ signer, FaithfulHistory (s.history signer)) ∧
      (∀ signer r, (s.history signer).getLast? = some r → r.eventType = .revoked →
        ∀ later, (run (deviceStep P) s later).history signer = s.history signer) ∧
      (∀ wallet signerSetId signerEpoch expectedGeneration record now,
        match persistSignerDeviceTransition P s wallet signerSetId signerEpoch expectedGeneration
          record now with
        | .ok s' => ∃ e, e.signer = ⟨wallet, signerSetId, signerEpoch, record.signerId⟩ ∧
            e.MadeFrom P record ∧ s'.history e.signer = s.history e.signer ++ [e] ∧
            ∀ other, other ≠ e.signer → s'.history other = s.history other
        | .error _ => attempt (deviceStep P) s (.persistSignerDeviceTransition wallet signerSetId
            signerEpoch expectedGeneration record now) = s) ∧
      ∀ signerSetId signerEpoch,
        (signerEpoch.toNat ≤ maxInteger → ∃ records,
          signerDeviceRecords P s s.db.metadata.walletId signerSetId signerEpoch = .ok records ∧
            ShowsCurrent P s s.db.metadata.walletId signerSetId signerEpoch records) ∧
        ∀ wallet signerId, s.history ⟨wallet, signerSetId, signerEpoch, signerId⟩ ≠ [] →
          signerEpoch.toNat ≤ maxInteger := by
  intro s
  have hsound : s.Sound := DeviceDb.sound_of_reaches (reaches_run _ _)
  refine ⟨hsound.faithful, ?_, ?_, ?_⟩
  · intro signer r hr hrev later
    refine (reaches_run s later).invariant
      (I := fun s' => s'.history signer = s.history signer) rfl ?_
    intro t c u ht hstep
    rcases deviceStep_history hstep signer with hsame | ⟨_, hfoll, -, -⟩
    · exact hsame.trans ht
    · rw [ht] at hfoll
      simp only [DeviceEvent.Follows, hr] at hfoll
      exact absurd hrev hfoll.1
  · intro wallet signerSetId signerEpoch expectedGeneration record now
    cases hcall : persistSignerDeviceTransition P s wallet signerSetId signerEpoch
        expectedGeneration record now with
    | ok s' =>
      obtain ⟨e, hsgn, hmade, -, -, hown, hother, -, -⟩ :=
        persistSignerDeviceTransition_appends hcall
      exact ⟨e, hsgn, hmade, hown, hother⟩
    | error e => exact attempt_of_error hcall
  · intro _ _
    refine ⟨fun hepoch => signerDeviceRecords_shows rfl hepoch, ?_⟩
    intro _ _ hne
    exact hsound.epochs _ hne

end Catomicals.WalletStorage
