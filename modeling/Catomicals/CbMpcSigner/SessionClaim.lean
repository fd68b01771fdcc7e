import Catomicals.WalletStorage.Models
import Mathlib.Data.Set.Function

/-!
# Claims of MPC sessions

`crates/cb-mpc-signer/src/session_claim.rs`. A claim is appended to a log and synchronized before
the session signs. The log is locked while a store has it open, so one store at most takes claims,
one after the other. A crash leaves the bytes that a failure of the call leaves.
-/
namespace Catomicals.CbMpcSigner

open Base Domain List WalletStorage

inductive SessionClaimError where
  | alreadyClaimed | storeFull | storeBusy | corruptStore | unsafePath | unsafePermissions
  | invalidSession | invalidNamespace | failedClosed | io

def header : Bytes := "CATOMICALS-CBMPC-CLAIMS-V2".toUTF8.toList ++ replicate 6 0
def legacyHeader : Bytes := "CATOMICALS-CBMPC-CLAIMS-V1".toUTF8.toList ++ replicate 6 0
def recordDomain : Bytes := "catomicals.cb-mpc.session-claim.v2\x00".toUTF8.toList
def legacyRecordDomain : Bytes := "catomicals.cb-mpc.session-claim.v1\x00".toUTF8.toList
def claimKeyDomain : Bytes := "catomicals.cb-mpc.session-namespace.v1\x00".toUTF8.toList
def headerBytes : ℕ := 32
def recordBytes : ℕ := 64
def maxRetainedSessionIds : ℕ := 4096

structure SessionClaimNamespace where
  (walletId profileId : Uuid)
  signingSuiteId : SigningSuiteId
  backendRequirement : SignerBackendRequirement
  valid : walletId ≠ 0 ∧ profileId ≠ 0 ∧ backendRequirement = .cbMpcThresholdEcdsa

namespace SessionClaimNamespace

def new (walletId profileId : Uuid) (signingSuiteId : SigningSuiteId)
    (backendRequirement : SignerBackendRequirement) :
    Except SessionClaimError SessionClaimNamespace :=
  if h : walletId ≠ 0 ∧ profileId ≠ 0 ∧ backendRequirement = .cbMpcThresholdEcdsa then
    .ok ⟨walletId, profileId, signingSuiteId, backendRequirement, h⟩
  else .error .invalidNamespace

def binding (n : SessionClaimNamespace) : Bytes :=
  n.walletId.bytes ++ n.profileId.bytes ++ n.signingSuiteId.asStr.toUTF8.toList ++
    n.backendRequirement.asStr.toUTF8.toList

end SessionClaimNamespace

abbrev Claim := SessionClaimNamespace × Bytes32

/-- The bytes whose hash is the key of a claim. -/
def Claim.preimage (c : Claim) : Bytes := claimKeyDomain ++ c.1.binding ++ c.2.bytes

/-- An append-only file: what a crash cannot take away, and what was written since. -/
structure LogFile where
  (synced tail : Bytes)

inductive Append where
  | torn (written : ℕ)
  | unsynced
  | synced
  deriving DecidableEq

namespace LogFile

def contents (f : LogFile) : Bytes := f.synced ++ f.tail

def append (f : LogFile) (bytes : Bytes) : Append → LogFile
  | .torn written => { f with tail := f.tail ++ bytes.take written }
  | .unsynced => { f with tail := f.tail ++ bytes }
  | .synced => ⟨f.contents ++ bytes, []⟩

/-- A crash of the machine keeps some of the bytes not synchronized. -/
def crash (f : LogFile) (kept : ℕ) : LogFile := ⟨f.synced ++ f.tail.take kept, []⟩

end LogFile

variable (sha256 : Bytes → Bytes32)

def Claim.key (c : Claim) : Bytes32 := sha256 c.preimage

def recordChecksum (sessionId : Bytes32) (domain : Bytes) : Bytes32 :=
  sha256 (domain ++ sessionId.bytes)

def encodeRecord (sessionId : Bytes32) (domain : Bytes) : Bytes :=
  sessionId.bytes ++ (recordChecksum sha256 sessionId domain).bytes

/-- The chunk of `chunks_exact(RECORD_BYTES)` after the header. -/
def chunk (contents : Bytes) (i : ℕ) : Bytes :=
  (contents.drop (headerBytes + recordBytes * i)).take recordBytes

def loadRecord (domain : Bytes) (claimed : List Bytes32) (record : Bytes) :
    Except SessionClaimError (List Bytes32) := do
  let sessionId ← orError (Bytes32.ofBytes (record.take 32)) .corruptStore
  require (sessionId ≠ .zeros ∧ record.drop 32 = (recordChecksum sha256 sessionId domain).bytes ∧
    sessionId ∉ claimed) .corruptStore
  return sessionId :: claimed

/-- `load_existing`, which `load_or_initialize` repeats for a nonempty file. -/
def loadExisting (header domain file : Bytes) : Except SessionClaimError (List Bytes32) := do
  let contents := file.take (headerBytes + recordBytes * maxRetainedSessionIds + 1)
  require (headerBytes ≤ contents.length ∧ contents.take headerBytes = header ∧
    recordBytes ∣ contents.length - headerBytes ∧
    contents.length ≤ headerBytes + recordBytes * maxRetainedSessionIds) .corruptStore
  ((range ((contents.length - headerBytes) / recordBytes)).map (chunk contents)).foldlM
    (loadRecord sha256 domain) []

/-- How the steps of an open end that are not computed from the files. -/
structure OpenOutcome where
  path : Option SessionClaimError
  read : Bool
  header : Append
  directory : Bool
  legacy : Option SessionClaimError

def loadOrInitialize (io : OpenOutcome) (f : LogFile) :
    Except SessionClaimError (List Bytes32) × LogFile :=
  if io.read = false then (.error .io, f)
  else if f.contents = [] then
    (if io.header = .synced ∧ io.directory = true then .ok [] else .error .io,
      f.append header io.header)
  else (loadExisting sha256 header recordDomain f.contents, f)

def legacySessions : Option Bytes → Except SessionClaimError (List Bytes32)
  | none => .ok []
  | some file => loadExisting sha256 legacyHeader legacyRecordDomain file

def openLegacyClaims (io : OpenOutcome) (legacy : Option Bytes) :
    Except SessionClaimError (List Bytes32) :=
  match io.legacy with
  | some e => .error e
  | none => legacySessions sha256 legacy

structure ClaimState where
  (claimed legacyClaimedSessions : List Bytes32)
  failedClosed : Bool

variable (legacy : Option Bytes)

/-- `open`, with the lock that is taken first. -/
def openStore (io : OpenOutcome) (locked : Bool) (f : LogFile) :
    Except SessionClaimError ClaimState × LogFile :=
  match io.path with
  | some e => (.error e, f)
  | none =>
    if locked then (.error .storeBusy, f)
    else
      let loaded := loadOrInitialize sha256 io f
      (do
        let claimed ← loaded.1
        let legacyClaimedSessions ← openLegacyClaims sha256 io legacy
        return ⟨claimed, legacyClaimedSessions, false⟩, loaded.2)

/-- What `claim_scoped` checks before it writes. -/
def checkClaim (c : Claim) (s : ClaimState) : Except SessionClaimError Unit := do
  require (c.2 ≠ .zeros) .invalidSession
  require (s.failedClosed = false) .failedClosed
  require (c.2 ∉ s.legacyClaimedSessions ∧ c.key sha256 ∉ s.claimed) .alreadyClaimed
  require (s.claimed.length < maxRetainedSessionIds) .storeFull

def claimScoped (c : Claim) (io : Append) (s : ClaimState) (f : LogFile) :
    Except SessionClaimError Unit × ClaimState × LogFile :=
  match checkClaim sha256 c s with
  | .error e => (.error e, s, f)
  | .ok () =>
    let f' := f.append (encodeRecord sha256 (c.key sha256) recordDomain) io
    if io = .synced then (.ok (), { s with claimed := c.key sha256 :: s.claimed }, f')
    else (.error .failedClosed, { s with failedClosed := true }, f')

/-- The log, the store that has it open, and the claims that were granted. -/
structure World where
  file : LogFile
  store : Option ClaimState
  granted : List Claim

/-- An open by any process, a claim, the end of the store or process, and a crash. -/
inductive Event where
  | open (io : OpenOutcome)
  | claim (c : Claim) (io : Append)
  | close
  | crash (kept : ℕ)

def step (w : World) : Event → World
  | .open io =>
    match openStore sha256 legacy io w.store.isSome w.file with
    | (.ok s, f) => { w with file := f, store := some s }
    | (.error _, f) => { w with file := f }
  | .claim c io =>
    match w.store with
    | none => w
    | some s =>
      match claimScoped sha256 c io s w.file with
      | (.ok _, s', f) => ⟨f, some s', c :: w.granted⟩
      | (.error _, s', f) => { w with file := f, store := some s' }
  | .close => { w with store := none }
  | .crash kept => { w with file := w.file.crash kept, store := none }

def run (log : Bytes) (events : List Event) : World :=
  events.foldl (step sha256 legacy) ⟨⟨log, []⟩, none, []⟩

/-- The record of a key is one of the records of the bytes. -/
def Holds (bytes : Bytes) (key : Bytes32) : Prop :=
  ∃ i, headerBytes + recordBytes * (i + 1) ≤ bytes.length ∧
    chunk bytes i = encodeRecord sha256 key recordDomain

variable {sha256} {bytes more : Bytes} {key : Bytes32} {claimed : List Bytes32}

lemma length_encodeRecord (sha256 : Bytes → Bytes32) (key : Bytes32) (domain : Bytes) :
    (encodeRecord sha256 key domain).length = recordBytes := by
  simp [encodeRecord, recordBytes]

lemma Holds.append (h : Holds sha256 bytes key) (more : Bytes) :
    Holds sha256 (bytes ++ more) key := by
  obtain ⟨i, _, hchunk⟩ := h
  have hend : headerBytes + recordBytes * (i + 1) =
      headerBytes + recordBytes * i + recordBytes := by
    rw [Nat.mul_succ, Nat.add_assoc]
  refine ⟨i, by rw [length_append]; omega, ?_⟩
  rw [← hchunk, chunk, chunk, drop_append_of_le_length (by omega),
    take_append_of_le_length (by rw [length_drop]; omega)]

lemma holds_of_aligned {m : ℕ} (h : bytes.length = headerBytes + recordBytes * m) :
    Holds sha256 (bytes ++ encodeRecord sha256 key recordDomain) key := by
  have hlen := length_encodeRecord sha256 key recordDomain
  refine ⟨m, by rw [length_append, h, hlen, Nat.mul_succ, Nat.add_assoc], ?_⟩
  rw [chunk, ← h, drop_left, ← hlen, take_length]

lemma mem_of_loadRecord {domain record : Bytes} {result : List Bytes32}
    (h : loadRecord sha256 domain claimed record = .ok result) :
    (∀ k ∈ claimed, k ∈ result) ∧ ∀ k, record = encodeRecord sha256 k domain → k ∈ result := by
  simp only [loadRecord, ok_iff] at h
  obtain ⟨_, hid, -, rfl⟩ := h
  refine ⟨fun k hk => mem_cons_of_mem _ hk, ?_⟩
  rintro k rfl
  have hbytes : (encodeRecord sha256 k domain).take 32 = k.bytes := by
    rw [encodeRecord, ← k.length_bytes, take_left]
  rw [hbytes, Bytes32.ofBytes, dif_pos k.length_bytes] at hid
  cases hid
  exact mem_cons_self

lemma mem_of_loadRecords {domain : Bytes} {records : List Bytes} {result : List Bytes32}
    (h : records.foldlM (loadRecord sha256 domain) claimed = .ok result) :
    (∀ k ∈ claimed, k ∈ result) ∧ ∀ k, encodeRecord sha256 k domain ∈ records → k ∈ result := by
  induction records generalizing claimed with
  | nil =>
    obtain rfl : claimed = result := Except.ok.inj h
    exact ⟨fun k hk => hk, fun k hk => nomatch hk⟩
  | cons _ _ ih =>
    rw [foldlM_cons, bind_eq_ok] at h
    obtain ⟨_, hnext, hrest⟩ := h
    obtain ⟨hold, hnew⟩ := mem_of_loadRecord hnext
    obtain ⟨hkeeps, hoth⟩ := ih hrest
    refine ⟨fun k hk => hkeeps k (hold k hk), ?_⟩
    intro k hk
    rcases mem_cons.mp hk with hfirst | hlater
    · exact hkeeps k (hnew k hfirst.symm)
    · exact hoth k hlater

lemma loadExisting_eq_ok (h : loadExisting sha256 header recordDomain bytes = .ok claimed) :
    (∃ m, bytes.length = headerBytes + recordBytes * m) ∧
      ∀ k, Holds sha256 bytes k → k ∈ claimed := by
  simp only [loadExisting, ok_iff] at h
  obtain ⟨⟨hlong, -, ⟨m, hm⟩, hshort⟩, hload⟩ := h
  have hwhole : bytes.take (headerBytes + recordBytes * maxRetainedSessionIds + 1) = bytes := by
    rw [length_take] at hshort
    exact take_of_length_le (by omega)
  rw [hwhole] at hlong hm hload
  refine ⟨⟨m, by omega⟩, ?_⟩
  rintro k ⟨i, _, hchunk⟩
  refine (mem_of_loadRecords hload).2 k (mem_map.mpr ⟨i, mem_range.mpr ?_, hchunk⟩)
  have hpos : 0 < recordBytes := by decide
  rw [hm, Nat.mul_div_cancel_left _ hpos]
  have hlt : recordBytes * (i + 1) ≤ recordBytes * m := by omega
  exact Nat.le_of_mul_le_mul_left hlt hpos

/-- Every granted claim is in the part of the log that stays, and the open store knows it unless it
has failed. -/
structure Sound (sha256 : Bytes → Bytes32) (legacy : Option Bytes) (w : World) : Prop where
  logged : ∀ c ∈ w.granted, Holds sha256 w.file.synced (c.key sha256)
  aligned : ∀ s, w.store = some s → s.failedClosed = false →
    ∃ m, w.file.contents.length = headerBytes + recordBytes * m
  known : ∀ s, w.store = some s → ∀ c ∈ w.granted, c.key sha256 ∈ s.claimed
  sessions : ∀ s, w.store = some s → legacySessions sha256 legacy = .ok s.legacyClaimedSessions
  once : w.granted.Nodup
  fresh : ∀ c ∈ w.granted, ∀ sessions, legacySessions sha256 legacy = .ok sessions →
    c.2 ∉ sessions

section Steps

variable {legacy : Option Bytes} {f : LogFile} {io : OpenOutcome} {w : World}

lemma Holds.after_append (h : Holds sha256 f.synced key) (io : Append) :
    Holds sha256 (f.append more io).synced key := by
  cases io with
  | torn => exact h
  | unsynced => exact h
  | synced => exact (h.append _).append _

lemma loadOrInitialize_eq_ok (h : (loadOrInitialize sha256 io f).1 = .ok claimed) :
    (∃ m, (loadOrInitialize sha256 io f).2.contents.length = headerBytes + recordBytes * m) ∧
      ∀ k, Holds sha256 f.synced k → k ∈ claimed := by
  unfold loadOrInitialize at h ⊢
  by_cases hread : io.read = false
  · simp [if_pos hread] at h
  rw [if_neg hread] at h ⊢
  by_cases hempty : f.contents = []
  · rw [if_pos hempty] at h ⊢
    obtain ⟨hsynced, -⟩ : io.header = .synced ∧ io.directory = true := by
      by_contra hfailed
      simp [hfailed] at h
    refine ⟨⟨0, ?_⟩, ?_⟩
    · rw [hsynced]
      show (f.contents ++ header ++ []).length = headerBytes + recordBytes * 0
      rw [hempty]
      decide +kernel
    · rintro k ⟨_, hle, -⟩
      rw [(append_eq_nil_iff.mp hempty).1, length_nil] at hle
      exact absurd hle (by simp [headerBytes])
  · rw [if_neg hempty] at h ⊢
    obtain ⟨halgn, hloaded⟩ := loadExisting_eq_ok h
    exact ⟨halgn, fun k hk => hloaded k (hk.append _)⟩

lemma Sound.open (h : Sound sha256 legacy w) (io : OpenOutcome) :
    Sound sha256 legacy (step sha256 legacy w (.open io)) := by
  have hlogged : ∀ c ∈ w.granted, Holds sha256
      (loadOrInitialize sha256 io w.file).2.synced (c.key sha256) := by
    intro c hc
    unfold loadOrInitialize
    split_ifs
    · exact h.logged c hc
    · exact (h.logged c hc).after_append _
    · exact (h.logged c hc).after_append _
    · exact h.logged c hc
  simp only [step, openStore]
  cases hpath : io.path with
  | some => exact h
  | none =>
    by_cases hlocked : w.store.isSome = true
    · rw [if_pos hlocked]
      exact h
    rw [if_neg hlocked]
    have hnone : w.store = none := by simpa using hlocked
    cases hopen : (do
        let claimed ← (loadOrInitialize sha256 io w.file).1
        let legacyClaimedSessions ← openLegacyClaims sha256 io legacy
        return (⟨claimed, legacyClaimedSessions, false⟩ : ClaimState)) with
    | error e =>
      refine ⟨hlogged, ?_, ?_, ?_, h.once, h.fresh⟩
      all_goals
        intro s hs
        cases hnone.symm.trans hs
    | ok s =>
      simp only [ok_iff, openLegacyClaims] at hopen
      obtain ⟨_, hload, sessions, hlegacy, rfl⟩ := hopen
      obtain ⟨halgn, hloaded⟩ := loadOrInitialize_eq_ok hload
      have hsesns : legacySessions sha256 legacy = .ok sessions := by
        split at hlegacy
        · cases hlegacy
        · exact hlegacy
      refine ⟨hlogged, ?_, ?_, ?_, h.once, h.fresh⟩
      · rintro s ⟨⟩ _
        exact halgn
      · rintro s ⟨⟩ c hc
        exact hloaded _ (h.logged c hc)
      · rintro _ ⟨⟩
        exact hsesns

lemma Sound.claim (h : Sound sha256 legacy w) (c : Claim) (io : Append) :
    Sound sha256 legacy (step sha256 legacy w (.claim c io)) := by
  obtain ⟨file, store, granted⟩ := w
  cases store with
  | none => exact h
  | some s =>
    have hlogged : ∀ c' ∈ granted, Holds sha256 (file.append
        (encodeRecord sha256 (c.key sha256) recordDomain) io).synced (c'.key sha256) :=
      fun c' hc' => (h.logged c' hc').after_append _
    simp only [step, claimScoped]
    cases hcheck : checkClaim sha256 c s with
    | error => exact h
    | ok =>
      simp only [checkClaim, ok_iff] at hcheck
      obtain ⟨-, hopen, ⟨hlegacy, hnew⟩, -⟩ := hcheck
      by_cases hsynced : io = .synced
      · subst hsynced
        obtain ⟨m, hm⟩ := h.aligned s rfl hopen
        have hm' : file.contents.length = headerBytes + recordBytes * m := hm
        refine ⟨?_, ?_, ?_, ?_, ?_, ?_⟩
        · intro c' hc'
          rcases mem_cons.mp hc' with rfl | hc'
          · exact holds_of_aligned hm
          · exact hlogged c' hc'
        · intro s' _ _
          refine ⟨m + 1, ?_⟩
          show (file.contents ++ encodeRecord sha256 _ recordDomain ++ []).length = _
          rw [append_nil, length_append, hm', length_encodeRecord, Nat.mul_succ, Nat.add_assoc]
        · rintro s' ⟨⟩ c' hc'
          rcases mem_cons.mp hc' with rfl | hc'
          · exact mem_cons_self
          · exact mem_cons_of_mem _ (h.known s rfl c' hc')
        · rintro s' ⟨⟩
          exact h.sessions s rfl
        · refine nodup_cons.mpr ⟨?_, h.once⟩
          intro hc
          exact hnew (h.known s rfl c hc)
        · intro c' hc' sessions hsesns
          rcases mem_cons.mp hc' with rfl | hc'
          · rw [h.sessions s rfl] at hsesns
            cases hsesns
            exact hlegacy
          · exact h.fresh c' hc' sessions hsesns
      · simp only [if_neg hsynced]
        refine ⟨hlogged, ?_, ?_, ?_, h.once, h.fresh⟩
        · rintro s' ⟨⟩ hfailed
          cases hfailed
        · rintro s' ⟨⟩
          exact h.known s rfl
        · rintro _ ⟨⟩
          exact h.sessions s rfl

theorem Sound.step (h : Sound sha256 legacy w) (e : Event) :
    Sound sha256 legacy (step sha256 legacy w e) := by
  cases e with
  | «open» io => exact h.open io
  | claim c io => exact h.claim c io
  | close => exact ⟨h.logged, nofun, nofun, nofun, h.once, h.fresh⟩
  | crash =>
    exact ⟨fun c hc => (h.logged c hc).append _, nofun, nofun, nofun, h.once, h.fresh⟩

theorem sound_run (sha256 : Bytes → Bytes32) (legacy : Option Bytes) (log : Bytes)
    (events : List Event) :
    Sound sha256 legacy (run sha256 legacy log events) := by
  have hinit : Sound sha256 legacy ⟨⟨log, []⟩, none, []⟩ :=
    ⟨nofun, nofun, nofun, nofun, nodup_nil, nofun⟩
  unfold run
  generalize (⟨⟨log, []⟩, none, []⟩ : World) = w at hinit
  induction events generalizing w with
  | nil => exact hinit
  | cons e _ ih => exact ih _ (hinit.step e)

end Steps

lemma asStr_injective : Function.Injective SigningSuiteId.asStr := by
  intro a b h
  cases a <;> cases b <;> first | rfl | exact absurd h (by decide)

theorem preimage_injective : Function.Injective Claim.preimage := by
  rintro ⟨⟨_, _, suite, backend, hvalid⟩, session⟩
    ⟨⟨wallet', profile', suite', backend', hvalid'⟩, session'⟩ h
  obtain ⟨_, _, rfl⟩ := hvalid
  obtain ⟨_, _, rfl⟩ := hvalid'
  simp only [Claim.preimage, SessionClaimNamespace.binding, append_assoc,
    append_cancel_left_eq, WalletStorage.prefixFree_uuid.append_iff] at h
  obtain ⟨rfl, rfl, h⟩ := h
  -- the backend is the same and the session has a fixed length, so the suite is left
  obtain ⟨hsuite, hrest⟩ := append_inj' h (by simp)
  obtain rfl := asStr_injective (utf8_inj.mp hsuite)
  obtain ⟨session, _⟩ := session
  obtain ⟨session', _⟩ := session'
  obtain rfl : session = session' := append_cancel_left hrest
  rfl

/-- Each claim is granted once at most, and none for a legacy session; claims have different keys as
far as the hash tells their preimages apart. -/
theorem claims_atMostOnce (sha256 : Bytes → Bytes32) (legacy : Option Bytes) (log : Bytes)
    (events : List Event) :
    (run sha256 legacy log events).granted.Nodup ∧
      (∀ c ∈ (run sha256 legacy log events).granted, ∀ sessions,
        legacySessions sha256 legacy = .ok sessions → c.2 ∉ sessions) ∧
      ∀ claims : Set Claim, Set.InjOn sha256 (Claim.preimage '' claims) →
        Set.InjOn (Claim.key sha256) claims := by
  have hsound := sound_run sha256 legacy log events
  refine ⟨hsound.once, hsound.fresh, ?_⟩
  intro _ hinj c hc _ hc' hkeys
  apply preimage_injective
  exact hinj (Set.mem_image_of_mem _ hc) (Set.mem_image_of_mem _ hc') hkeys

end Catomicals.CbMpcSigner
