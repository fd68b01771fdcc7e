import Catomicals.Sessions.Coordinator

/-!
# What ends up in the log

A batch for a session that is only on disk is written behind the closers of whatever turn the log
leaves open. So the log is the repaired log with the batches, unless a turn is open between two
batches.
-/
namespace Catomicals.Sessions

open Base SessionCoordinator Encodable List Method

variable {J : Json} (events : List SessionEvent)

def repaired : List SessionEvent :=
  events ++ interruptedTurnClosers events

/-- The repaired log has no open turn, so nothing is asked of the first batch here. -/
theorem closers_repaired : interruptedTurnClosers (repaired events) = [] := by
  have hclosers : interruptedTurnClosers events = [] ∨ ∃ init time seq turn,
      interruptedTurnClosers events = init ++ [interruptedEnd time seq turn] := by
    unfold interruptedTurnClosers
    split
    · exact .inr ⟨_, _, _, _, rfl⟩
    · exact .inl rfl
  rcases hclosers with hnil | ⟨init, time, seq, turn, hends⟩
  · rw [repaired, hnil, append_nil, hnil]
  · have hstate : turnState (repaired events) = ⟨none, []⟩ := by
      rw [repaired, hends, turnState, ← append_assoc, foldl_append]
      rfl
    rw [interruptedTurnClosers, hstate]

def Supported : Prop :=
  ∀ event ∈ events, isSupported event = true

instance (events : List SessionEvent) : Decidable (Supported events) :=
  inferInstanceAs (Decidable (∀ event ∈ events, isSupported event = true))

lemma version_of_scanLog {file : Bytes} {scan : SessionLogScan}
    (h : scanLog J file = .ok scan) : scan.header.version = sessionFormatVersion := by
  rw [scanLog] at h
  split at h
  · cases h
  · simp only [ok_iff] at h
    obtain ⟨_, hhdr, _, -, rfl⟩ := h
    simp only [parseHeaderRecord] at hhdr
    split at hhdr
    · cases hhdr
    · split_ifs at hhdr with hvers
      cases hhdr
      exact hvers
    · split at hhdr
      · split_ifs at hhdr
      · cases hhdr

variable {events : List SessionEvent} {header : SessionHeader}

namespace SessionCoordinator

variable {c : SessionCoordinator} {id : SessionId} {file : Bytes} {scan : SessionLogScan}

lemma write_write (c : SessionCoordinator) (id : SessionId) (file file' : Bytes) :
    (c.write id file).write id file' = c.write id file' := by
  simp [write, Table.put_put]

lemma write_self (h : c.files.get id = some file) : c.write id file = c := by
  simp [write, Table.put_of_get_eq_some h]

/-- The session is on disk only, and its log can be read. -/
structure Stored (J : Json) (c : SessionCoordinator) (id : SessionId) (file : Bytes)
    (scan : SessionLogScan) : Prop where
  untracked : c.states.get id = none
  stored : c.files.get id = some file
  readable : scanLog J file = .ok scan
  own : scan.header.id = id

lemma assertEventsSupported_eq_ok (h : Supported events) :
    assertEventsSupported header events = .ok () := by
  have hnone : events.find? (!isSupported ·) = none := by
    rw [find?_eq_none]
    intro event hevent
    simp [h event hevent]
  rw [assertEventsSupported, hnone]

lemma loadStored_eq (h : Stored J c id file scan) :
    loadStored J id c = (.ok (some ⟨scan.header, scan.events,
      if scan.committedBytes < file.length then some scan.committedBytes else none⟩), c) := by
  simp [loadStored, Method.get, Method.lift, bind, h.stored, h.readable, h.own, require, pure]

lemma commitRepair_eq (J : Json) {offset : ℕ} (closers : List SessionEvent)
    (hfile : c.files.get header.id = some file) (hoffset : offset ≤ file.length) :
    commitRepair J header (if offset < file.length then some offset else none) closers c =
      (.ok (), c.write header.id (file.take offset ++ eventLines J closers)) := by
  have hcut : ∀ c : SessionCoordinator, c.files.get header.id = some (file.take offset) →
      (if closers.length > 0 then appendLines J header closers else pure () : Action Unit) c =
        (.ok (), c.write header.id (file.take offset ++ eventLines J closers)) := by
    intro c hc
    by_cases hclos : closers.length > 0
    · simp [hclos, appendLines, Method.modify, hc]
    · have hnil : closers = [] := by simpa using hclos
      simp [hnil, eventLines, pure, write_self hc]
  by_cases htorn : offset < file.length
  · have hrepair : (repair header offset : Action Unit) c =
        (.ok (), c.write header.id (file.take offset)) := by
      simp [repair, Method.modify, hfile]
    simp only [commitRepair, if_pos htorn]
    rw [bind_of_ok hrepair, hcut _ (by simp [write]), write_write]
  · have hwhole : file.take offset = file := take_of_length_le (by omega)
    simp only [commitRepair, if_neg htorn]
    exact hcut c (by rw [hfile, hwhole])

/-- Adopting a session leaves its repaired log on disk, and changes nothing else. -/
theorem adopt_eq (h : Stored J c id file scan) (hsupp : Supported scan.events) :
    ∃ file', adopt J id c =
        (.ok ⟨scan.header, (repaired scan.events).length, true⟩, c.write id file') ∧
      Committed J file' scan.header (repaired scan.events) := by
  obtain ⟨hkept, hoffset⟩ := committed_of_scanLog h.readable
  have hvers : assertVersion scan.header = .ok () :=
    require_eq_ok.mpr (version_of_scanLog h.readable)
  have hrepaired := hkept.append hkept.numbered.closers
  have hcommit := commitRepair_eq J (interruptedTurnClosers scan.events)
    (by rw [h.own]; exact h.stored) hoffset
  rw [h.own] at hcommit
  generalize hfile' : file.take scan.committedBytes ++
    eventLines J (interruptedTurnClosers scan.events) = file' at hrepaired hcommit
  have hagain : Stored J (c.write id file') id file'
      ⟨scan.header, repaired scan.events, file'.length⟩ :=
    ⟨h.untracked, by simp [write], hrepaired.scanLog, h.own⟩
  refine ⟨file', ?_, hrepaired⟩
  rw [adopt, bind_of_ok (loadStored_eq h), lift_bind_of_ok (orError_eq_ok.mpr rfl),
    lift_bind_of_ok (b := ()) (require_eq_ok.mpr h.own), lift_bind_of_ok hvers,
    lift_bind_of_ok (assertEventsSupported_eq_ok hsupp)]
  generalize htorn : (if scan.committedBytes < file.length then some scan.committedBytes else none :
    Option ℕ) = torn at hcommit ⊢
  split
  · rw [bind_of_ok hcommit, bind_of_ok (loadStored_eq hagain),
      lift_bind_of_ok (orError_eq_ok.mpr rfl)]
    rfl
  next hclean =>
    -- nothing is torn and no turn is open, so the repaired file is the file itself
    simp only [not_or, gt_iff_lt, Nat.not_lt, Nat.le_zero, length_eq_zero_iff] at hclean
    obtain ⟨hwhole, hclosed⟩ := hclean
    have hlen : file.length ≤ scan.committedBytes := by
      by_contra hlt
      rw [if_pos (Nat.not_le.mp hlt)] at htorn
      simp [← htorn] at hwhole
    have hsame : file' = file := by
      rw [← hfile', hclosed, take_of_length_le hlen]
      exact append_nil file
    rw [hsame, write_self h.stored, repaired, hclosed, append_nil]
    rfl

lemma assertContiguous_eq_ok {cursor : ℕ} (h : Numbered cursor events) :
    assertContiguous id cursor events = .ok () := by
  have hall : ∀ (n : ℕ) (events : List SessionEvent), Numbered (cursor + n) events →
      (events.zipIdx n).find? (fun e => e.1.seq ≠ cursor + e.2) = none := by
    intro n events
    induction events generalizing n with
    | nil => simp
    | cons _ _ ih =>
      intro hnum
      obtain ⟨hseq, hrest⟩ := numbered_cons.mp hnum
      rw [zipIdx_cons, find?_cons_of_neg (by simp [hseq])]
      exact ih (n + 1) hrest
  rw [assertContiguous, hall 0 events h]

lemma modify_advance_eq {count : ℕ} (h : c.states.get id = none) :
    (Method.modify fun c => c.advance id count : Action Unit) c = (.ok (), c) := by
  rw [Method.modify, advance]
  split
  · rfl
  next state hstate =>
    simp [h] at hstate

lemma appendBatch_eq {batch : List SessionEvent} (hfile : c.files.get header.id = some file)
    (hlog : Committed J file header events) (hbatch : Numbered events.length batch) :
    ∃ file', appendBatch J header batch true c = (.ok (), c.write header.id file') ∧
      Committed J file' header (events ++ batch) := by
  refine ⟨file ++ eventLines J batch, ?_, hlog.append hbatch⟩
  simp [appendBatch, appendLines, Method.modify, hfile]

section

variable (h : Stored J c id file scan)
include h

lemma stateOf_eq : stateOf J id c = adopt J id c := by
  simp only [stateOf, Method.get, bind, h.untracked]

theorem append_eq (hsupp : Supported scan.events)
    {batch : List SessionEvent} (hne : batch.length ≠ 0)
    (hbatch : Numbered (repaired scan.events).length batch) :
    ∃ file', append J id batch c = (.ok (), c.write id file') ∧
      Committed J file' scan.header (repaired scan.events ++ batch) := by
  obtain ⟨file₁, hadopt, hlog⟩ := adopt_eq h hsupp
  obtain ⟨file₂, hwrite, hlog'⟩ := appendBatch_eq (c := c.write id file₁)
    (by rw [h.own]; simp [write]) hlog hbatch
  rw [h.own, write_write] at hwrite
  refine ⟨file₂, ?_, hlog'⟩
  rw [append, if_neg hne, bind_of_ok ((stateOf_eq h).trans hadopt),
    lift_bind_of_ok (assertContiguous_eq_ok hbatch), bind_of_ok hwrite]
  exact modify_advance_eq h.untracked

theorem appendAuto_eq (hsupp : Supported scan.events)
    {partials : List EventDraft} (hne : partials.length ≠ 0) :
    ∃ file', appendAuto J id partials c =
        (.ok (assignSeqs (repaired scan.events).length partials), c.write id file') ∧
      Committed J file' scan.header
        (repaired scan.events ++ assignSeqs (repaired scan.events).length partials) := by
  obtain ⟨file₁, hadopt, hlog⟩ := adopt_eq h hsupp
  have hnum : Numbered (repaired scan.events).length (assignSeqs _ partials) :=
    numbered_mapIdx fun _ _ => rfl
  obtain ⟨file₂, hwrite, hlog'⟩ := appendBatch_eq (c := c.write id file₁)
    (by rw [h.own]; simp [write]) hlog hnum
  rw [h.own, write_write] at hwrite
  refine ⟨file₂, ?_, hlog'⟩
  rw [appendAuto, if_neg hne, bind_of_ok ((stateOf_eq h).trans hadopt), bind_of_ok hwrite]
  exact bind_of_ok (modify_advance_eq h.untracked)

end

/-- The two coordinators agree about a session. -/
def SameAt (id : SessionId) (c c' : SessionCoordinator) : Prop :=
  c'.states.get id = c.states.get id ∧ c'.files.get id = c.files.get id

section Frame

variable {other : SessionId}

lemma sameAt_write (h : id ≠ other) (c : SessionCoordinator) (file : Bytes) :
    SameAt other c (c.write id file) := by
  constructor
  · rfl
  · simp [write, h.symm]

lemma sameAt_advance (h : id ≠ other) (c : SessionCoordinator) (count : ℕ) :
    SameAt other c (c.advance id count) := by
  rw [advance]
  split
  · exact ⟨rfl, rfl⟩
  · constructor
    · simp [h.symm]
    · rfl

lemma SameAt.trans {c' c'' : SessionCoordinator} (h : SameAt id c c') (h' : SameAt id c' c'') :
    SameAt id c c'' :=
  ⟨h'.1.trans h.1, h'.2.trans h.2⟩

lemma loadStored_wp : (loadStored J id).wp (fun r c' =>
    c' = c ∧ ∀ stored, r = .ok (some stored) → stored.header.id = id) c := by
  simp only [loadStored, wp_iff]
  cases c.files.get id with
  | none => simp
  | some =>
    simp

section

variable (h : header.id ≠ other)
include h

lemma appendLines_wp : (appendLines J header events).wp (fun _ c' => SameAt other c c') c := by
  exact sameAt_write h c _

lemma appendBatch_wp {isMaterialized : Bool} :
    (appendBatch J header events isMaterialized).wp (fun _ c' => SameAt other c c') c := by
  simp only [appendBatch, wp_ite]
  refine ⟨fun _ => appendLines_wp h, fun _ => ?_⟩
  simp only [materialize, wp_iff]
  exact ⟨fun _ => sameAt_write h c _, fun _ => ⟨rfl, rfl⟩⟩

lemma commitRepair_wp {torn : Option ℕ} {closers : List SessionEvent} :
    (commitRepair J header torn closers).wp (fun _ c' => SameAt other c c') c := by
  have hclos : ∀ c₁, SameAt other c c₁ →
      (if closers.length > 0 then appendLines J header closers else pure () : Action Unit).wp
        (fun _ c' => SameAt other c c') c₁ := by
    intro _ hsame
    rw [wp_ite]
    constructor
    · intro _
      exact wp_mono (appendLines_wp h) fun _ _ hnext => hsame.trans hnext
    · intro _
      exact hsame
  cases torn with
  | none => exact hclos c ⟨rfl, rfl⟩
  | some =>
    exact hclos _ (sameAt_write h c _)

end

variable (h : id ≠ other)
include h

lemma adopt_wp : (adopt J id).wp (fun r c' =>
    SameAt other c c' ∧ ∀ state, r = .ok state → state.header.id = id) c := by
  have hfail : ∀ (e : SessionError) (c' : SessionCoordinator), SameAt other c c' →
      SameAt other c c' ∧ ∀ state : SessionState, Except.error e = .ok state →
        state.header.id = id := by
    intro e _ hsame
    exact ⟨hsame, by simp⟩
  have hrefl : SameAt other c c := ⟨rfl, rfl⟩
  simp only [adopt, wp_bind]
  refine wp_mono loadStored_wp ?_
  rintro (e | stored) _ ⟨rfl, -⟩
  · exact hfail e _ hrefl
  simp only [wp_iff, assertVersion]
  refine ⟨fun stored _ => ⟨fun hown => ⟨fun _ => ?_, fun _ => hfail _ _ hrefl⟩,
    fun _ => hfail _ _ hrefl⟩, fun _ => hfail _ _ hrefl⟩
  rw [wp_lift]
  cases assertEventsSupported stored.header stored.events with
  | error e => exact hfail e _ hrefl
  | ok =>
    simp only [wp_ite, wp_iff]
    refine ⟨fun _ => ?_, fun _ => ⟨hrefl, ?_⟩⟩
    · refine wp_mono (commitRepair_wp (hown ▸ h)) ?_
      rintro (e | _) c₁ hsame
      · exact hfail e c₁ hsame
      refine wp_mono loadStored_wp ?_
      rintro (e | _) _ ⟨rfl, hown'⟩
      · exact hfail e _ hsame
      refine ⟨fun found hfound => ⟨hsame, ?_⟩, fun _ => hfail _ _ hsame⟩
      intro state hstate
      cases hstate
      exact hown' found (by rw [hfound])
    · intro _ hstate
      cases hstate
      exact hown

lemma stateOf_wp : (stateOf J id).wp (fun r c' =>
    SameAt other c c' ∧ ∀ state, r = .ok state → state.header.id = id) c := by
  simp only [stateOf, wp_iff]
  cases hstate : c.states.get id with
  | none => exact adopt_wp h
  | some state =>
    refine ⟨⟨rfl, rfl⟩, ?_⟩
    intro _ hstate'
    cases hstate'
    exact c.keyed id state hstate

lemma append_wp : (append J id events).wp (fun _ c' => SameAt other c c') c := by
  simp only [append, wp_ite, wp_bind]
  refine ⟨fun _ => ⟨rfl, rfl⟩, fun _ => wp_mono (stateOf_wp h) ?_⟩
  rintro (e | state) _ ⟨hsame, hown⟩
  · exact hsame
  dsimp only
  rw [wp_lift]
  cases assertContiguous id state.cursor events with
  | error => exact hsame
  | ok =>
    refine wp_mono (appendBatch_wp (hown state rfl ▸ h)) ?_
    rintro (_ | _) c₂ hsame'
    · exact hsame.trans hsame'
    · exact (hsame.trans hsame').trans (sameAt_advance h c₂ _)

lemma appendAuto_wp {partials : List EventDraft} :
    (appendAuto J id partials).wp (fun _ c' => SameAt other c c') c := by
  simp only [appendAuto, wp_ite, wp_bind]
  refine ⟨fun _ => ⟨rfl, rfl⟩, fun _ => wp_mono (stateOf_wp h) ?_⟩
  rintro (e | state) _ ⟨hsame, hown⟩
  · exact hsame
  refine wp_mono (appendBatch_wp (hown state rfl ▸ h)) ?_
  rintro (_ | _) c₂ hsame'
  · exact hsame.trans hsame'
  · exact (hsame.trans hsame').trans (sameAt_advance h c₂ _)

end Frame

inductive Call where
  | append (id : SessionId) (events : List SessionEvent)
  | appendAuto (id : SessionId) (partials : List EventDraft)

namespace Call

def session : Call → SessionId
  | append id _ | appendAuto id _ => id

def count : Call → ℕ
  | append _ events => events.length
  | appendAuto _ partials => partials.length

def eventsAt (cursor : ℕ) : Call → List SessionEvent
  | append _ events => events
  | appendAuto _ partials => assignSeqs cursor partials

end Call

variable {call : Call} {calls : List Call} {log : List SessionEvent}

def step (J : Json) (c : SessionCoordinator) : Call → SessionCoordinator
  | .append id events => (append J id events c).2
  | .appendAuto id partials => (appendAuto J id partials c).2

def run (J : Json) (c : SessionCoordinator) (calls : List Call) : SessionCoordinator :=
  calls.foldl (step J) c

def extendLog (id : SessionId) (log : List SessionEvent) : List Call → List SessionEvent
  | [] => log
  | call :: calls =>
    if call.session = id then extendLog id (log ++ call.eventsAt log.length) calls
    else extendLog id log calls

/-- Submitted events continue the log, which has only known events and no open turn. -/
def Orderly (id : SessionId) (log : List SessionEvent) : List Call → Prop
  | [] => True
  | call :: calls =>
    if call.session = id ∧ call.count ≠ 0 then
      Numbered log.length (call.eventsAt log.length) ∧ Supported log ∧
        interruptedTurnClosers log = [] ∧ Orderly id (log ++ call.eventsAt log.length) calls
    else Orderly id log calls

instance decidableOrderly (id : SessionId) :
    (log : List SessionEvent) → (calls : List Call) → Decidable (Orderly id log calls)
  | _, [] => .isTrue trivial
  | log, call :: calls =>
    have := decidableOrderly id log calls
    have := decidableOrderly id (log ++ call.eventsAt log.length) calls
    inferInstanceAs (Decidable (ite _ _ _))

lemma step_of_count_eq_zero (h : call.count = 0) : step J c call = c := by
  cases call with
  | append _ events => simp only [step, append, if_pos (show events.length = 0 from h)]; rfl
  | appendAuto _ partials =>
    simp only [step, appendAuto, if_pos (show partials.length = 0 from h)]
    rfl

lemma eventsAt_of_count_eq_zero (h : call.count = 0) (cursor : ℕ) : call.eventsAt cursor = [] := by
  cases call with
  | append => exact length_eq_zero_iff.mp h
  | appendAuto _ partials =>
    have hnil : partials = [] := length_eq_zero_iff.mp h
    simp [Call.eventsAt, hnil, assignSeqs]

lemma step_other (h : call.session ≠ id) : SameAt id c (step J c call) := by
  cases call with
  | append => exact append_wp h
  | appendAuto => exact appendAuto_wp h

theorem step_stored (h : Stored J c call.session file scan) (hsupp : Supported scan.events)
    (hne : call.count ≠ 0)
    (hnum : Numbered (repaired scan.events).length (call.eventsAt (repaired scan.events).length)) :
    ∃ file', step J c call = c.write call.session file' ∧ Committed J file' scan.header
      (repaired scan.events ++ call.eventsAt (repaired scan.events).length) := by
  cases call with
  | append =>
    obtain ⟨file', heq, hlog⟩ := append_eq h hsupp hne hnum
    exact ⟨file', congrArg Prod.snd heq, hlog⟩
  | appendAuto =>
    obtain ⟨file', heq, hlog⟩ := appendAuto_eq h hsupp hne
    exact ⟨file', congrArg Prod.snd heq, hlog⟩

structure OnDisk (J : Json) (c : SessionCoordinator) (id : SessionId) (header : SessionHeader)
    (log : List SessionEvent) : Prop where
  untracked : c.states.get id = none
  own : header.id = id
  file : ∃ file, c.files.get id = some file ∧ Committed J file header log

lemma OnDisk.stored (h : OnDisk J c id header log) :
    ∃ file, Stored J c id file ⟨header, log, file.length⟩ := by
  obtain ⟨file, hfile, hlog⟩ := h.file
  exact ⟨file, h.untracked, hfile, hlog.scanLog, h.own⟩

section Skipped

section

variable (h : ¬(call.session = id ∧ call.count ≠ 0))
include h

lemma sameAt_step : SameAt id c (step J c call) := by
  by_cases hid : call.session = id
  · have hzero : call.count = 0 := by
      by_contra hne
      exact h ⟨hid, hne⟩
    rw [step_of_count_eq_zero hzero]
    exact ⟨rfl, rfl⟩
  · exact step_other hid

lemma extendLog_skip : extendLog id log (call :: calls) = extendLog id log calls := by
  rw [extendLog]
  split_ifs with hid
  · have hzero : call.count = 0 := by
      by_contra hne
      exact h ⟨hid, hne⟩
    rw [eventsAt_of_count_eq_zero hzero, append_nil]
  · rfl

end

lemma Stored.of_sameAt {c' : SessionCoordinator} (h : Stored J c id file scan)
    (hsame : SameAt id c c') : Stored J c' id file scan :=
  ⟨hsame.1.trans h.untracked, hsame.2.trans h.stored, h.readable, h.own⟩

lemma OnDisk.of_sameAt {c' : SessionCoordinator} (h : OnDisk J c id header log)
    (hsame : SameAt id c c') : OnDisk J c' id header log := by
  obtain ⟨file, hfile, hlog⟩ := h.file
  exact ⟨hsame.1.trans h.untracked, h.own, file, hsame.2.trans hfile, hlog⟩

end Skipped

lemma Stored.onDisk_step (h : Stored J c call.session file scan)
    (hsupp : Supported (repaired scan.events)) (hne : call.count ≠ 0)
    (hnum : Numbered (repaired scan.events).length (call.eventsAt (repaired scan.events).length)) :
    OnDisk J (step J c call) call.session scan.header
      (repaired scan.events ++ call.eventsAt (repaired scan.events).length) := by
  have hevents : Supported scan.events := fun event hevent =>
    hsupp event (mem_append_left _ hevent)
  obtain ⟨file', hstep, hlog⟩ := step_stored h hevents hne hnum
  rw [hstep]
  exact ⟨h.untracked, h.own, file', by simp [write], hlog⟩

lemma OnDisk.step (call : Call) (h : OnDisk J c call.session header log)
    (hsupp : Supported (repaired log)) (hne : call.count ≠ 0)
    (hnum : Numbered (repaired log).length (call.eventsAt (repaired log).length)) :
    OnDisk J (step J c call) call.session header
      (repaired log ++ call.eventsAt (repaired log).length) := by
  obtain ⟨_, hstored⟩ := h.stored
  exact hstored.onDisk_step hsupp hne hnum

theorem OnDisk.run (h : OnDisk J c id header log) (hord : Orderly id log calls) :
    OnDisk J (run J c calls) id header (extendLog id log calls) := by
  induction calls generalizing c log with
  | nil => exact h
  | cons call _ ih =>
    by_cases hmine : call.session = id ∧ call.count ≠ 0
    · rw [Orderly, if_pos hmine] at hord
      obtain ⟨hnum, hsupp, hclosed, hrest⟩ := hord
      obtain ⟨rfl, hne⟩ := hmine
      -- no turn is open, so the repair that this call makes changes nothing
      have hrepaired : repaired log = log := by
        rw [repaired, hclosed, append_nil]
      have hnext := h.step call (by rw [hrepaired]; exact hsupp) hne
        (by rw [hrepaired]; exact hnum)
      rw [hrepaired] at hnext
      rw [extendLog, if_pos rfl]
      exact ih hnext hrest
    · rw [Orderly, if_neg hmine] at hord
      rw [extendLog_skip hmine]
      exact ih (h.of_sameAt (sameAt_step hmine)) hord

/-- For a session on disk, orderly batches are appended in order to the repaired log, and nothing
else is written; without a submitted event the file is not touched. -/
theorem run_appends_batches {calls : List Call} (h : Stored J c id file scan)
    (horderly : Orderly id (repaired scan.events) calls) :
    ((∀ call ∈ calls, call.session = id → call.count = 0) →
      (run J c calls).files.get id = some file) ∧
    ((∃ call ∈ calls, call.session = id ∧ call.count ≠ 0) →
      ∃ file', (run J c calls).files.get id = some file' ∧ scanLog J file' =
        .ok ⟨scan.header, extendLog id (repaired scan.events) calls, file'.length⟩) := by
  induction calls generalizing c with
  | nil => exact ⟨fun _ => h.stored, by simp⟩
  | cons call _ ih =>
    by_cases hmine : call.session = id ∧ call.count ≠ 0
    · rw [Orderly, if_pos hmine] at horderly
      obtain ⟨hnum, hsupp, -, hrest⟩ := horderly
      obtain ⟨rfl, hne⟩ := hmine
      refine ⟨fun hnone => absurd (hnone call (by simp) rfl) hne, fun _ => ?_⟩
      have hrun := (h.onDisk_step hsupp hne hnum).run hrest
      obtain ⟨file', hfile, hlog⟩ := hrun.file
      rw [extendLog, if_pos rfl]
      exact ⟨file', hfile, hlog.scanLog⟩
    · rw [Orderly, if_neg hmine] at horderly
      obtain ⟨hnone, hsome⟩ := ih (h.of_sameAt (sameAt_step hmine)) horderly
      refine ⟨fun hcalls => hnone fun call' hcall' => hcalls call' (by simp [hcall']), ?_⟩
      rintro ⟨call', hcall', hmine'⟩
      rw [extendLog_skip hmine]
      obtain rfl | htail := mem_cons.mp hcall'
      · exact absurd hmine' hmine
      · exact hsome ⟨call', htail, hmine'⟩

section Example

/-- The laws can be met: an event is written as a number of zero bytes for its JSON. -/
def unaryJson : Json where
  parse text := some (((decode text.length : Option SessionEvent)).elim .other .event)
  stringify event := replicate (encode event) 0
  parseHeader text :=
    some (((decode text.length : Option SessionHeader)).elim (.other none "") .header)
  stringifyHeader header := replicate (encode header) 0
  parse_stringify event := by simp [encodek]
  newline_notMem_stringify event := by simp [mem_replicate, newline]
  parseHeader_stringifyHeader header := by simp [encodek]
  newline_notMem_stringifyHeader header := by simp [mem_replicate, newline]

def draft (body : EventBody) : EventDraft := ⟨0, body, false, none, none⟩

def emptyHeader : SessionHeader := ⟨1, "s", 0, none, ""⟩

def restarted : SessionCoordinator where
  states := .empty
  files := Table.empty.put "s" (joinRecords newline [unaryJson.stringifyHeader emptyHeader])
  keyed := by simp

lemma restarted_onDisk : OnDisk unaryJson restarted "s" emptyHeader [] where
  untracked := by simp [restarted]
  own := rfl
  file := ⟨_, by rw [restarted, Table.get_put, if_pos rfl], committed_header unaryJson rfl⟩

def wholeTurn : List Call :=
  [.appendAuto "s" [draft (.turnStart 1), draft (.turnEnd 1 .completed none)],
    .appendAuto "s" [draft (.plain .sessionTitle "title")]]

def splitTurn : List Call :=
  [.appendAuto "s" [draft (.turnStart 1)], .appendAuto "s" [draft (.turnEnd 1 .completed none)]]

theorem run_appends_batches_wholeTurn : ∃ file',
    (run unaryJson restarted wholeTurn).files.get "s" = some file' ∧ scanLog unaryJson file' =
      .ok ⟨emptyHeader, extendLog "s" [] wholeTurn, file'.length⟩ := by
  obtain ⟨_, hstored⟩ := restarted_onDisk.stored
  have hord : Orderly "s" (repaired []) wholeTurn := by decide
  exact (run_appends_batches hstored hord).2
    ⟨_, mem_cons_self, rfl, by decide⟩

/-- A turn that is submitted in two batches is closed as interrupted between them. -/
theorem run_closes_open_turn : ∃ file',
    (run unaryJson restarted splitTurn).files.get "s" = some file' ∧
    scanLog unaryJson file' = .ok ⟨emptyHeader,
      [⟨draft (.turnStart 1), 0⟩, interruptedEnd 0 1 1, ⟨draft (.turnEnd 1 .completed none), 2⟩],
      file'.length⟩ ∧
    extendLog "s" (repaired []) splitTurn =
      [⟨draft (.turnStart 1), 0⟩, ⟨draft (.turnEnd 1 .completed none), 1⟩] := by
  have hfirst := restarted_onDisk.step (.appendAuto "s" [draft (.turnStart 1)])
    (by decide) (by decide) (by decide)
  have hsnd := hfirst.step (.appendAuto "s" [draft (.turnEnd 1 .completed none)])
    (by decide) (by decide) (by decide)
  obtain ⟨file', hfile, hlog⟩ := hsnd.file
  refine ⟨file', ?_, ?_, by decide⟩
  · rw [run, splitTurn, foldl_cons, foldl_cons, foldl_nil]
    exact hfile
  · exact hlog.scanLog

end Example

end SessionCoordinator

end Catomicals.Sessions
