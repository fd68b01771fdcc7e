import Catomicals.Sessions.Log

/-!
# What a scan keeps

A scan stops collecting at its first issue. The bytes up to the offset it reports are therefore a
log without a torn tail (`Committed`), and such a log stays one when numbered events are written
behind it.
-/
namespace Catomicals.Sessions

open Base

variable {J : Json} {s : SessionLogScanner}

namespace SessionLogScanner

/-- No issue was found, and everything read so far is kept. -/
def Clean (s : SessionLogScanner) : Prop := s.issue = none ∧ s.committedBytes = s.inputBytes

def take (J : Json) (s : SessionLogScanner) (events : List SessionEvent) : SessionLogScanner :=
  { s with
    events := s.events ++ events
    inputBytes := s.inputBytes + (eventLines J events).length
    committedBytes := s.inputBytes + (eventLines J events).length
    eventLine := s.eventLine + events.length }

lemma consumeEventLine_stringify {event : SessionEvent} (hs : s.Clean)
    (hseq : event.seq = s.events.length) :
    s.consumeEventLine J (J.stringify event) = .ok (s.take J [event]) := by
  simp only [consumeEventLine, J.parse_stringify]
  rw [if_pos ⟨hs.1, hseq⟩]
  simp [advance, push, take, eventLines, Nat.add_assoc]

theorem foldlM_stringify {events : List SessionEvent} (hs : s.Clean)
    (hnum : Numbered s.events.length events) :
    (events.map J.stringify).foldlM (consumeEventLine J) s = .ok (s.take J events) := by
  induction events generalizing s with
  | nil =>
    have hcomd := hs.2
    cases s
    simp_all [take, eventLines, pure, Except.pure]
  | cons event _ ih =>
    obtain ⟨hseq, hrest⟩ := numbered_cons.mp hnum
    have hstep := consumeEventLine_stringify (J := J) hs hseq
    have hclean : (s.take J [event]).Clean := ⟨hs.1, rfl⟩
    rw [List.map_cons, List.foldlM_cons, hstep]
    simp only [bind, Except.bind]
    rw [ih hclean (by simpa [take] using hrest)]
    simp [take, eventLines, Nat.add_assoc, Nat.add_comm 1]

variable {s t : SessionLogScanner}

lemma consumeEventLine_cases {line : Bytes} (h : s.consumeEventLine J line = .ok t) :
    (∃ event, s.issue = none ∧ event.seq = s.events.length ∧ t = (s.advance line).push event) ∨
      (t.issue.isSome ∧ t.events = s.events ∧ t.committedBytes = s.committedBytes) := by
  have hnote : ∀ issue, ((s.advance line).noteIssue issue).issue.isSome ∧
      ((s.advance line).noteIssue issue).events = s.events ∧
      ((s.advance line).noteIssue issue).committedBytes = s.committedBytes := by
    intro _
    simp [noteIssue, advance]
  simp only [consumeEventLine] at h
  split at h
  · cases h
    exact .inr (hnote _)
  · cases h
  · cases h
    exact .inr (hnote _)
  · simp only [skip] at h
    split_ifs at h
    cases h
    exact .inr (hnote _)
  next event _ =>
    split_ifs at h with hnext
    · cases h
      exact .inl ⟨event, hnext.1, hnext.2, rfl⟩
    · simp only [skip] at h
      split_ifs at h
      cases h
      exact .inr (hnote _)

lemma foldlM_of_issue {lines : List Bytes} (hs : s.issue.isSome)
    (h : lines.foldlM (consumeEventLine J) s = .ok t) :
    t.events = s.events ∧ t.committedBytes = s.committedBytes := by
  induction lines generalizing s with
  | nil =>
    cases h
    exact ⟨rfl, rfl⟩
  | cons _ _ ih =>
    rw [List.foldlM_cons, bind_eq_ok] at h
    obtain ⟨u, hu, hrest⟩ := h
    obtain ⟨event, hnone, -, -⟩ | ⟨hissue, hevents, hcomd⟩ := consumeEventLine_cases hu
    · simp [hnone] at hs
    · obtain ⟨he, hc⟩ := ih hissue hrest
      exact ⟨he.trans hevents, hc.trans hcomd⟩

/-- The scanner has read the given lines and kept all of them. -/
structure Reads (J : Json) (s : SessionLogScanner) (lines : List Bytes) (t : SessionLogScanner) :
    Prop where
  fold : lines.foldlM (consumeEventLine J) s = .ok t
  clean : t.Clean
  bytes : t.inputBytes = s.inputBytes + (joinRecords newline lines).length
  numbered : Numbered 0 s.events → Numbered 0 t.events

lemma Reads.refl (hs : s.Clean) : Reads J s [] s := ⟨rfl, hs, by simp, id⟩

theorem exists_reads_of_foldlM {lines : List Bytes} (hs : s.Clean)
    (h : lines.foldlM (consumeEventLine J) s = .ok t) :
    ∃ kept rest u, lines = kept ++ rest ∧ Reads J s kept u ∧ u.events = t.events ∧
      u.committedBytes = t.committedBytes := by
  induction lines generalizing s with
  | nil =>
    cases h
    exact ⟨[], [], t, rfl, .refl hs, rfl, rfl⟩
  | cons line lines ih =>
    rw [List.foldlM_cons, bind_eq_ok] at h
    obtain ⟨v, hv, hrest⟩ := h
    obtain ⟨event, hnone, hseq, rfl⟩ | ⟨hissue, hevents, hcomd⟩ := consumeEventLine_cases hv
    · have hclean : ((s.advance line).push event).Clean := ⟨hs.1, rfl⟩
      obtain ⟨kept, rest, u, rfl, hreads, he, hc⟩ := ih hclean hrest
      refine ⟨line :: kept, rest, u, rfl, ⟨?_, hreads.clean, ?_, ?_⟩, he, hc⟩
      · rw [List.foldlM_cons, hv]
        exact hreads.fold
      · rw [hreads.bytes]
        simp only [push, advance, joinRecords_cons, List.length_append, List.length_cons]
        omega
      · intro hnum
        apply hreads.numbered
        simp [push, advance, hnum, hseq]
    · obtain ⟨he, hc⟩ := foldlM_of_issue hissue hrest
      exact ⟨[], line :: lines, s, rfl, .refl hs, (he.trans hevents).symm, (hc.trans hcomd).symm⟩

end SessionLogScanner

open SessionLogScanner in
/-- The file is a header and lines for exactly the given events. -/
structure Committed (J : Json) (file : Bytes) (header : SessionHeader)
    (events : List SessionEvent) : Prop where
  numbered : Numbered 0 events
  lines : ∃ headerRecord lines s,
    file = joinRecords newline (headerRecord :: lines) ∧
    (∀ r ∈ headerRecord :: lines, newline ∉ r) ∧
    parseHeaderRecord J headerRecord = .ok header ∧
    Reads J ⟨[], headerRecord.length + 1, headerRecord.length + 1, 0, none⟩ lines s ∧
    s.events = events

namespace Committed

open SessionLogScanner

variable {file : Bytes} {header : SessionHeader} {events : List SessionEvent}
  (h : Committed J file header events)
include h

theorem scanLog : scanLog J file = .ok ⟨header, events, file.length⟩ := by
  obtain ⟨headerRecord, lines, s, rfl, hclean, hhdr, hreads, rfl⟩ := h.lines
  have hrecs : records newline (joinRecords newline (headerRecord :: lines)) =
      headerRecord :: lines := by
    simpa using records_joinRecords_append hclean []
  have hbytes : s.committedBytes = (joinRecords newline (headerRecord :: lines)).length := by
    rw [hreads.clean.2, hreads.bytes]
    simp only [joinRecords_cons, List.length_append, List.length_cons]
    omega
  simp only [Sessions.scanLog, hrecs, hhdr, hreads.fold, bind, Except.bind, pure,
    Except.pure, hbytes]

theorem append {batch : List SessionEvent} (hbatch : Numbered events.length batch) :
    Committed J (file ++ eventLines J batch) header (events ++ batch) := by
  obtain ⟨headerRecord, lines, s, rfl, hclean, hhdr, hreads, rfl⟩ := h.lines
  refine ⟨?_, headerRecord, lines ++ batch.map J.stringify, s.take J batch, ?_, ?_, hhdr,
    ⟨?_, ⟨hreads.clean.1, rfl⟩, ?_, ?_⟩, rfl⟩
  · rw [numbered_append, Nat.zero_add]
    exact ⟨h.numbered, hbatch⟩
  · rw [eventLines, ← joinRecords_append, List.cons_append]
  · intro r hr
    rw [← List.cons_append, List.mem_append, List.mem_map] at hr
    obtain hr | ⟨event, -, rfl⟩ := hr
    · exact hclean r hr
    · exact J.newline_notMem_stringify event
  · rw [List.foldlM_append, hreads.fold]
    exact foldlM_stringify hreads.clean hbatch
  · simp only [take, hreads.bytes, joinRecords_append, List.length_append, eventLines]
    omega
  · intro _
    simp only [take, numbered_append, Nat.zero_add]
    exact ⟨h.numbered, hbatch⟩

end Committed

lemma committed_header (J : Json) {header : SessionHeader}
    (h : header.version = sessionFormatVersion) :
    Committed J (joinRecords newline [J.stringifyHeader header]) header [] := by
  refine ⟨numbered_nil 0, J.stringifyHeader header, [], _, rfl, ?_, ?_, .refl ⟨rfl, rfl⟩, rfl⟩
  · simpa using J.newline_notMem_stringifyHeader header
  · simp [parseHeaderRecord, J.parseHeader_stringifyHeader, h]

/-- What a scan keeps is a log without a torn tail. -/
theorem committed_of_scanLog {file : Bytes} {scan : SessionLogScan}
    (h : scanLog J file = .ok scan) :
    Committed J (file.take scan.committedBytes) scan.header scan.events ∧
      scan.committedBytes ≤ file.length := by
  rw [scanLog] at h
  split at h
  · cases h
  next headerRecord lines hrecs =>
    simp only [ok_iff] at h
    obtain ⟨header, hhdr, t, hfold, rfl⟩ := h
    obtain ⟨kept, rest, u, rfl, hreads, hevents, hcomd⟩ :=
      SessionLogScanner.exists_reads_of_foldlM ⟨rfl, rfl⟩ hfold
    -- the file is what was kept, then the other lines, then the unterminated rest
    have hfile : joinRecords newline (headerRecord :: kept) ++
        (joinRecords newline rest ++ remainder newline file) = file := by
      rw [← List.append_assoc, ← joinRecords_append, List.cons_append, ← hrecs]
      exact joinRecords_records_append file
    have hbytes : t.committedBytes = (joinRecords newline (headerRecord :: kept)).length := by
      rw [← hcomd, hreads.clean.2, hreads.bytes]
      simp only [joinRecords_cons, List.length_append, List.length_cons]
      omega
    have htake : file.take t.committedBytes = joinRecords newline (headerRecord :: kept) := by
      rw [hbytes, ← hfile, List.take_left']
      rfl
    refine ⟨⟨?_, headerRecord, kept, u, htake, ?_, hhdr, hreads, hevents⟩, ?_⟩
    · rw [← hevents]
      exact hreads.numbered (numbered_nil 0)
    · intro r hr
      have hmem : r ∈ records newline file := by
        rw [hrecs, ← List.cons_append]
        exact List.mem_append_left rest hr
      exact notMem_of_mem_records hmem
    · rw [hbytes, ← hfile]
      simp

end Catomicals.Sessions
