import Mathlib.Logic.Encodable.Basic
import Mathlib.Logic.Equiv.List
import Mathlib.Tactic.DeriveEncodable
import Catomicals.Base.Bytes
import Catomicals.Base.Outcome
import Catomicals.Base.Records

/-!
# The session log

A session is a JSONL file: a header line and one line for each event, numbered from zero. A scan
keeps the longest contiguous prefix of events and its end. `Json` says what is needed of the texts.
-/
namespace Catomicals.Sessions

open Base List

instance encodableChar : Encodable Char := .ofLeftInverse Char.toNat Char.ofNat Char.ofNat_toNat

instance encodableString : Encodable String :=
  .ofLeftInverse String.toList String.ofList fun _ => String.ofList_toList

abbrev SessionId := String

def sessionFormatVersion : ℤ := 1

/-- The header of a session; `details` is for the fields no function here reads. -/
structure SessionHeader where
  version : ℤ
  id : SessionId
  createdAt : ℕ
  cwd : Option String
  details : String
  deriving DecidableEq, Encodable

inductive TurnEndReason where
  | completed
  | aborted (reason : Option String)
  | error (message code : String)
  | maxTokens
  | interrupted
  deriving DecidableEq, Encodable

inductive ToolOutcome where
  | succeeded | failed | cancelled
  deriving DecidableEq, Encodable

structure ToolError where
  name : Option String
  code : String
  message : Option String
  deriving DecidableEq, Encodable

inductive MessagePart where
  | toolCall (toolCallId : String) (details : String)
  | other (json : String)
  deriving DecidableEq, Encodable

/-- The known event types whose data the log functions do not look into. -/
inductive PlainType where
  | userMessage | assistantChunk | requestHeader | sessionTitle | sessionArchive | todoWrite
  | sessionEndSeed
  deriving DecidableEq, Encodable

def PlainType.name : PlainType → String
  | .userMessage => "user/message"
  | .assistantChunk => "assistant/chunk"
  | .requestHeader => "request/header"
  | .sessionTitle => "session/title"
  | .sessionArchive => "session/archive"
  | .todoWrite => "todo/write"
  | .sessionEndSeed => "session/end-seed"

def knownSessionEventTypes : List String :=
  ["turn/start", "turn/end", "user/message", "assistant/message", "assistant/chunk", "tool/call",
    "tool/result", "request/header", "session/title", "session/archive", "todo/write",
    "session/end-seed"]

abbrev UnknownType := { type : String // type ∉ knownSessionEventTypes }

/-- The type of an event with its data; `details` and `data` are JSON texts. -/
inductive EventBody where
  | turnStart (turn : ℤ)
  | turnEnd (turn : ℤ) (reason : TurnEndReason) (durationMs : Option ℤ)
  | assistantMessage (parts : List MessagePart) (details : String)
  | toolCall (callId : String) (details : String)
  | toolResult (callId : String) (outcome : ToolOutcome) (error : Option ToolError)
      (details : String)
  | plain (type : PlainType) (data : String)
  | unknown (type : UnknownType) (data : String)
  deriving DecidableEq, Encodable

def EventBody.type : EventBody → String
  | .turnStart _ => "turn/start"
  | .turnEnd _ _ _ => "turn/end"
  | .assistantMessage _ _ => "assistant/message"
  | .toolCall _ _ => "tool/call"
  | .toolResult _ _ _ _ => "tool/result"
  | .plain type _ => type.name
  | .unknown type _ => type.val

inductive SurfaceOp where
  | append
  | replace (start stop : ℕ)
  deriving DecidableEq, Encodable

structure EventDraft where
  time : ℤ
  body : EventBody
  ignorable : Bool
  surfaceOp : Option SurfaceOp
  sourceEventSeqs : Option (List ℕ)
  deriving DecidableEq, Encodable

structure SessionEvent extends EventDraft where
  seq : ℕ
  deriving DecidableEq, Encodable

/-- The calls without a result as first seen, with the `tool/call` seq. -/
abbrev PendingCalls := List (String × Option ℕ)

namespace PendingCalls

variable (calls : PendingCalls)

def has (callId : String) : Bool := calls.any (·.1 = callId)

/-- A call that a message announces. -/
def announce : MessagePart → PendingCalls
  | .toolCall callId _ => if calls.has callId then calls else calls ++ [(callId, none)]
  | .other _ => calls

/-- A call that is started keeps its place. -/
def start (callId : String) (seq : ℕ) : PendingCalls :=
  if calls.has callId then calls.map fun c => if c.1 = callId then (callId, some seq) else c
  else calls ++ [(callId, some seq)]

def finish (callId : String) : PendingCalls :=
  calls.filter (·.1 ≠ callId)

end PendingCalls

/-- What a pass over the events keeps: the open turn and its pending calls. -/
structure TurnState where
  openTurn : Option ℤ
  pendingCalls : PendingCalls

def TurnState.next (s : TurnState) (event : SessionEvent) : TurnState :=
  match event.body with
  | .turnStart turn => ⟨some turn, []⟩
  | .turnEnd _ _ _ => ⟨none, []⟩
  | .assistantMessage parts _ => { s with pendingCalls := parts.foldl .announce s.pendingCalls }
  | .toolCall callId _ => { s with pendingCalls := s.pendingCalls.start callId event.seq }
  | .toolResult callId _ _ _ => { s with pendingCalls := s.pendingCalls.finish callId }
  | .plain _ _ | .unknown _ _ => s

def turnState (events : List SessionEvent) : TurnState := events.foldl .next ⟨none, []⟩

def cancelledResult (time : ℤ) (seq : ℕ) (call : String × Option ℕ) : SessionEvent where
  seq := seq
  time := time
  body := .toolResult call.1 .cancelled
    (some (if call.2.isSome then ⟨some "ToolOutcomeUnknownError", "TOOL_OUTCOME_UNKNOWN", none⟩
      else ⟨some "ToolNotStartedError", "TOOL_NOT_STARTED", none⟩)) ""
  ignorable := false
  surfaceOp := some .append
  sourceEventSeqs := call.2.map fun callSeq => [callSeq]

def interruptedEnd (time : ℤ) (seq : ℕ) (turn : ℤ) : SessionEvent where
  seq := seq
  time := time
  body := .turnEnd turn .interrupted none
  ignorable := false
  surfaceOp := none
  sourceEventSeqs := none

def interruptedTurnClosers (events : List SessionEvent) : List SessionEvent :=
  match (turnState events).openTurn, events.getLast? with
  | some turn, some last =>
    let calls := (turnState events).pendingCalls
    calls.mapIdx (fun i call => cancelledResult last.time (last.seq + 1 + i) call) ++
      [interruptedEnd last.time (last.seq + 1 + calls.length) turn]
  | _, _ => []

/-- What a line of the file parses to, as far as a scan looks at it. -/
inductive LineValue where
  | event (event : SessionEvent)
  -- an object with a string `type` whose `seq` is no natural number, given as a text
  | unsequenced (type seq : String)
  | null
  | other

/-- The first line as parsed: a header, or a value with its numeric `version` and `id` text. -/
inductive HeaderValue where
  | header (header : SessionHeader)
  | other (version : Option ℤ) (label : String)

def newline : UInt8 := 0x0A

/-- The JSON texts of headers and events, without line breaks; parsing gives back what was
written. -/
structure Json where
  parse : Bytes → Option LineValue
  stringify : SessionEvent → Bytes
  parseHeader : Bytes → Option HeaderValue
  stringifyHeader : SessionHeader → Bytes
  parse_stringify : ∀ event, parse (stringify event) = some (.event event)
  newline_notMem_stringify : ∀ event, newline ∉ stringify event
  parseHeader_stringifyHeader : ∀ header,
    parseHeader (stringifyHeader header) = some (.header header)
  newline_notMem_stringifyHeader : ∀ header, newline ∉ stringifyHeader header

/-- What a scan finds wrong with a line; the first finding ends the preserved prefix. -/
inductive ScanIssue where
  | unparsable (line : ℕ)
  | invalidRecord (line : ℕ)
  | seqGap (line expected : ℕ) (got : String)

inductive ScanError where
  | headerless | headerNotJson | notAHeader
  | foreignVersion (label : String) (version : ℤ)
  | corrupt (issue : ScanIssue)
  -- a field of `null` is read
  | typeError

/-- The state of a `SessionLogScanner`; `inputBytes` is the end of the last line consumed. -/
structure SessionLogScanner where
  events : List SessionEvent
  (inputBytes committedBytes eventLine : ℕ)
  issue : Option ScanIssue

namespace SessionLogScanner

variable (s : SessionLogScanner)

def noteIssue (issue : ScanIssue) : SessionLogScanner :=
  { s with issue := some (s.issue.getD issue) }

/-- A line that does not continue the prefix is skipped, unless a turn ends behind an issue. -/
def skip (issue : ScanIssue) (type : String) : Except ScanError SessionLogScanner :=
  if type = "turn/end" then .error (.corrupt (s.issue.getD issue)) else .ok (s.noteIssue issue)

def advance (line : Bytes) : SessionLogScanner :=
  { s with inputBytes := s.inputBytes + line.length + 1, eventLine := s.eventLine + 1 }

def push (event : SessionEvent) : SessionLogScanner :=
  { s with events := s.events ++ [event], committedBytes := s.inputBytes }

def consumeEventLine (J : Json) (s : SessionLogScanner) (line : Bytes) :
    Except ScanError SessionLogScanner :=
  let s := s.advance line
  match J.parse line with
  | none => .ok (s.noteIssue (.unparsable s.eventLine))
  | some .null => .error .typeError
  | some .other => .ok (s.noteIssue (.invalidRecord s.eventLine))
  | some (.unsequenced type seq) => s.skip (.seqGap s.eventLine s.events.length seq) type
  | some (.event event) =>
    if s.issue = none ∧ event.seq = s.events.length then .ok (s.push event)
    else s.skip (.seqGap s.eventLine s.events.length (toString event.seq)) event.body.type

end SessionLogScanner

structure SessionLogScan where
  header : SessionHeader
  events : List SessionEvent
  committedBytes : ℕ

def parseHeaderRecord (J : Json) (record : Bytes) : Except ScanError SessionHeader :=
  match J.parseHeader record with
  | none => .error .headerNotJson
  | some (.header header) =>
    if header.version = sessionFormatVersion then .ok header
    else .error (.foreignVersion header.id header.version)
  | some (.other version label) =>
    match version with
    | some version =>
      if version = sessionFormatVersion then .error .notAHeader
      else .error (.foreignVersion label version)
    | none => .error .notAHeader

/-- Read a buffer: the first line is the header, and a rest behind the last line break is left. -/
def scanLog (J : Json) (buffer : Bytes) : Except ScanError SessionLogScan :=
  match records newline buffer with
  | [] => .error .headerless
  | headerRecord :: lines => do
    let header ← parseHeaderRecord J headerRecord
    let start := headerRecord.length + 1
    let scanner ← lines.foldlM (SessionLogScanner.consumeEventLine J) ⟨[], start, start, 0, none⟩
    return ⟨header, scanner.events, scanner.committedBytes⟩

def eventLines (J : Json) (events : List SessionEvent) : Bytes :=
  joinRecords newline (events.map J.stringify)

/-- The sequence numbers count up from the given one. -/
def Numbered (n : ℕ) (events : List SessionEvent) : Prop :=
  events.map SessionEvent.seq = range' n events.length

instance (n : ℕ) (events : List SessionEvent) : Decidable (Numbered n events) :=
  inferInstanceAs (Decidable (_ = _))

@[simp] lemma numbered_nil (n : ℕ) : Numbered n [] := rfl

variable {n : ℕ} {events : List SessionEvent}

@[simp] lemma numbered_cons {event : SessionEvent} :
    Numbered n (event :: events) ↔ event.seq = n ∧ Numbered (n + 1) events := by
  simp [Numbered, range'_succ]

@[simp] lemma numbered_append {later : List SessionEvent} :
    Numbered n (events ++ later) ↔ Numbered n events ∧ Numbered (n + events.length) later := by
  induction events generalizing n with
  | nil => simp
  | cons _ events ih =>
    rw [cons_append, numbered_cons, ih, numbered_cons, and_assoc, length_cons,
      show n + 1 + events.length = n + (events.length + 1) by omega]

lemma numbered_mapIdx {α : Type} {f : ℕ → α → SessionEvent} {as : List α}
    (hf : ∀ i a, (f i a).seq = n + i) : Numbered n (as.mapIdx f) := by
  induction as generalizing n f with
  | nil => simp
  | cons a _ ih =>
    rw [mapIdx_cons, numbered_cons]
    refine ⟨hf 0 a, ih fun i b => ?_⟩
    rw [hf (i + 1) b]
    omega

lemma Numbered.seq_getLast {last : SessionEvent} (h : Numbered 0 events)
    (hlast : events.getLast? = some last) :
    last.seq + 1 = events.length := by
  obtain ⟨front, rfl⟩ := getLast?_eq_some_iff.mp hlast
  have hseq : Numbered 0 front ∧ last.seq = front.length := by
    simpa using h
  simp [hseq.2]

theorem Numbered.closers (h : Numbered 0 events) :
    Numbered events.length (interruptedTurnClosers events) := by
  simp only [interruptedTurnClosers]
  split
  next turn last _ hlast =>
    have hnext := h.seq_getLast hlast
    rw [numbered_append]
    constructor
    · apply numbered_mapIdx
      intro i _
      rw [← hnext]
      rfl
    · simp [interruptedEnd, ← hnext]
  · simp

end Catomicals.Sessions
