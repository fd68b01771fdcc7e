import Catomicals.Base.Bytes
import Catomicals.Base.Cooperative
import Catomicals.Base.Rows
import Catomicals.Base.Table

/-!
# The bridge for agents

`desktop/src/cordis/agent-bridge.ts`. A request is admitted with the token of its session, waits for
its body, and then calls the host without another look at the token.
-/
namespace Catomicals.Desktop

open Base Rows

/-- An identity that passes `assertSessionIdentity`, for its `sessionKey`. -/
structure AgentSessionIdentity where
  (executorSessionId protocolSessionId : String)
  deriving DecidableEq

structure TokenRecord extends AgentSessionIdentity where
  digest : Bytes32
  expiresAtMs : ℤ

structure AgentRequest where
  /-- whether it passes the checks that come before its token -/
  accepted : Bool
  /-- `tokenFromRequest` -/
  token : Option String
  /-- whether its content type is JSON -/
  json : Bool

structure AgentBridgeOptions where
  tokenLifetimeMs : ℤ
  maxSessionTokens : ℕ
  digestToken : String → Bytes32

structure AgentBridge where
  tokens : Rows TokenRecord.digest
  sessionTokens : Table AgentSessionIdentity Bytes32
  nextTokenSweepAtMs : ℤ
  closed : Bool

namespace AgentBridge

inductive Call where
  | request (r : AgentRequest) (now : ℤ)
  | issueSessionToken (identity : AgentSessionIdentity) (now : ℤ) (token : String)
  | revokeSession (identity : AgentSessionIdentity)
  | close

/-- The end of `readBody`: whether the route's arguments can be parsed, and the time. -/
structure Body where
  valid : Bool
  now : ℤ

def deleteToken (s : AgentBridge) (record : TokenRecord) : AgentBridge :=
  let key := record.toAgentSessionIdentity
  { s with
    tokens := s.tokens.deleteWhere (·.digest = record.digest)
    sessionTokens := if s.sessionTokens.get key = some record.digest then s.sessionTokens.delete key
      else s.sessionTokens }

variable (O : AgentBridgeOptions)

def sweepExpiredTokens (now : ℤ) (s : AgentBridge) : AgentBridge :=
  if now < s.nextTokenSweepAtMs then s
  else { s.tokens.rows.foldl (fun s r => if r.expiresAtMs ≤ now then s.deleteToken r else s) s with
    nextTokenSweepAtMs := now + min O.tokenLifetimeMs 60000 }

variable (identity : AgentSessionIdentity)

/-- `tokens.delete` for the token of a session. -/
def dropSessionToken (s : AgentBridge) : AgentBridge :=
  { s with tokens := s.tokens.deleteWhere fun r => s.sessionTokens.get identity = some r.digest }

/-- Tokens are drawn until one is new; it is the argument here. -/
def issueSessionToken (now : ℤ) (token : String) (s : AgentBridge) : AgentBridge :=
  if s.closed then s
  else
    let s := dropSessionToken identity (sweepExpiredTokens O now s)
    if s.tokens.rows.length < O.maxSessionTokens then
      { s with
        tokens := s.tokens.put ⟨identity, O.digestToken token, now + O.tokenLifetimeMs⟩
        sessionTokens := s.sessionTokens.put identity (O.digestToken token) }
    else s

def revokeSession (s : AgentBridge) : AgentBridge :=
  { dropSessionToken identity s with sessionTokens := s.sessionTokens.delete identity }

/-- The maps are cleared again when the requests are done, and are still empty then. -/
def close (s : AgentBridge) : AgentBridge :=
  { s with closed := true, tokens := .empty, sessionTokens := .empty }

/-- A request that goes on waits for its body, with its token's digest. -/
def handleRequest (r : AgentRequest) (now : ℤ) (s : AgentBridge) : AgentBridge × List Bytes32 :=
  if s.closed = false ∧ r.accepted then
    match r.token.bind fun token => s.tokens.get (O.digestToken token) with
    | none => (s, [])
    | some record =>
      if record.expiresAtMs ≤ now then (s.deleteToken record, [])
      -- a token has all scopes, so that its scopes allow every route
      else if r.json then (s, [record.digest])
      else (s, [])
  else (s, [])

def call : Call → AgentBridge → AgentBridge × List Bytes32
  | .request r now => handleRequest O r now
  | .issueSessionToken identity now token => fun s => (issueSessionToken O identity now token s, [])
  | .revokeSession identity => fun s => (revokeSession identity s, [])
  | .close => fun s => (close s, [])

/-- With its body a request calls the host at once, whatever became of the bridge. -/
def program : Program AgentBridge Call Bytes32 Body := ⟨call O, fun _ _ s => some (s, [])⟩

/-- The token with which an event has the host called, and the time. -/
def invocation (c : Config AgentBridge Bytes32) : Event Call Body → Option (Bytes32 × ℤ)
  | .resume i ⟨true, now⟩ => c.waiting[i]?.map (·, now)
  | _ => none

def expired (s : AgentBridge) (digest : Bytes32) (now : ℤ) : Bool :=
  (s.tokens.get digest).any (·.expiresAtMs ≤ now)

/-- Whether a call takes a token away. -/
def ends (s : AgentBridge) (digest : Bytes32) : Call → Bool
  | .request r now => r.token.map O.digestToken = some digest && s.expired digest now
  | .issueSessionToken identity now _ =>
    s.expired digest now || s.sessionTokens.get identity = some digest
  | .revokeSession identity => s.sessionTokens.get identity = some digest
  | .close => true

/-- No call ends the token of a waiting request, and no body arrives after its expiry. -/
def undisturbed (c : Config AgentBridge Bytes32) : Event Call Body → Bool
  | .call x => c.waiting.all fun digest => !ends O c.shared digest x
  | .resume i body => c.waiting[i]?.all fun digest => !c.shared.expired digest body.now

/-- The bridge is open and the token is one of it. -/
def Holds (s : AgentBridge) (digest : Bytes32) : Prop :=
  s.closed = false ∧ (s.tokens.get digest).isSome
  deriving Decidable

variable {O} {s : AgentBridge} {digest : Bytes32}

section

variable (h : s.Holds digest)
include h

/-- Only its own deletion takes a token away. -/
lemma Holds.deleteWhere {p : TokenRecord → Bool} (hp : ∀ r ∈ s.tokens.get digest, p r = false) :
    { s with tokens := s.tokens.deleteWhere p }.Holds digest := by
  obtain ⟨r, hr⟩ := Option.isSome_iff_exists.mp h.2
  refine ⟨h.1, ?_⟩
  simp [hr, hp r hr]

lemma Holds.deleteToken {record : TokenRecord}
    (hne : digest ≠ record.digest) : (s.deleteToken record).Holds digest := by
  refine h.deleteWhere fun r hr => ?_
  rw [key_of_get hr]
  exact decide_eq_false hne

lemma Holds.dropSessionToken {identity : AgentSessionIdentity}
    (hother : s.sessionTokens.get identity ≠ some digest) :
    (dropSessionToken identity s).Holds digest := by
  refine h.deleteWhere fun r hr => ?_
  rw [key_of_get hr]
  exact decide_eq_false hother

/-- A sweep takes only expired tokens away, and enters none for a session. -/
lemma Holds.sweepExpiredTokens {now : ℤ} {identity : AgentSessionIdentity}
    (hlive : s.expired digest now = false) (hother : s.sessionTokens.get identity ≠ some digest) :
    (sweepExpiredTokens O now s).Holds digest ∧
      (sweepExpiredTokens O now s).sessionTokens.get identity ≠ some digest := by
  rw [AgentBridge.sweepExpiredTokens]
  split_ifs
  · exact ⟨h, hother⟩
  · refine List.foldlRecOn (motive := fun t : AgentBridge =>
      t.Holds digest ∧ t.sessionTokens.get identity ≠ some digest) s.tokens.rows _ ⟨h, hother⟩ ?_
    intro t ht r hr
    split_ifs with hexp
    · refine ⟨ht.1.deleteToken ?_, ?_⟩
      · rintro rfl
        simp [expired, get_of_mem hr, hexp] at hlive
      · simp only [AgentBridge.deleteToken]
        split_ifs
        · rw [Table.get_delete]
          split_ifs
          · simp
          · exact ht.2
        · exact ht.2
    · exact ht

end

lemma handleRequest_cases (O : AgentBridgeOptions) (s : AgentBridge) (r : AgentRequest) (now : ℤ) :
    (∃ admitted, handleRequest O r now s = (s, admitted) ∧ ∀ d ∈ admitted, s.Holds d) ∨
      ∃ record, r.token.map O.digestToken = some record.digest ∧
        s.expired record.digest now = true ∧
          handleRequest O r now s = (s.deleteToken record, []) := by
  have hnone : ∀ d ∈ ([] : List Bytes32), s.Holds d := by simp
  rw [handleRequest]
  split
  · rename_i hopen
    split
    · exact .inl ⟨[], rfl, hnone⟩
    · rename_i record hfound
      obtain ⟨_, htoken, hget⟩ := Option.bind_eq_some_iff.mp hfound
      have hkey := key_of_get hget
      split_ifs with hexp
      · exact .inr ⟨record, by simp [htoken, hkey], by simp [expired, hkey, hget, hexp], rfl⟩
      · exact .inl ⟨[record.digest], rfl, by simp [Holds, hopen.1, hkey, hget]⟩
      · exact .inl ⟨[], rfl, hnone⟩
  · exact .inl ⟨[], rfl, hnone⟩

/-- A call keeps the tokens that it does not take away. -/
lemma Holds.call {x : Call} (h : s.Holds digest) (hx : ends O s digest x = false) :
    (call O x s).1.Holds digest := by
  cases x with
  | request r now =>
    simp only [AgentBridge.call]
    obtain ⟨_, hr, -⟩ | ⟨_, htoken, hexp, hr⟩ := handleRequest_cases O s r now
    · rw [hr]
      exact h
    · rw [hr]
      refine h.deleteToken ?_
      rintro rfl
      simp [ends, htoken, hexp] at hx
  | issueSessionToken =>
    simp only [ends, Bool.or_eq_false_iff, decide_eq_false_iff_not] at hx
    obtain ⟨hswept, hother⟩ := h.sweepExpiredTokens (O := O) hx.1 hx.2
    have hdrop := hswept.dropSessionToken hother
    simp only [AgentBridge.call, issueSessionToken, h.1, Bool.false_eq_true, if_false]
    split_ifs
    · refine ⟨hdrop.1, ?_⟩
      rw [get_put]
      split_ifs
      · rfl
      · exact hdrop.2
    · exact hdrop
  | revokeSession => exact h.dropSessionToken (of_decide_eq_false hx)
  | close => cases hx

variable (O) (events : List (Event Call Body))

/-- The bridge and its waiting requests after the first events of a run. -/
def after (n : ℕ) : Config AgentBridge Bytes32 :=
  (program O).run ⟨⟨.empty, .empty, 0, false⟩, []⟩ (events.take n)

/-- Whenever the host is called, the bridge is open and has the request's token, unexpired. -/
def FreshInvocations : Prop :=
  ∀ n e digest now, events[n]? = some e →
    invocation (after O events n) e = some (digest, now) →
    (after O events n).shared.Holds digest ∧ (after O events n).shared.expired digest now = false

/-- The host is called for fresh tokens only, if no call ends the token of a waiting request and its
body arrives before it expires. -/
theorem freshInvocations_of_undisturbed (events : List (Event Call Body))
    (h : ∀ n e, events[n]? = some e → undisturbed O (after O events n) e = true) :
    FreshInvocations O events := by
  have hholds : ∀ n, ∀ digest ∈ (after O events n).waiting,
      (after O events n).shared.Holds digest := by
    apply Program.run_keeps (P := program O)
      (I := fun c => ∀ digest ∈ c.waiting, c.shared.Holds digest)
      (C := fun c e => undisturbed O c e = true) (by simp) _ h
    apply Program.step_keeps
    · intro c x hc hx digest hmem
      simp only [undisturbed, List.all_eq_true, Bool.not_eq_true'] at hx
      rcases List.mem_append.mp hmem with hold | hnew
      · exact (hc digest hold).call (hx digest hold)
      -- requests are admitted with tokens of the bridge only
      · cases x with
        | request r now =>
          obtain ⟨_, hr, hholds⟩ | ⟨_, -, -, hr⟩ := handleRequest_cases O c.shared r now
          · simp only [program, call, hr] at hnew ⊢
            exact hholds digest hnew
          · simp [program, call, hr] at hnew
        | issueSessionToken | revokeSession | close => cases hnew
    · rintro _ i _ _ _ - hr hc - digest hmem
      cases hr
      simp only [Config.after, List.append_nil] at hmem
      exact hc digest (List.mem_of_mem_eraseIdx hmem)
  intro n e digest _ he hcalled
  have hfresh := h n e he
  cases e with
  | call => cases hcalled
  | resume i body =>
    obtain ⟨_ | _, _⟩ := body
    · cases hcalled
    · obtain ⟨_, hd, heq⟩ := Option.map_eq_some_iff.mp hcalled
      cases heq
      refine ⟨hholds n digest (List.mem_of_getElem? hd), ?_⟩
      simpa [undisturbed, hd] using hfresh

/-- Tokens are told apart by their first 32 characters. -/
def sampleOptions : AgentBridgeOptions :=
  ⟨1000, 1, fun token => (Bytes32.ofBytes (token.toUTF8.toList.take 32)).getD .zeros⟩

def sampleToken : String := String.ofList (List.replicate 43 'A')

def sampleIdentity : AgentSessionIdentity := ⟨"executor", "2f0a5ac1-9a46-4c9e-8a53-0d1f6f3c7b11"⟩

/-- A request that waits for its body, and what happens then. -/
def waitsFor (rest : List (Event Call Body)) : List (Event Call Body) :=
  .call (.issueSessionToken sampleIdentity 0 sampleToken) ::
    .call (.request ⟨true, some sampleToken, true⟩ 1) :: rest

def calledEvents : List (Event Call Body) := waitsFor [.resume 0 ⟨true, 2⟩]

theorem freshInvocations_called : FreshInvocations sampleOptions calledEvents ∧
    invocation (after sampleOptions calledEvents 2) (.resume 0 ⟨true, 2⟩) =
      some (.replicate 65, 2) := by
  have hsteps : ∀ n < calledEvents.length, ∀ e ∈ calledEvents[n]?,
      undisturbed sampleOptions (after sampleOptions calledEvents n) e = true := by decide +kernel
  refine ⟨?_, by decide +kernel⟩
  apply freshInvocations_of_undisturbed
  intro n e he
  exact hsteps n (List.getElem?_eq_some_iff.mp he).1 e he

/-- The host is called for a session that has been revoked meanwhile. -/
theorem not_freshInvocations_revoked : ¬FreshInvocations sampleOptions
    (waitsFor [.call (.revokeSession sampleIdentity), .resume 0 ⟨true, 2⟩]) := by
  intro h
  have hheld := (h 3 _ (.replicate 65) 2 rfl (by decide +kernel)).1
  revert hheld
  decide +kernel

end AgentBridge

end Catomicals.Desktop
