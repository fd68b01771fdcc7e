import Catomicals.ThresholdSigner.NonceUse
import Catomicals.WalletCore.Approval

/-!
# Approvals by a wallet node

The gate remembers the approval nonce before the store completes the approval, so an approval that
fails in the store cannot be repeated as long as the gate lives; and a node that is started again
only takes up the intents with a CovHub binding.
-/
namespace Catomicals.WalletCore

open Base Domain Method InMemoryWalletStore WalletStorage

/-- The authorization id and the token drawn for an approval. -/
structure ApprovalDraw where
  authorizationId : Uuid
  token : Bytes32

structure WalletApi (W : WalletStorePort) where
  store : W.State
  gate : AuthorizationGate

namespace WalletApi

variable {W : WalletStorePort}

def intent (w : WalletApi W) (id : Uuid) : Option SigningIntent := W.getIntent w.store id

def onStore {α : Type} (x : Method W.State WalletStoreError α) :
    Method (WalletApi W) WalletError α :=
  zoom store (fun w s => { w with store := s }) .store x

def readIntent (id : Uuid) : Method (WalletApi W) WalletError SigningIntent := do
  let w ← get
  lift (orError (w.intent id) .notFound)

def submitVerified {S : NodeSuite} (id : Uuid) (approval : VerifiedPasskeyApproval S)
    (completion : ApprovalCompletionState) (now : Time) (token : Bytes32) :
    Method (WalletApi W) WalletError (SigningAuthorization × AuthorizationState) := do
  let intent ← readIntent id
  lift (require (approval.intentId = intent.id ∧ approval.signerId = intent.signerId ∧
    approval.sessionId = intent.sessionId ∧ approval.message = intent.txDigest ∧
    approval.expiresAt ≤ intent.expiry) (.gate .approvalMismatch))
  lift (require (intent.status ≠ .approved ∧ intent.status ≠ .signing ∧
    intent.status ≠ .signed) .alreadyApproved)
  let authorization ← zoom gate (fun w gate => { w with gate := gate }) .gate
    (AuthorizationGate.authorizeVerified S.sha256 intent approval.intentDigest now token)
  let persisted ← onStore (W.completeApproval completion)
  return (authorization, persisted)

end WalletApi

inductive SigningPhase where
  | pendingApproval | approved | signing | roundOneReady | shareProduced | signed | cancelled
  | expired

structure ApprovalFinishResponse where
  intentId : Uuid
  signerId : UInt16
  approved : Bool
  expiresAt : Time
  deriving DecidableEq

/-- The node service, with the requests that its intents were made from. -/
structure WalletNode (S : NodeSuite) (W : WalletStorePort) where
  wallet : WalletApi W
  relyingParty : WebAuthnRelyingParty S
  authorizations : Table Uuid SigningAuthorization
  authorizationRecords : Table Uuid AuthorizationState
  /-- the intents that were in the store when the node was started -/
  recoveredIntents : Finset Uuid
  phases : Table Uuid SigningPhase
  tradeRequests : Table Uuid S.TradeSigningRequest
  transactionRequests : Table Uuid S.TransactionReviewRequest

namespace WalletNode

variable {S : NodeSuite} {W : WalletStorePort} {α : Type}

def onWallet (x : Method (WalletApi W) WalletError α) : Method (WalletNode S W) WalletNodeError α :=
  zoom wallet (fun n w => { n with wallet := w }) .ofWallet x

def onRelyingParty (x : Method (WebAuthnRelyingParty S) WalletNodeError α) :
    Method (WalletNode S W) WalletNodeError α :=
  zoom relyingParty (fun n rp => { n with relyingParty := rp }) id x

/-- The intent still signs what it was made from; the source compares the digests twice. -/
def checkReviews (n : WalletNode S W) (id : Uuid) (intent : SigningIntent) :
    Except WalletNodeError Unit := do
  if let some request := n.tradeRequests.get id then
    let sighash ← (S.verifyTrade request).mapError .tradePolicy
    require (sighash = intent.txDigest) .intentBindingMismatch
  if let some request := n.transactionRequests.get id then
    let sighashHex ← (S.inspectTransaction request).mapError .transactionPolicy
    require (sighashHex = S.encodeHex intent.txDigest.bytes) .intentBindingMismatch

/-- The store is told of the ceremony, which is dropped if it is not taken. -/
def beginApproval (state : ApprovalStartState) : Method (WalletNode S W) WalletNodeError Unit :=
  fun n =>
    match onWallet (WalletApi.onStore (W.beginApproval state)) n with
    | (.ok _, n') => (.ok (), n')
    | (.error e, n') => (.error e, { n' with
        relyingParty := n'.relyingParty.invalidateApproval state.ceremonyId })

/-- `approval_start`, with the ceremony id and the challenge it draws. -/
def approvalStart (intentId ceremonyId : Uuid) (challenge : Bytes32) (now : Time) :
    Method (WalletNode S W) WalletNodeError (ApprovalStartResponse S) := do
  let intent ← onWallet (WalletApi.readIntent intentId)
  let n ← get
  -- what a trade or transaction intent was reviewed with does not survive a restart
  lift (require (intentId ∈ n.recoveredIntents → intent.covhub.isSome = true)
    .recoveredIntentApprovalUnavailable)
  lift (n.checkReviews intentId intent)
  let credentialId ← lift (orError n.relyingParty.primaryCredentialId .noCredentials)
  let response ← onRelyingParty (WebAuthnRelyingParty.approvalStart intent ceremonyId challenge now)
  beginApproval ⟨response.ceremonyId, intentId, credentialId, intent.digest S.sha256, now,
    response.binding.expiresAt⟩
  return response

def completionOf (config : RelyingPartyConfig) (intentId : Uuid) (intent : SigningIntent)
    (verified : VerifiedPasskeyApproval S) (authorizationId : Uuid) (now : Time) :
    ApprovalCompletionState where
  ceremonyId := verified.ceremonyId
  intentId := intentId
  credentialId := verified.credentialId
  expectedCredentialRecordVersion := verified.expectedCredentialRecordVersion
  updatedPasskeyJson := verified.updatedPasskeyJson
  bindingDigest := intent.digest S.sha256
  authorizationId := authorizationId
  authorizationExpiresAt := intent.expiry
  rpId := config.rpId
  rpOrigin := config.rpOrigin
  approvedAt := now

def approvalFinish (intentId : Uuid) (request : ApprovalFinishRequest S) (now : Time)
    (drawn : ApprovalDraw) : Method (WalletNode S W) WalletNodeError ApprovalFinishResponse := do
  let intent ← onWallet (WalletApi.readIntent intentId)
  let verified ← onRelyingParty (WebAuthnRelyingParty.approvalFinish intentId intent request now)
  let n ← get
  let completion := completionOf n.relyingParty.config intentId intent verified
    drawn.authorizationId now
  let (authorization, record) ← onWallet
    (WalletApi.submitVerified intentId verified completion now drawn.token)
  modify fun n => { n with
    relyingParty := n.relyingParty.commitVerifiedPasskey verified
    authorizations := n.authorizations.put intentId authorization
    authorizationRecords := n.authorizationRecords.put intentId record
    phases := n.phases.put intentId .approved }
  return ⟨intentId, verified.signerId, true, intent.expiry⟩

end WalletNode

section AfterFailure

variable {S : NodeSuite} {W : WalletStorePort} {intent : SigningIntent} {id : Uuid} {now : Time}
  {verified : VerifiedPasskeyApproval S}

/-- The answer fits the intent, which can still be approved. -/
structure Fits (intent : SigningIntent) (verified : VerifiedPasskeyApproval S) (now : Time) :
    Prop where
  bound : verified.intentId = intent.id ∧ verified.signerId = intent.signerId ∧
    verified.sessionId = intent.sessionId ∧ verified.message = intent.txDigest ∧
    verified.expiresAt ≤ intent.expiry
  pending : intent.status = .pending
  version : intent.protocolVersion = signingProtocolVersion
  intime : intent.isExpired now = false
  digest : intent.digest S.sha256 = verified.intentDigest

lemma AuthorizationGate.authorizeVerified_spec {token : Bytes32} {gate : AuthorizationGate} :
    (authorizeVerified S.sha256 intent verified.intentDigest now token).wp (fun r gate' =>
      (Fits intent verified now → (r.isOk = true ↔ intent.nonce ∉ gate.usedNonces)) ∧
      (r.isOk = true → intent.protocolVersion = signingProtocolVersion ∧
        intent.nonce ∈ gate'.usedNonces)) gate := by
  simp only [authorizeVerified, wp_iff]
  refine ⟨fun hpend => ⟨fun hvers => ⟨fun hintime => ⟨fun hdig => ⟨fun hnew => ?_, ?_⟩, ?_⟩,
    ?_⟩, ?_⟩, ?_⟩
  · exact ⟨fun _ => iff_of_true rfl hnew, fun _ => ⟨hvers, Finset.mem_insert_self _ _⟩⟩
  · intro hused
    exact ⟨fun _ => iff_of_false Bool.false_ne_true hused, fun h => by cases h⟩
  all_goals
    intro hnot
    refine ⟨fun h => absurd ?_ hnot, fun h => by cases h⟩
  · exact h.digest
  · exact h.intime
  · exact h.version
  · exact h.pending

namespace WalletApi

variable {w : WalletApi W} {completion : ApprovalCompletionState} {token : Bytes32}

lemma submitVerified_spec (verified : VerifiedPasskeyApproval S)
    (hint : w.intent id = some intent) :
    (submitVerified id verified completion now token).wp (fun r w' =>
      (Fits intent verified now → (W.completeApproval completion w.store).1.isOk = true →
        (r.isOk = true ↔ intent.nonce ∉ w.gate.usedNonces)) ∧
      ((∃ e, r = .error (.store e)) → intent.protocolVersion = signingProtocolVersion ∧
        intent.nonce ∈ w'.gate.usedNonces)) w := by
  rw [submitVerified, readIntent]
  simp only [wp_iff, hint, Option.some.injEq, forall_eq', reduceCtorEq, false_implies, and_true]
  refine ⟨fun hbound => ⟨fun hopen => ?_, fun hopen => ?_⟩, fun hbound => ?_⟩
  · rw [wp_zoom]
    apply wp_mono AuthorizationGate.authorizeVerified_spec
    rintro r _ ⟨hused, hset⟩
    cases r with
    | error e => exact ⟨fun hfits _ => hused hfits, by simp⟩
    | ok =>
      obtain ⟨hvers, hmem⟩ := hset rfl
      simp only [mapError_ok, onStore, wp_zoom]
      rw [wp]
      cases (W.completeApproval completion w.store).1 with
      | ok => exact ⟨fun hfits _ => hused hfits, by simp⟩
      | error => exact ⟨fun _ hok => (by cases hok), fun _ => ⟨hvers, hmem⟩⟩
  · exact ⟨fun hfits => absurd (by simp [hfits.pending]) hopen, by simp⟩
  · exact ⟨fun hfits => absurd hfits.bound hbound, by simp⟩

end WalletApi

namespace WebAuthnRelyingParty

variable (rp : WebAuthnRelyingParty S) (request : ApprovalFinishRequest S)

/-- What an accepted answer says about the intent and its ceremony. -/
def Answers (intent : SigningIntent) (verified : VerifiedPasskeyApproval S) : Prop :=
  ∃ ceremony, rp.approvals.get request.ceremonyId = some ceremony ∧
    verified.expiresAt = ceremony.binding.expiresAt ∧ verified.intentId = intent.id ∧
    verified.signerId = intent.signerId ∧ verified.sessionId = intent.sessionId ∧
    verified.message = intent.txDigest ∧ intent.digest S.sha256 = verified.intentDigest ∧
    intent.status = .pending

section Start

variable {rp} {ceremonyId : Uuid} {challenge : Bytes32}

lemma approvalStart_spec :
    (approvalStart intent ceremonyId challenge now).wp (fun r rp' =>
      ∀ response, r = .ok response → response.ceremonyId = ceremonyId ∧
        response.binding.expiresAt =
          min intent.expiry (saturatingAdd now rp.config.ceremonyTtlSeconds) ∧
        ∀ ceremony ∈ rp'.approvals.get ceremonyId, ceremony.binding.expiresAt ≤ intent.expiry)
      rp := by
  simp only [approvalStart, wp_iff, reduceCtorEq, false_implies, implies_true, and_true,
    Except.ok.injEq, forall_eq', true_and, Table.get_put, if_true, Option.mem_def,
    Option.some.injEq]
  rintro - - - _ -
  exact min_le_left _ _

lemma isOk_approvalStart (hpend : intent.status = .pending) (hintime : intent.isExpired now = false)
    (hcreds : rp.credentials.rows ≠ [])
    (hstarts : (S.startPasskeyAuthentication (rp.credentials.rows.map StoredCredential.passkey)
      challenge).isOk = true) :
    (approvalStart intent ceremonyId challenge now rp).1.isOk = true := by
  show (approvalStart intent ceremonyId challenge now).wp (fun r _ => r.isOk = true) rp
  apply wp_lift_bind_of_ok (require_pos hpend)
  apply wp_lift_bind_of_ok (require_pos hintime)
  apply wp_get_bind
  apply wp_lift_bind_of_ok (require_pos hcreds)
  cases hr : S.startPasskeyAuthentication (rp.credentials.rows.map StoredCredential.passkey)
      challenge with
  | error => rw [hr] at hstarts; cases hstarts
  | ok started =>
    apply wp_lift_bind_of_ok (b := started) rfl
    rfl

end Start

lemma approvalFinish_spec (id : Uuid) (intent : SigningIntent) (now : Time) :
    (approvalFinish id intent request now).wp (fun r rp' =>
    rp'.config = rp.config ∧ (∀ e, r ≠ .error (.wallet e)) ∧
      ∀ verified, r = .ok verified → rp.Answers request intent verified) rp := by
  simp only [approvalFinish, wp_iff, ne_eq, reduceCtorEq, not_false_eq_true, Except.error.injEq,
    false_implies, implies_true, and_true, true_and, Except.ok.injEq, forall_eq',
    invalidateApproval]
  rintro ceremony hcer - ⟨-, -, hdig, -, hsess, hmsg⟩ hpend _ - - _ -
    updated - json -
  exact ⟨ceremony, hcer, rfl, rfl, rfl, hsess.symm, hmsg.symm, hdig, hpend⟩

end WebAuthnRelyingParty

namespace WalletNode

variable {n n₀ : WalletNode S W} {request : ApprovalFinishRequest S} {drawn : ApprovalDraw}

/-- The relying party takes the answer, and the store completes the approval. -/
structure Approves (n : WalletNode S W) (id : Uuid) (intent : SigningIntent)
    (request : ApprovalFinishRequest S) (now : Time) (drawn : ApprovalDraw) : Prop where
  present : n.wallet.intent id = some intent
  completes : ∃ verified,
    (WebAuthnRelyingParty.approvalFinish id intent request now n.relyingParty).1 = .ok verified ∧
    (W.completeApproval (completionOf n.relyingParty.config id intent verified
      drawn.authorizationId now) n.wallet.store).1.isOk = true

/-- The ceremony ends no later than the intent. -/
def EndsInTime (n : WalletNode S W) (ceremonyId : Uuid) (intent : SigningIntent) : Prop :=
  ∀ ceremony ∈ n.relyingParty.approvals.get ceremonyId, ceremony.binding.expiresAt ≤ intent.expiry

lemma readIntent_of_intent (hint : n.wallet.intent id = some intent) :
    onWallet (WalletApi.readIntent id) n = (.ok intent, n) := by
  have hfound : WalletApi.readIntent id n.wallet = (.ok intent, n.wallet) :=
    congrArg (·, n.wallet) (orError_eq_ok.mpr hint)
  rw [onWallet, zoom, hfound]

lemma approvalFinish_spec (request : ApprovalFinishRequest S) (now : Time) (drawn : ApprovalDraw)
    (hint : n.wallet.intent id = some intent) :
    (approvalFinish id request now drawn).wp (fun r n' =>
      (n.Approves id intent request now drawn → n.EndsInTime request.ceremonyId intent →
        now ≤ intent.expiry → intent.protocolVersion = signingProtocolVersion →
        (r.isOk = true ↔ intent.nonce ∉ n.wallet.gate.usedNonces)) ∧
      ((∃ e, r = .error (.wallet (.store e))) → intent.protocolVersion = signingProtocolVersion ∧
        intent.nonce ∈ n'.wallet.gate.usedNonces)) n := by
  obtain ⟨hconfig, hwal, hanswers⟩ : _ ∧ _ :=
    n.relyingParty.approvalFinish_spec request id intent now
  rw [approvalFinish, wp_bind, wp_of_eq (readIntent_of_intent hint)]
  show (onRelyingParty _ >>= _).wp _ n
  rw [wp_bind, onRelyingParty, wp_zoom, wp]
  cases hres : (WebAuthnRelyingParty.approvalFinish id intent request now n.relyingParty).1 with
  | error =>
    refine ⟨fun happroves => ?_, ?_⟩
    · obtain ⟨verified, hver, -⟩ := happroves.completes
      simp [hres] at hver
    · rintro ⟨e', he'⟩
      cases he'
      exact absurd hres (hwal _)
  | ok verified =>
    simp only [mapError_ok, wp_iff, onWallet, wp_zoom]
    apply wp_mono (WalletApi.submitVerified_spec verified hint)
    rintro r _ ⟨happroves, hfails⟩
    have hiff : n.Approves id intent request now drawn → n.EndsInTime request.ceremonyId intent →
        now ≤ intent.expiry → intent.protocolVersion = signingProtocolVersion →
        (r.isOk = true ↔ intent.nonce ∉ n.wallet.gate.usedNonces) := by
      intro h hends hnow hvers
      obtain ⟨_, hcer, hexpi, hid, hsgn, hsess, hmsg, hdig, hpend⟩ := hanswers verified hres
      obtain ⟨verified', hver, hok⟩ := h.completes
      obtain rfl : verified = verified' := Except.ok.inj (hres.symm.trans hver)
      refine happroves ⟨⟨hid, hsgn, hsess, hmsg, ?_⟩, hpend, hvers, ?_, hdig⟩ ?_
      · exact hexpi ▸ hends _ hcer
      · simpa [SigningIntent.isExpired] using hnow
      · rw [hconfig]
        exact hok
    cases r with
    | ok => exact ⟨hiff, by simp⟩
    | error e =>
      refine ⟨hiff, ?_⟩
      rintro ⟨e', he'⟩
      refine hfails ⟨e', ?_⟩
      cases e <;> cases he'
      rfl

/-- The intent is open and reviewed, and WebAuthn and the store start a ceremony. -/
structure Ready (n : WalletNode S W) (id : Uuid) (intent : SigningIntent) (ceremonyId : Uuid)
    (challenge : Bytes32) (now : Time) : Prop where
  pending : intent.status = .pending
  intime : intent.isExpired now = false
  reviewed : n.checkReviews id intent = .ok ()
  challenged : (S.startPasskeyAuthentication
    (n.relyingParty.credentials.rows.map StoredCredential.passkey) challenge).isOk = true
  begins : ∃ credentialId, n.relyingParty.primaryCredentialId = some credentialId ∧
    (W.beginApproval ⟨ceremonyId, id, credentialId, intent.digest S.sha256, now,
      min intent.expiry (saturatingAdd now n.relyingParty.config.ceremonyTtlSeconds)⟩
      n.wallet.store).1.isOk = true

variable {ceremonyId : Uuid} {challenge : Bytes32}

lemma wp_beginApproval {state : ApprovalStartState}
    {Q : Except WalletNodeError Unit → WalletNode S W → Prop}
    (hok : ∀ s, Q (.ok ()) { n with wallet := { n.wallet with store := s } })
    (herror : ∀ e n', (W.beginApproval state n.wallet.store).1.isOk = false → Q (.error e) n') :
    (beginApproval state).wp Q n := by
  rw [wp, beginApproval, onWallet, WalletApi.onStore, zoom, zoom]
  rcases hr : W.beginApproval state n.wallet.store with ⟨_ | _, s⟩
  · exact herror _ _ (by rw [hr]; rfl)
  · exact hok s

lemma approvalStart_spec (hint : n.wallet.intent id = some intent) :
    (approvalStart id ceremonyId challenge now).wp (fun r n' =>
      ∀ response, r = .ok response → response.ceremonyId = ceremonyId ∧
        n'.wallet.gate = n.wallet.gate ∧ n'.EndsInTime ceremonyId intent ∧
        (id ∈ n.recoveredIntents → intent.covhub.isSome = true)) n := by
  rw [approvalStart, wp_bind, wp_of_eq (readIntent_of_intent hint)]
  apply wp_get_bind
  apply wp_lift_bind fun _ _ => by rintro ⟨⟩
  intro _ hrecov
  apply wp_lift_bind fun _ _ => by rintro ⟨⟩
  intro _ _
  apply wp_lift_bind fun _ _ => by rintro ⟨⟩
  intro _ _
  rw [wp_bind, onRelyingParty, wp_zoom]
  apply wp_mono WebAuthnRelyingParty.approvalStart_spec
  intro r rp' hr
  cases r with
  | error => rintro _ ⟨⟩
  | ok response =>
    obtain ⟨hid, -, hends⟩ := hr response rfl
    simp only [mapError_ok, wp_bind]
    apply wp_beginApproval
    · rintro s _ ⟨⟩
      exact ⟨hid, rfl, hends, require_eq_ok.mp hrecov⟩
    · rintro _ _ - _ ⟨⟩

lemma isOk_approvalStart (hint : n.wallet.intent id = some intent)
    (hready : n.Ready id intent ceremonyId challenge now)
    (hrecov : id ∈ n.recoveredIntents → intent.covhub.isSome = true) :
    (approvalStart id ceremonyId challenge now n).1.isOk = true := by
  obtain ⟨credentialId, hprimary, hbegins⟩ := hready.begins
  have hcreds : n.relyingParty.credentials.rows ≠ [] := by
    intro hnil
    simp [WebAuthnRelyingParty.primaryCredentialId, hnil] at hprimary
  show (approvalStart id ceremonyId challenge now).wp (fun r _ => r.isOk = true) n
  rw [approvalStart, wp_bind, wp_of_eq (readIntent_of_intent hint)]
  apply wp_get_bind
  apply wp_lift_bind_of_ok (require_pos hrecov)
  apply wp_lift_bind_of_ok hready.reviewed
  apply wp_lift_bind_of_ok (orError_eq_ok.mpr hprimary)
  rw [wp_bind, onRelyingParty, wp_zoom, wp]
  have hstarts : (WebAuthnRelyingParty.approvalStart intent ceremonyId challenge now
      n.relyingParty).1.isOk = true :=
    WebAuthnRelyingParty.isOk_approvalStart hready.pending hready.intime hcreds hready.challenged
  have hspec : (WebAuthnRelyingParty.approvalStart intent ceremonyId challenge now).wp _
    n.relyingParty := WebAuthnRelyingParty.approvalStart_spec
  rw [wp] at hspec
  cases hr : (WebAuthnRelyingParty.approvalStart intent ceremonyId challenge now
      n.relyingParty).1 with
  | error => rw [hr] at hstarts; cases hstarts
  | ok response =>
    obtain ⟨hid, hexpires, -⟩ := hspec response hr
    simp only [mapError_ok, wp_bind]
    apply wp_beginApproval
    · intro _
      rfl
    · intro _ _ hfails
      rw [hid, hexpires] at hfails
      simp [hfails] at hbegins

/-- An approval ceremony: the node starts it and gets an answer. -/
def approve (intentId ceremonyId : Uuid) (challenge : Bytes32) (start : Time)
    (credential : S.PublicKeyCredential) (now : Time) (drawn : ApprovalDraw) :
    Method (WalletNode S W) WalletNodeError ApprovalFinishResponse := do
  let response ← approvalStart intentId ceremonyId challenge start
  approvalFinish intentId ⟨response.ceremonyId, credential⟩ now drawn

/-- After an approval that failed in the store, the nonce of the intent is used up. A later ceremony
whose parts all work succeeds exactly if the gate lacks the nonce and the intent is not a recovered
one without a CovHub binding. -/
theorem approve_after_failure {request₀ : ApprovalFinishRequest S} {now₀ start : Time}
    {drawn₀ : ApprovalDraw} {e : WalletStoreError} {credential : S.PublicKeyCredential}
    (hintent₀ : n₀.wallet.intent id = some intent)
    (hfailed : (approvalFinish id request₀ now₀ drawn₀ n₀).1 = .error (.wallet (.store e)))
    (hintent : n.wallet.intent id = some intent)
    (hready : n.Ready id intent ceremonyId challenge start)
    (hanswer : (approvalStart id ceremonyId challenge start n).1.isOk = true →
      (approvalStart id ceremonyId challenge start n).2.Approves id intent ⟨ceremonyId, credential⟩
        now drawn)
    (hnow : now ≤ intent.expiry) :
    intent.nonce ∈ (approvalFinish id request₀ now₀ drawn₀ n₀).2.wallet.gate.usedNonces ∧
      ((approve id ceremonyId challenge start credential now drawn n).1.isOk = true ↔
        intent.nonce ∉ n.wallet.gate.usedNonces ∧
          (id ∈ n.recoveredIntents → intent.covhub.isSome = true)) := by
  obtain ⟨-, hused⟩ : _ ∧ _ := approvalFinish_spec request₀ now₀ drawn₀ hintent₀
  obtain ⟨hvers, hmem⟩ := hused ⟨e, hfailed⟩
  have hstarted : (approvalStart id ceremonyId challenge start).wp _ n := approvalStart_spec hintent
  refine ⟨hmem, ?_⟩
  show (approve id ceremonyId challenge start credential now drawn).wp
    (fun r _ => r.isOk = true ↔ _) n
  rw [approve, wp_bind, wp]
  cases hr : (approvalStart id ceremonyId challenge start n).1 with
  | error =>
    refine iff_of_false Bool.false_ne_true ?_
    rintro ⟨-, hrecov⟩
    have hok := isOk_approvalStart hintent hready hrecov
    rw [hr] at hok
    cases hok
  | ok response =>
    obtain ⟨hid, hgate, hends, hrecov⟩ := hstarted response hr
    have happroves := hanswer (by rw [hr]; rfl)
    obtain ⟨hiff, -⟩ : _ ∧ _ := approvalFinish_spec ⟨ceremonyId, credential⟩ now drawn
      happroves.present
    have hiff := hiff happroves hends hnow hvers
    rw [hgate] at hiff
    show (approvalFinish id ⟨response.ceremonyId, credential⟩ now drawn _).1.isOk = true ↔ _
    rw [hid, hiff, and_iff_left hrecov]

def sampleSuite : NodeSuite :=
  { ThresholdSigner.GuardedSignerProvider.echoSuite with
    Passkey := Unit
    PasskeyAuthentication := Unit
    RequestChallenge := Unit
    PublicKeyCredential := Unit
    AuthenticationResult := Unit
    startPasskeyAuthentication := fun _ _ => .ok ((), ())
    finishPasskeyAuthentication := fun _ _ => .ok ()
    userVerified := fun _ => true
    credentialIdOf := fun _ => "key"
    updateCredential := fun _ _ => some ()
    passkeyJson := fun _ => .ok ""
    TradeSigningRequest := Unit
    TransactionReviewRequest := Unit
    verifyTrade := fun _ => .ok .zeros
    inspectTransaction := fun _ => .ok "" }

/-- The in-memory store, whose disk is full at time 1. -/
def fullPort : WalletStorePort :=
  { port with
    completeApproval := fun completion =>
      if completion.approvedAt = 1 then error (.new "disk full")
      else completeApproval completion }

/-- An intent with a CovHub binding. -/
def sampleIntent : SigningIntent :=
  ⟨1, .signet, 1, .signTaprootTransaction, 1, 1, none, .zeros, .zeros, 100, .zeros, .pending, 0,
    some ⟨1, "p", "d", "c", "q", ⟨1, .ergo, .ergo .mainnet⟩, .zeros, .zeros, 7⟩⟩

/-- A node with an open ceremony for the intent. -/
def sampleNode : WalletNode sampleSuite fullPort where
  wallet := ⟨{ new with
    intents := Rows.empty.put sampleIntent
    passkeys := [⟨"key", "", "", "", 1, 0⟩]
    approvals := Table.empty.put 1 ⟨1, 1, "key", .zeros, 0, 50⟩ }, ⟨∅⟩⟩
  relyingParty := (WebAuthnRelyingParty.approvalStart sampleIntent 1 .zeros 0
    ⟨⟨"", "", 50⟩, Rows.empty.put ⟨"key", "", 0, 1, ()⟩, .empty⟩).2
  authorizations := .empty
  authorizationRecords := .empty
  recoveredIntents := ∅
  phases := .empty
  tradeRequests := .empty
  transactionRequests := .empty

/-- The node after a restart, with the intents and passkeys of its store. -/
def restarted (n : WalletNode sampleSuite fullPort) : WalletNode sampleSuite fullPort :=
  { n with
    wallet := ⟨n.wallet.store, ⟨∅⟩⟩
    relyingParty := { n.relyingParty with approvals := .empty }
    recoveredIntents := {1} }

/-- The disk is full when the first ceremony ends. The next is refused, but not by a restarted
node. -/
theorem approval_refused_after_failure :
    let (r₁, n) := approvalFinish 1 ⟨1, ()⟩ 1 ⟨1, .zeros⟩ sampleNode
    r₁ = .error (.wallet (.store (.new "disk full"))) ∧
      (approve 1 2 .zeros 2 () 3 ⟨2, .zeros⟩ n).1 = .error (.wallet (.gate .nonceReused)) ∧
      (approve 1 2 .zeros 2 () 3 ⟨2, .zeros⟩ n.restarted).1 = .ok ⟨1, 1, true, 100⟩ := by
  decide +kernel

theorem approve_after_failure_restarted :
    (approve 1 2 .zeros 2 () 3 ⟨2, .zeros⟩ sampleNode.restarted).1.isOk = true := by
  have hfailed : (approvalFinish 1 ⟨1, ()⟩ 1 ⟨1, .zeros⟩ sampleNode).1 =
      .error (.wallet (.store (.new "disk full"))) := by decide +kernel
  have hready : sampleNode.restarted.Ready 1 sampleIntent 2 .zeros 2 :=
    ⟨rfl, by decide, rfl, rfl, _, rfl, rfl⟩
  exact (approve_after_failure rfl hfailed rfl hready
    (fun _ => ⟨rfl, _, rfl, by decide +kernel⟩) (by decide)).2.mpr ⟨by decide, fun _ => rfl⟩

end WalletNode

end AfterFailure

end Catomicals.WalletCore
