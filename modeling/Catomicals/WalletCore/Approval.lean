import Catomicals.ThresholdSigner.Participant
import Catomicals.WalletCore.Store

/-!
# Passkey approval

The relying party opens a ceremony for one intent and accepts one answer to it. The gate turns a
verified answer into a signing authorization, once for each approval nonce.
-/
namespace Catomicals.WalletCore

open Base Domain Method WalletStorage ThresholdSigner

/-- The linked crates of a wallet node. Randomness is drawn for each use. -/
structure NodeSuite extends SignerSuite where
  (Passkey PasskeyAuthentication RequestChallenge PublicKeyCredential AuthenticationResult : Type)
  (TradeSigningRequest TransactionReviewRequest : Type)
  /-- `start_passkey_authentication` with the random bytes it draws -/
  startPasskeyAuthentication : List Passkey → Bytes32 →
    Except String (RequestChallenge × PasskeyAuthentication)
  /-- `finish_passkey_authentication` -/
  finishPasskeyAuthentication : PublicKeyCredential → PasskeyAuthentication →
    Except String AuthenticationResult
  /-- `AuthenticationResult::user_verified` -/
  userVerified : AuthenticationResult → Bool
  /-- `AuthenticationResult::cred_id` as base64 text -/
  credentialIdOf : AuthenticationResult → String
  /-- `Passkey::update_credential` -/
  updateCredential : Passkey → AuthenticationResult → Option Passkey
  /-- `serde_json` of a passkey -/
  passkeyJson : Passkey → Except String String
  /-- `WalletTradingApi::verify` at the height of the trusted node, down to the sighash -/
  verifyTrade : TradeSigningRequest → Except String Bytes32
  /-- `inspect_transaction`, down to the sighash in hexadecimal -/
  inspectTransaction : TransactionReviewRequest → Except String String

inductive GateError where
  | notPending (status : IntentStatus)
  | expired
  | approvalMismatch
  | nonceReused
  | unsupportedProtocolVersion (version : UInt16)
  | personalPolicyMismatch
  | personalOperationMismatch
  deriving DecidableEq

inductive WalletError where
  | notFound
  | gate (e : GateError)
  | alreadyApproved
  | store (e : WalletStoreError)
  deriving DecidableEq

/-- The errors of the modelled node calls; another error is kept itself, not its text. -/
inductive WalletNodeError where
  | webAuthn (text : String)
  | ceremonyNotFound
  | ceremonyExpired
  | credentialNotFound
  | noCredentials
  | userVerificationRequired
  | intentNotPending
  | intentNotFound
  | intentExpired
  | intentBindingMismatch
  | recoveredIntentApprovalUnavailable
  | tradePolicy (text : String)
  | transactionPolicy (text : String)
  | wallet (e : WalletError)
  deriving DecidableEq

/-- `From<WalletError>`. -/
def WalletNodeError.ofWallet : WalletError → WalletNodeError
  | .notFound => .intentNotFound
  | e => .wallet e

structure SigningAuthorization where
  token : Bytes32
  intentId : Uuid
  network : BitcoinNetwork
  protocolVersion : UInt16
  action : SigningAction
  walletId : Uuid
  signerId : UInt16
  personalSigningPolicy : Option PersonalSigningPolicy
  (txDigest sessionId nonce : Bytes32)
  (expiry issuedAt : Time)
  consumed : Bool

namespace SigningAuthorization

/-- `SigningAuthorization::new`, with the token it draws. -/
def new (intent : SigningIntent) (issuedAt : Time) (token : Bytes32) : SigningAuthorization where
  token := token
  intentId := intent.id
  network := intent.network
  protocolVersion := intent.protocolVersion
  action := intent.action
  walletId := intent.walletId
  signerId := intent.signerId
  personalSigningPolicy := intent.personalSigningPolicy
  txDigest := intent.txDigest
  sessionId := intent.sessionId
  nonce := intent.nonce
  expiry := intent.expiry
  issuedAt := issuedAt
  consumed := false

end SigningAuthorization

structure AuthorizationGate where
  usedNonces : Finset Bytes32

def AuthorizationGate.authorizeVerified (sha256 : Bytes → Bytes32) (intent : SigningIntent)
    (intentDigest : Bytes32) (now : Time) (token : Bytes32) :
    Method AuthorizationGate GateError SigningAuthorization := do
  lift (require (intent.status = .pending) (.notPending intent.status))
  lift (require (intent.protocolVersion = signingProtocolVersion)
    (.unsupportedProtocolVersion intent.protocolVersion))
  lift (require (intent.isExpired now = false) .expired)
  lift (require (intent.digest sha256 = intentDigest) .approvalMismatch)
  let gate ← get
  lift (require (intent.nonce ∉ gate.usedNonces) .nonceReused)
  modify fun gate => ⟨insert intent.nonce gate.usedNonces⟩
  return .new intent now token

structure RelyingPartyConfig where
  (rpId rpOrigin : String)
  ceremonyTtlSeconds : Time

variable (S : NodeSuite)

structure StoredCredential where
  (credentialId label : String)
  registeredAt : Time
  recordVersion : ℕ
  passkey : S.Passkey

structure ApprovalBinding where
  intentId : Uuid
  intentDigestHex : String
  signerId : UInt16
  (sessionIdHex messageHex : String)
  expiresAt : Time

structure ApprovalCeremony where
  binding : ApprovalBinding
  (intentDigest sessionId message : Bytes32)
  state : S.PasskeyAuthentication

structure ApprovalStartResponse where
  ceremonyId : Uuid
  publicKey : S.RequestChallenge
  binding : ApprovalBinding

structure ApprovalFinishRequest where
  ceremonyId : Uuid
  credential : S.PublicKeyCredential

structure VerifiedPasskeyApproval where
  (ceremonyId intentId : Uuid)
  intentDigest : Bytes32
  signerId : UInt16
  (sessionId message : Bytes32)
  expiresAt : Time
  credentialId : String
  expectedCredentialRecordVersion : ℕ
  updatedPasskeyJson : String
  updatedPasskey : S.Passkey

/-- The relying party; its credentials are in the order in which the map yields them. -/
structure WebAuthnRelyingParty where
  config : RelyingPartyConfig
  credentials : Rows (StoredCredential.credentialId (S := S))
  approvals : Table Uuid (ApprovalCeremony S)

def saturatingAdd (a b : Time) : Time := max (-2 ^ 63) (min (a + b) (2 ^ 63 - 1))

namespace WebAuthnRelyingParty

variable {S : NodeSuite} (rp : WebAuthnRelyingParty S)

def primaryCredentialId : Option String :=
  rp.credentials.rows.head?.map StoredCredential.credentialId

def invalidateApproval (ceremonyId : Uuid) : WebAuthnRelyingParty S :=
  { rp with approvals := rp.approvals.delete ceremonyId }

/-- `commit_verified_passkey`; the version stops at the largest `u64`. -/
def commitVerifiedPasskey (approval : VerifiedPasskeyApproval S) : WebAuthnRelyingParty S :=
  { rp with
    credentials := rp.credentials.update (fun c => c.credentialId = approval.credentialId)
      (fun c => { c with
        passkey := approval.updatedPasskey
        recordVersion := min (c.recordVersion + 1) (2 ^ 64 - 1) })
      fun _ => rfl }

/-- `approval_start`, with the ceremony id and the challenge it draws. -/
def approvalStart (intent : SigningIntent) (ceremonyId : Uuid) (challenge : Bytes32) (now : Time) :
    Method (WebAuthnRelyingParty S) WalletNodeError (ApprovalStartResponse S) := do
  lift (require (intent.status = .pending) .intentNotPending)
  lift (require (intent.isExpired now = false) .intentExpired)
  let rp ← get
  lift (require (rp.credentials.rows ≠ []) .noCredentials)
  let (publicKey, state) ← lift ((S.startPasskeyAuthentication
    (rp.credentials.rows.map StoredCredential.passkey) challenge).mapError .webAuthn)
  let binding : ApprovalBinding :=
    { intentId := intent.id
      intentDigestHex := S.encodeHex (intent.digest S.sha256).bytes
      signerId := intent.signerId
      sessionIdHex := S.encodeHex intent.sessionId.bytes
      messageHex := S.encodeHex intent.txDigest.bytes
      expiresAt := min intent.expiry (saturatingAdd now rp.config.ceremonyTtlSeconds) }
  modify fun rp => { rp with
    approvals := rp.approvals.put ceremonyId
      ⟨binding, intent.digest S.sha256, intent.sessionId, intent.txDigest, state⟩ }
  return ⟨ceremonyId, publicKey, binding⟩

def approvalFinish (requestedIntentId : Uuid) (currentIntent : SigningIntent)
    (request : ApprovalFinishRequest S) (now : Time) :
    Method (WebAuthnRelyingParty S) WalletNodeError (VerifiedPasskeyApproval S) := do
  let rp ← get
  let ceremony ← lift (orError (rp.approvals.get request.ceremonyId) .ceremonyNotFound)
  -- a ceremony takes one answer, right or wrong
  modify fun rp => rp.invalidateApproval request.ceremonyId
  lift (require (now ≤ ceremony.binding.expiresAt) .ceremonyExpired)
  lift (require (requestedIntentId = ceremony.binding.intentId ∧
    currentIntent.id = ceremony.binding.intentId ∧
    currentIntent.digest S.sha256 = ceremony.intentDigest ∧
    currentIntent.signerId = ceremony.binding.signerId ∧
    currentIntent.sessionId = ceremony.sessionId ∧
    currentIntent.txDigest = ceremony.message) .intentBindingMismatch)
  lift (require (currentIntent.status = .pending) .intentNotPending)
  let result ← lift ((S.finishPasskeyAuthentication request.credential
    ceremony.state).mapError .webAuthn)
  lift (require (S.userVerified result = true) .userVerificationRequired)
  let stored ← lift (orError (rp.credentials.get (S.credentialIdOf result))
    .credentialNotFound)
  let updated ← lift (orError (S.updateCredential stored.passkey result)
    .credentialNotFound)
  let json ← lift ((S.passkeyJson updated).mapError .webAuthn)
  return { ceremonyId := request.ceremonyId
           intentId := currentIntent.id
           intentDigest := ceremony.intentDigest
           signerId := currentIntent.signerId
           sessionId := ceremony.sessionId
           message := ceremony.message
           expiresAt := ceremony.binding.expiresAt
           credentialId := S.credentialIdOf result
           expectedCredentialRecordVersion := stored.recordVersion
           updatedPasskeyJson := json
           updatedPasskey := updated }

end WebAuthnRelyingParty

end Catomicals.WalletCore
