import Catomicals.WalletCore.Intent

/-!
# What an approval is bound to

The canonical bytes of an intent determine everything the user approves. The optional policy block
is told from its absence by the length of what follows, and the two encodings by their tags.
-/
namespace Catomicals.Domain

theorem ChainId.asStr_injective : Function.Injective ChainId.asStr := by
  intro a b h
  cases a <;> cases b <;> first | rfl | simp only [asStr, String.reduceEq] at h

theorem ChainNetwork.asStr_injective : Function.Injective ChainNetwork.asStr := by
  intro a b h
  rcases a with x | x | x | x | x | x | x <;> cases x <;>
    rcases b with y | y | y | y | y | y | y <;> cases y <;>
      first | rfl | simp only [asStr, String.reduceEq] at h

end Catomicals.Domain

namespace Catomicals.WalletCore

open Base Domain PersonalSigningPolicy SigningIntent List WalletStorage ThresholdSigner

lemma prefixFree_network : PrefixFree fun n : BitcoinNetwork => n.canonicalName.toUTF8.toList := by
  intro a b h
  cases a <;> cases b <;> first | rfl | exact absurd h (by decide +kernel)

lemma prefixFree_action : PrefixFree fun n : SigningAction => n.canonicalName.toUTF8.toList := by
  intro a b h
  cases a <;> cases b <;> first | rfl | exact absurd h (by decide +kernel)

lemma PersonalSigningPolicy.canonicalBytes_injective : Function.Injective canonicalBytes := by
  rintro ⟨_, _, _, _, ⟨_, _, _⟩, _, _, _⟩ ⟨_, _, _, _, ⟨_, _, _⟩, _, _, _⟩ h
  simp only [canonicalBytes, append_assoc, append_cancel_left_eq,
    prefixFree_uuid.append_iff, prefixFree_u64.append_iff, prefixFree_u16.append_iff,
    prefixFree_bytes32.append_iff, prefixFree_bytes32.inj] at h
  simp_all

lemma elim_canonicalBytes_inj {p q : Option PersonalSigningPolicy}
    (h : p.elim [] canonicalBytes = q.elim [] canonicalBytes) : p = q := by
  have hne : ∀ policy : PersonalSigningPolicy, policy.canonicalBytes ≠ [] := by
    intro _ hnil
    simpa [PersonalSigningPolicy.canonicalBytes] using congrArg length hnil
  cases p with
  | none =>
    cases q with
    | none => rfl
    | some q => exact absurd h.symm (hne q)
  | some p =>
    cases q with
    | none => exact absurd h (hne p)
    | some => rw [canonicalBytes_injective h]

lemma SigningIntent.eq_of_walletBytes {i j : SigningIntent} (hi : i.covhub = none)
    (hj : j.covhub = none) (htime : IsI64 i.expiry) (htime' : IsI64 j.expiry)
    (h : i.canonicalBytes = j.canonicalBytes) :
    j = { i with status := j.status, createdAt := j.createdAt } := by
  simp only [canonicalBytes, hi, hj, append_assoc, append_cancel_left_eq,
    prefixFree_u16.append_iff, prefixFree_network.append_iff, prefixFree_action.append_iff,
    prefixFree_uuid.append_iff] at h
  obtain ⟨_, _, _, _, _, _, hrest⟩ := h
  -- what follows the policy has a fixed length, with or without a policy in front
  obtain ⟨hpolicy, hrest⟩ := append_inj' hrest (by simp [timeBytes])
  simp only [timeBytes, prefixFree_bytes32.append_iff, i64_append htime htime',
    prefixFree_bytes32.inj] at hrest
  have hpolicy := elim_canonicalBytes_inj hpolicy
  obtain ⟨⟩ := j
  simp_all

lemma appendField_append {a b : String} {r s : Bytes} (ha : a.toUTF8.toList.length < 2 ^ 32)
    (hb : b.toUTF8.toList.length < 2 ^ 32) :
    appendField a ++ r = appendField b ++ s ↔ a = b ∧ r = s := by
  simp only [appendField, append_assoc]
  rw [lengthPrefixed_append ha hb, utf8_inj]

lemma length_chain (c : ChainId) : c.asStr.toUTF8.toList.length < 2 ^ 32 := by
  cases c <;> decide +kernel

lemma length_network (n : ChainNetwork) : n.asStr.toUTF8.toList.length < 2 ^ 32 := by
  rcases n with x | x | x | x | x | x | x <;> cases x <;> decide +kernel

/-- `append_field` panics on longer fields, and every scope has the schema version set. -/
structure CovhubBinding.Encodable (b : CovhubBinding) : Prop where
  proposalId : b.proposalId.toUTF8.toList.length < 2 ^ 32
  proposalDigest : b.proposalDigest.toUTF8.toList.length < 2 ^ 32
  canvasDigest : b.canvasDigest.toUTF8.toList.length < 2 ^ 32
  codeConfirmationDigest : b.codeConfirmationDigest.toUTF8.toList.length < 2 ^ 32
  schemaVersion : b.chainScope.schemaVersion = 1

lemma eq_of_covhubBytes {b b' : CovhubBinding} {id id' : Uuid} {session session' : Bytes32}
    {expiry expiry' : Time} (hb : b.Encodable) (hb' : b'.Encodable) (htime : IsI64 expiry)
    (htime' : IsI64 expiry')
    (h : covhubCanonicalBytes b id session expiry = covhubCanonicalBytes b' id' session' expiry') :
    b = b' ∧ id = id' ∧ session = session' ∧ expiry = expiry' := by
  have hschema := hb.schemaVersion.trans hb'.schemaVersion.symm
  rw [covhubCanonicalBytes, covhubCanonicalBytes, ← append_nil (timeBytes expiry),
    ← append_nil (timeBytes expiry')] at h
  simp only [timeBytes, append_assoc, append_cancel_left_eq,
    prefixFree_u16.append_iff, prefixFree_uuid.append_iff, prefixFree_bytes32.append_iff,
    appendField_append hb.proposalId hb'.proposalId,
    appendField_append hb.proposalDigest hb'.proposalDigest,
    appendField_append hb.canvasDigest hb'.canvasDigest,
    appendField_append hb.codeConfirmationDigest hb'.codeConfirmationDigest,
    appendField_append (length_chain _) (length_chain _), ChainId.asStr_injective.eq_iff,
    appendField_append (length_network _) (length_network _), ChainNetwork.asStr_injective.eq_iff,
    i64_append htime htime', and_true] at h
  obtain ⟨_, _, _, _, _, ⟨_, _, _⟩, _, _, _⟩ := b
  simp_all

lemma covhubBytes_ne {b : CovhubBinding} {id : Uuid} {session : Bytes32} {expiry : Time}
    {i : SigningIntent} (hi : i.covhub = none) :
    covhubCanonicalBytes b id session expiry ≠ i.canonicalBytes := by
  intro h
  simp only [covhubCanonicalBytes, SigningIntent.canonicalBytes, hi, append_assoc] at h
  rcases prefix_or_prefix_of_prefix ⟨_, h⟩ (prefix_append _ _) with hp | hp <;>
    exact absurd hp (by decide +kernel)

structure SigningIntent.Encodable (i : SigningIntent) : Prop where
  expiry : IsI64 i.expiry
  covhub : ∀ b ∈ i.covhub, b.Encodable

/-- Wallet intents that agree in all but status and creation time, or CovHub intents that agree in
all they are bound to. -/
def SigningIntent.SameApproval (i j : SigningIntent) : Prop :=
  match i.covhub, j.covhub with
  | none, none => j = { i with status := j.status, createdAt := j.createdAt }
  | some b, some b' => b = b' ∧ i.id = j.id ∧ i.sessionId = j.sessionId ∧ i.expiry = j.expiry
  | _, _ => False

/-- Intents with the same canonical bytes ask for the same approval. That wallet and CovHub intents
never share bytes is true without the bounds as well (`covhubBytes_ne`). -/
theorem sameApproval_of_canonicalBytes {i j : SigningIntent} (hi : i.Encodable) (hj : j.Encodable)
    (h : i.canonicalBytes = j.canonicalBytes) : i.SameApproval j := by
  unfold SigningIntent.SameApproval
  cases hci : i.covhub with
  | none =>
    cases hcj : j.covhub with
    | none =>
      have hsame := eq_of_walletBytes hci hcj hi.expiry hj.expiry h
      rw [hci] at hsame
      exact hsame
    | some =>
      rw [canonicalBytes.eq_def j, hcj] at h
      exact covhubBytes_ne hci h.symm
  | some b =>
    rw [canonicalBytes.eq_def i, hci] at h
    cases hcj : j.covhub with
    | none => exact covhubBytes_ne hcj h
    | some b' =>
      rw [SigningIntent.canonicalBytes, hcj] at h
      exact eq_of_covhubBytes (hi.covhub b hci) (hj.covhub b' hcj) hi.expiry hj.expiry h

def boundIntent (covhub : Option CovhubBinding) : SigningIntent :=
  ⟨4, .signet, 1, .signTaprootTransaction, 5, 1, none, .zeros, .zeros, 100, .zeros, .pending, 0,
    covhub⟩

def scopedBinding (schemaVersion : UInt16) : CovhubBinding :=
  ⟨1, "p", "d", "c", "q", ⟨schemaVersion, .ergo, .ergo .mainnet⟩, .zeros, .zeros, 7⟩

theorem sameApproval_of_canonicalBytes_covhub :
    (boundIntent none).canonicalBytes ≠ (boundIntent (some (scopedBinding 1))).canonicalBytes := by
  intro h
  have hwal : (boundIntent none).Encodable := ⟨by simp [IsI64, boundIntent], by rintro b ⟨⟩⟩
  have hcovhub : (boundIntent (some (scopedBinding 1))).Encodable := by
    refine ⟨hwal.expiry, ?_⟩
    rintro b ⟨⟩
    exact ⟨by decide +kernel, by decide +kernel, by decide +kernel, by decide +kernel, rfl⟩
  exact sameApproval_of_canonicalBytes hwal hcovhub h

/-- Scopes that differ only in the schema version, which every constructor sets to 1. -/
theorem canonicalBytes_schemaVersion :
    (boundIntent (some (scopedBinding 1))).canonicalBytes =
      (boundIntent (some (scopedBinding 2))).canonicalBytes := rfl

end Catomicals.WalletCore
