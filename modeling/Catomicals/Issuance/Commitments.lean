import Catomicals.Base.Fields
import Catomicals.Issuance.State

/-!
# What issuance commitments bind

The byte strings behind the terms hash, the item commitment and the proof of work determine what was
put into them.
-/
namespace Catomicals.Issuance

open Base List

/-- The byte string an item commitment is the hash of. -/
def itemPreimage (termsHash : Bytes32) (lane : UInt8) (seq : UInt32) (ownerKey : Bytes32)
    (payload : Bytes) : Bytes :=
  itemTag ++ termsHash.bytes ++ [lane] ++ leBytes 4 seq.toNat ++ ownerKey.bytes ++ payload

lemma prefixFree_leU32 : PrefixFree fun a : UInt32 => leBytes 4 a.toNat :=
  prefixFree_leBytes (fun _ _ => UInt32.toNat_inj.mp) UInt32.toNat_lt

lemma canonicalBytes_injective : Function.Injective IssuanceTerms.canonicalBytes := by
  rintro ⟨_, _, _, rule, _, _, _⟩ ⟨_, _, _, rule', _, _, _⟩ h
  simp only [IssuanceTerms.canonicalBytes, append_assoc, append_cancel_left_eq,
    prefixFree_bytes32.append_iff, prefixFree_leU32.append_iff, cons_append, nil_append,
    cons.injEq] at h
  obtain ⟨rfl, rfl, rfl, hrule, rfl, rfl, hmetadata⟩ := h
  obtain ⟨-, rfl⟩ := append_inj hmetadata (by simp)
  obtain rfl : rule = rule' := by
    revert hrule
    cases rule <;> cases rule' <;> decide
  rfl

/-- The terms, the committed item and the proof-of-work input are determined by their bytes. -/
theorem commitments_unambiguous : Function.Injective IssuanceTerms.canonicalBytes ∧
    (∀ (P : Platform) (t : Bytes32) (lane : UInt8) (seq : UInt32) (key : Bytes32) (payload : Bytes),
      itemCommitment P t lane seq key payload = P.sha256 (itemPreimage t lane seq key payload)) ∧
    (∀ (t t' key key' : Bytes32) (lane lane' : UInt8) (seq seq' : UInt32)
      (payload payload' : Bytes),
      itemPreimage t lane seq key payload = itemPreimage t' lane' seq' key' payload' →
        t = t' ∧ lane = lane' ∧ seq = seq' ∧ key = key' ∧ payload = payload') ∧
    ∀ (t t' item item' : Bytes32) (lane lane' : UInt8) (seq seq' : UInt32) (nonce nonce' : UInt64),
      powInput t lane seq item nonce = powInput t' lane' seq' item' nonce' →
        t = t' ∧ lane = lane' ∧ seq = seq' ∧ item = item' ∧ nonce = nonce' := by
  have hu64 : PrefixFree fun a : UInt64 => leBytes 8 a.toNat :=
    prefixFree_leBytes (fun _ _ => UInt64.toNat_inj.mp) UInt64.toNat_lt
  refine ⟨canonicalBytes_injective, fun _ _ _ _ _ _ => rfl, ?_, ?_⟩
  · intro t t' key key' lane lane' seq seq' payload payload' h
    simpa only [itemPreimage, append_assoc, append_cancel_left_eq,
      prefixFree_bytes32.append_iff, prefixFree_leU32.append_iff, cons_append,
      nil_append, cons.injEq] using h
  · intro t t' item item' lane lane' seq seq' nonce nonce' h
    simpa only [powInput, append_assoc, prefixFree_bytes32.append_iff,
      prefixFree_leU32.append_iff, hu64.inj, cons_append, nil_append, cons.injEq,
      true_and] using h

end Catomicals.Issuance
