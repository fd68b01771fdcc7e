import Catomicals.Base.Fields
import Catomicals.Trading.Payments

/-!
# What trade commitments bind

The canonical bytes of a listing determine the listing, and the bytes a buyer signs a hash of
determine the trade. The source's byte strings and lists are shorter than 2^64.
-/
namespace Catomicals.Trading

open Base Base.Outcome Issuance List

/-- The scripts of the listing have lengths of the source's type. -/
structure ListingTerms.Sized (l : ListingTerms) : Prop where
  receipt : l.receipt.scriptPubkey.length < 2 ^ 64
  payout : l.sellerPayoutScript.length < 2 ^ 64
  creatorFee : l.creatorFeeScript.length < 2 ^ 64
  cancel : l.cancelScript.length < 2 ^ 64

lemma pushLenPrefixed_append {a b r s : Bytes} (ha : a.length < 2 ^ 64) (hb : b.length < 2 ^ 64) :
    pushLenPrefixed a ++ r = pushLenPrefixed b ++ s ↔ a = b ∧ r = s := by
  rw [pushLenPrefixed, pushLenPrefixed, append_assoc, append_assoc]
  exact lengthPrefixed_append ha hb

lemma ListingTerms.eq_of_encoding {l l' : ListingTerms} (hl : l.Sized) (hl' : l'.Sized)
    (h : l.encoding = l'.encoding) : l = l' := by
  unfold encoding at h
  simp only [append_assoc, append_cancel_left_eq, prefixFree_u16.append_iff,
    prefixFree_u32.append_iff, prefixFree_u64.append_iff, prefixFree_bytes32.append_iff,
    pushLenPrefixed_append hl.receipt hl'.receipt, pushLenPrefixed_append hl.payout hl'.payout,
    pushLenPrefixed_append hl.creatorFee hl'.creatorFee,
    pushLenPrefixed_append hl.cancel hl'.cancel, cons_append, nil_append,
    cons.injEq, true_and, prefixFree_u64.inj] at h
  obtain ⟨_, ⟨⟩, ⟨⟨⟩, ⟨_, _⟩, _, _, _, _, _, _, _⟩, ⟨_⟩, _, _, _, _, _, _, _⟩ := l
  simp_all

/-- The previous outputs and their serializations have lengths of the source's type. -/
structure SizedPrevouts (T : TradePlatform) (prevouts : List TxOut) : Prop where
  count : prevouts.length < 2 ^ 64
  size : ∀ o ∈ prevouts, (T.serializeTxOut o).length < 2 ^ 64

lemma eq_of_flatMap_prevouts {T : TradePlatform} (hinj : Function.Injective T.serializeTxOut)
    {p p' : List TxOut} (hp : SizedPrevouts T p) (hp' : SizedPrevouts T p')
    (h : beBytes 8 p.length ++ p.flatMap (fun o => pushLenPrefixed (T.serializeTxOut o)) =
      beBytes 8 p'.length ++ p'.flatMap fun o => pushLenPrefixed (T.serializeTxOut o)) :
    p = p' := by
  obtain ⟨hcount, houts⟩ := append_inj h (by simp)
  rw [beBytes_inj] at hcount
  have hfits := hp.count
  have hfits' := hp'.count
  refine flatMap_inj (.inr (by omega)) ?_ houts
  intro o ho o' ho' r s heq
  obtain ⟨hser, hrest⟩ := (pushLenPrefixed_append (hp.size o ho) (hp'.size o' ho')).mp heq
  exact ⟨hinj hser, hrest⟩

/-- The bytes of valid listings determine every field, and those behind a buyer's signature the
listing commitment and the trade, if different outputs are serialized differently. -/
theorem commitments_bind_terms (T : TradePlatform) :
    (∀ l l' : ListingTerms, l.Sized → l'.Sized → ∀ bytes, l.canonicalBytes = .ok bytes →
      l'.canonicalBytes = .ok bytes → l = l') ∧
    (Function.Injective T.serializeTxOut →
      ∀ (c c' : Bytes32) (o o' : OutPoint) (t t' : Txid) (k k' : XOnlyPublicKey) (x x' : UInt32)
        (p p' : List TxOut), SizedPrevouts T p → SizedPrevouts T p' →
        buyerOwnershipPreimage T c o t k x p = buyerOwnershipPreimage T c' o' t' k' x' p' →
          c = c' ∧ o = o' ∧ t = t' ∧ k = k' ∧ x = x' ∧ p = p') := by
  constructor
  · intro l _ hl hl' _ hbytes hbytes'
    simp only [ListingTerms.canonicalBytes, bind_eq_ok, pure_eq_ok] at hbytes hbytes'
    obtain ⟨-, -, rfl⟩ := hbytes
    obtain ⟨-, -, henc⟩ := hbytes'
    exact ListingTerms.eq_of_encoding hl hl' henc.symm
  · rintro hinj _ _ ⟨_, _⟩ ⟨_, _⟩ _ _ ⟨_⟩ ⟨_⟩ _ _ _ _ hp hp' h
    simp only [buyerOwnershipPreimage, append_assoc, append_cancel_left_eq,
      prefixFree_bytes32.append_iff, prefixFree_u32.append_iff] at h
    obtain ⟨rfl, rfl, rfl, rfl, rfl, rfl, hprevs⟩ := h
    exact ⟨rfl, rfl, rfl, rfl, rfl, eq_of_flatMap_prevouts hinj hp hp' hprevs⟩

/-- Linked crates that write an output as its value and its script. -/
def plainPlatform : TradePlatform :=
  { soloPlatform buyOf with serializeTxOut := fun o => beBytes 8 o.value.toNat ++ o.scriptPubkey }

theorem commitments_bind_terms_solo :
    soloListing.canonicalBytes ≠ { soloListing with priceSat := 6 }.canonicalBytes ∧
      buyerOwnershipPreimage plainPlatform .zeros ⟨.zeros, 0⟩ .zeros ⟨.zeros⟩ 9 [⟨1, []⟩] ≠
        buyerOwnershipPreimage plainPlatform .zeros ⟨.zeros, 0⟩ .zeros ⟨.zeros⟩ 9 [⟨2, []⟩] := by
  have hbind := commitments_bind_terms plainPlatform
  constructor
  · intro h
    have hsized : soloListing.Sized := ⟨by decide, by decide, by decide, by decide⟩
    have hprice := hbind.1 soloListing { soloListing with priceSat := 6 } hsized
      ⟨hsized.1, hsized.2, hsized.3, hsized.4⟩ soloListing.encoding rfl (h ▸ rfl)
    exact absurd hprice (by decide)
  · intro h
    have hinj : Function.Injective plainPlatform.serializeTxOut := by
      rintro ⟨_, _⟩ ⟨_, _⟩ heq
      obtain ⟨rfl, rfl⟩ := prefixFree_u64.append_iff.mp heq
      rfl
    have houts := (hbind.2 hinj _ _ _ _ _ _ _ _ _ _ _ _ ⟨by decide, by decide⟩
      ⟨by decide, by decide⟩ h).2.2.2.2.2
    exact absurd houts (by decide)

end Catomicals.Trading
