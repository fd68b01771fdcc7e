import Catomicals.Issuance.Transaction

/-!
# Issuance terms, issuer states and the proof-of-work challenge

The creator's terms, the state an issuer output commits to, and the digest a nonce has to bring
below the target, each the hash of a byte string that is defined field by field.
-/
namespace Catomicals.Issuance

open Base

inductive SuccessorRule where
  | recursiveIssuer | shardedLanes
  deriving DecidableEq

def SuccessorRule.toU8 : SuccessorRule → UInt8
  | recursiveIssuer => 1
  | shardedLanes => 2

structure IssuanceTerms where
  itemId : Bytes32
  targetPrefix : UInt8
  totalSupply : UInt32
  successorRule : SuccessorRule
  laneCount : UInt8
  salt : Bytes32
  metadata : Bytes

/-- `TERMS_TAG`, the bytes of `catomicals-issuance-v1`. -/
def termsTag : Bytes := "catomicals-issuance-v1".toUTF8.toList

/-- `ITEM_TAG`, the bytes of `catomicals-item-v1`. -/
def itemTag : Bytes := "catomicals-item-v1".toUTF8.toList

namespace IssuanceTerms

def canonicalBytes (t : IssuanceTerms) : Bytes :=
  termsTag ++ t.itemId.bytes ++ [t.targetPrefix] ++ leBytes 4 t.totalSupply.toNat ++
    [t.successorRule.toU8] ++ [t.laneCount] ++ t.salt.bytes ++ leBytes 8 t.metadata.length ++
    t.metadata

def termsHash (P : Platform) (t : IssuanceTerms) : Bytes32 := P.sha256 t.canonicalBytes

/-- The number of issuer outputs the issuance creates. -/
def materializedLanes (t : IssuanceTerms) : UInt8 :=
  match t.successorRule with
  | .recursiveIssuer => 1
  | .shardedLanes => max t.laneCount 1

/-- The share of a lane: an even split, and one more for the first lanes up to the remainder. -/
def laneSupply (t : IssuanceTerms) (lane : UInt8) : UInt32 :=
  let lanes := t.materializedLanes.toUInt32
  let base := t.totalSupply / lanes
  let extra := t.totalSupply % lanes
  if lane.toUInt32 < extra then base + 1 else base

end IssuanceTerms

/-- The item commitment: the hash of the tagged terms hash, lane, sequence, owner and
payload. -/
def itemCommitment (P : Platform) (termsHash : Bytes32) (lane : UInt8) (seq : UInt32)
    (ownerKey : Bytes32) (payload : Bytes) : Bytes32 :=
  P.sha256 (itemTag ++ termsHash.bytes ++ [lane] ++ leBytes 4 seq.toNat ++ ownerKey.bytes ++
    payload)

def stateFieldTag : UInt8 := 0x01

def stateIntLen : ℕ := 5

def stateByteLen : ℕ := 2

/-- `IssuerState`, the state an issuer tapscript commits to. -/
structure IssuerState where
  termsHash : Bytes32
  lane : UInt8
  (seq remaining : UInt32)
  targetPrefix : UInt8
  deriving DecidableEq

inductive StateError where
  | targetPrefixOutOfRange (targetPrefix : UInt8)
  | laneOutOfRange (lane : UInt8)
  | seqOverflow
  deriving DecidableEq

def encodeU32 (value : UInt32) : Bytes := stateFieldTag :: leBytes 4 value.toNat

def encodeU8 (value : UInt8) : Bytes := [stateFieldTag, value]

namespace IssuerState

def initial (P : Platform) (terms : IssuanceTerms) (lane : UInt8) :
    Except StateError IssuerState :=
  if 32 < terms.targetPrefix then .error (.targetPrefixOutOfRange terms.targetPrefix)
  else if terms.materializedLanes ≤ lane then .error (.laneOutOfRange lane)
  else .ok { termsHash := terms.termsHash P, lane := lane, seq := 0,
             remaining := terms.laneSupply lane, targetPrefix := terms.targetPrefix }

/-- The state after one mint of the lane, or nothing when the lane is exhausted. -/
def successor (s : IssuerState) : Except StateError (Option IssuerState) :=
  if s.remaining = 0 then .ok none
  else
    let nextRemaining := s.remaining - 1
    if s.seq.toNat + 1 < 2 ^ 32 then
      if nextRemaining = 0 then .ok none
      else .ok (some { s with seq := s.seq + 1, remaining := nextRemaining })
    else .error .seqOverflow

def toScriptConstants (s : IssuerState) : List Bytes :=
  [s.termsHash.bytes, encodeU32 s.seq, encodeU32 s.remaining, encodeU8 s.targetPrefix,
    encodeU8 s.lane]

/-- Decode the constants of a script; the tag bytes are read behind the length tests. -/
def fromScriptConstants (termsHash seq remaining targetPrefix lane : Bytes) :
    Option IssuerState :=
  if termsHash.length = 32 ∧ seq.length = stateIntLen ∧ remaining.length = stateIntLen ∧
      targetPrefix.length = stateByteLen ∧ lane.length = stateByteLen ∧
      seq.head? = some stateFieldTag ∧ remaining.head? = some stateFieldTag ∧
      targetPrefix.head? = some stateFieldTag ∧ lane.head? = some stateFieldTag then do
    let hash ← Bytes32.ofBytes termsHash
    let target ← targetPrefix[1]?
    let laneByte ← lane[1]?
    return { termsHash := hash, seq := UInt32.ofNat (ofLeBytes (seq.drop 1)),
             remaining := UInt32.ofNat (ofLeBytes (remaining.drop 1)),
             targetPrefix := target, lane := laneByte }
  else none

end IssuerState

def powPrefixByte : UInt8 := 0x01

def powInput (termsHash : Bytes32) (lane : UInt8) (seq : UInt32) (commitment : Bytes32)
    (nonce : UInt64) : Bytes :=
  termsHash.bytes ++ [stateFieldTag, lane] ++ [stateFieldTag] ++ leBytes 4 seq.toNat ++
    commitment.bytes ++ leBytes 8 nonce.toNat

def powHash (P : Platform) (termsHash : Bytes32) (lane : UInt8) (seq : UInt32)
    (commitment : Bytes32) (nonce : UInt64) : Bytes32 :=
  P.sha256 (powInput termsHash lane seq commitment nonce)

/-- Does the digest begin with `targetPrefix` copies of the prefix byte? -/
def meetsTarget (digest : Bytes32) (targetPrefix : UInt8) : Except Panic Bool :=
  if targetPrefix.toNat = 0 then .ok true
  else if 32 < targetPrefix.toNat then .ok false
  else do
    let head ← sliceTo digest.bytes targetPrefix.toNat
    return head.all (· == powPrefixByte)

def hashTail (digest : Bytes32) (targetPrefix : UInt8) : Except Panic Bytes :=
  sliceFrom digest.bytes targetPrefix.toNat

lemma targetPrefix_le_of_meetsTarget {digest : Bytes32} {targetPrefix : UInt8}
    (h : meetsTarget digest targetPrefix = .ok true) : targetPrefix.toNat ≤ 32 := by
  by_contra hgt
  unfold meetsTarget at h
  rw [if_neg (by omega), if_pos (by omega)] at h
  simp at h

end Catomicals.Issuance
