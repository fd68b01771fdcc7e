import Catomicals.Base.Bytes
import Catomicals.Base.Outcome
import Mathlib.Algebra.Order.BigOperators.Group.List
import Mathlib.Algebra.Order.Ring.Nat

/-!
# Transactions, blocks and the linked libraries

The data types of the `bitcoin` crate as far as they are read or built. The functions of the linked
crates are collected in `Platform`, with the choice whether integer overflow is checked.
-/
namespace Catomicals.Issuance

open Base

abbrev Txid := Bytes32
abbrev BlockHash := Bytes32

structure OutPoint where
  txid : Txid
  vout : UInt32
  deriving DecidableEq

/-- `OutPoint::null`, the reference a coinbase input carries. -/
def OutPoint.null : OutPoint := ⟨Bytes32.zeros, 0xffffffff⟩

def OutPoint.isNull (o : OutPoint) : Bool := o == OutPoint.null

structure TxIn where
  previousOutput : OutPoint
  scriptSig : Bytes
  sequence : UInt32
  witness : List Bytes
  deriving DecidableEq

structure TxOut where
  value : UInt64
  scriptPubkey : Bytes
  deriving DecidableEq

structure Transaction where
  (version lockTime : UInt32)
  input : List TxIn
  output : List TxOut
  deriving DecidableEq

/-- A lower bound of the serialized size: every input and every output takes a byte. -/
def Transaction.footprint (tx : Transaction) : ℕ := 1 + tx.input.length + tx.output.length

structure BlockHeader where
  version : UInt32
  prevBlockhash : BlockHash
  merkleRoot : Bytes32
  (time bits nonce : UInt32)
  deriving DecidableEq

/-- A decoded block, stored as one value of less than `2 ^ 32` bytes, which bounds its parts. -/
structure Block where
  header : BlockHeader
  txdata : List Transaction
  fits : (txdata.map Transaction.footprint).sum < 2 ^ 32
  deriving DecidableEq

structure XOnlyPublicKey where
  serialize : Bytes32
  deriving DecidableEq

structure Platform where
  /-- `Sha256::digest` -/
  sha256 : Bytes → Bytes32
  /-- `Transaction::compute_txid` -/
  computeTxid : Transaction → Txid
  /-- `Block::block_hash`, a function of the header -/
  blockHash : BlockHeader → BlockHash
  /-- the 32-byte arrays `XOnlyPublicKey::from_slice` accepts -/
  isXOnly : Bytes32 → Bool
  /-- the taproot output key of the single-leaf tree with this script under the protocol's
  internal key -/
  taprootOutputKey : Bytes → XOnlyPublicKey
  /-- `ControlBlock::decode`, with `verify_taproot_commitment` of the decoded block -/
  decodeControlBlock : Bytes → Option (XOnlyPublicKey → Bytes → Bool)
  /-- whether the build profile checks integer overflow -/
  overflowChecks : Bool

def Platform.xonlyFromSlice (P : Platform) (b : Bytes) : Option XOnlyPublicKey :=
  (Bytes32.ofBytes b).bind fun k => if P.isXOnly k then some ⟨k⟩ else none

/-- Digests are 32 times `0x01`, and a leaf's key is what its script has behind the first push. -/
def onesPlatform : Platform where
  sha256 := fun _ => .replicate 1
  computeTxid := fun _ => .zeros
  blockHash := fun _ => .zeros
  isXOnly := fun _ => true
  taprootOutputKey := fun script => ⟨(Bytes32.ofBytes ((script.drop 33).take 32)).getD .zeros⟩
  decodeControlBlock := fun _ => some fun _ _ => true
  overflowChecks := true

namespace Block

variable {b : Block} {tx : Transaction} (h : tx ∈ b.txdata)
include h

lemma footprint_le_of_mem : tx.footprint ≤ (b.txdata.map Transaction.footprint).sum :=
  List.single_le_sum (by simp) _ (List.mem_map_of_mem h)

lemma input_length_lt : tx.input.length < 2 ^ 32 := by
  have hsum := footprint_le_of_mem h
  have hfits := b.fits
  unfold Transaction.footprint at hsum hfits
  omega

lemma output_length_lt : tx.output.length < 2 ^ 32 := by
  have hsum := footprint_le_of_mem h
  have hfits := b.fits
  unfold Transaction.footprint at hsum hfits
  omega

end Block

end Catomicals.Issuance
