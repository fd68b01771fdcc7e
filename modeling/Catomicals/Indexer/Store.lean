import Catomicals.Base.Table
import Catomicals.Issuance.Verify

/-!
# The records and column families of the indexer

A column family is a table, and a record is stored as itself, since encoding and decoding are
inverse. The families are independent, so a batch acts on each of them by its own edits in order.
-/
namespace Catomicals.Index

open Base Issuance

inductive ConfirmationStatus where
  | confirmed

inductive ObservationKind where
  | discoveryOnly | walletPolicyVerified

structure RawEvidenceRef where
  blockHash : BlockHash
  txIndex : UInt32

structure Provenance where
  blockHash : BlockHash
  blockHeight : UInt32
  txid : Txid
  txIndex : UInt32
  (inputIndex outputIndex : Option UInt32)
  rawEvidence : RawEvidenceRef
  verifierVersion : String
  confirmation : ConfirmationStatus
  observation : ObservationKind

structure Tip where
  hash : BlockHash
  height : UInt32
  deriving DecidableEq

structure BlockRecord where
  hash : BlockHash
  height : UInt32
  previousHash : BlockHash
  transactionCount : UInt32
  rawBlock : Block
  confirmation : ConfirmationStatus

structure TransactionRecord where
  txid : Txid
  provenance : Provenance

structure UtxoRecord where
  outpoint : OutPoint
  valueSat : UInt64
  scriptPubkey : Bytes
  provenance : Provenance

structure IssuanceTransitionRecord where
  termsHash : Bytes32
  lane : UInt8
  (sequence remainingBefore : UInt32)
  (issuerOutpoint itemOutpoint : OutPoint)
  successorOutpoint : Option OutPoint
  (itemCommitment ownerKey : Bytes32)
  feeSat : UInt64
  provenance : Provenance

structure ApplyStats where
  transactions : UInt32 := 0
  createdOutputs : UInt32 := 0
  spentOutputs : UInt32 := 0
  issuanceTransitions : UInt32 := 0
  deriving DecidableEq

structure UndoRecord where
  blockHash : BlockHash
  height : UInt32
  previousTip : Option Tip
  createdTxids : List Txid
  createdOutpoints : List OutPoint
  restoredUtxos : List UtxoRecord
  createdTransitions : List (Txid × UInt32)

inductive IndexError where
  | rocks
  | heightMismatch (expected actual : UInt32)
  | parentMismatch (expected actual : BlockHash)
  | duplicateBlock (hash : BlockHash)
  | duplicateTransaction (txid : Txid)
  | missingPrevout (outpoint : OutPoint)
  | duplicateInput (outpoint : OutPoint)
  | empty
  | unknownAncestor (hash : BlockHash)
  | invalidReplacement (height : UInt32)
  | writerPoisoned
  deriving DecidableEq

/-- The terms a store verifies mints against, keyed by their hash. -/
structure IndexerConfig where
  verifierVersion : String
  issuanceTerms : Table Bytes32 IssuanceTerms

/-- The keys of the `meta` family that change after the store is opened. -/
inductive MetaKey where
  | tip
  deriving DecidableEq

structure Db where
  blocks : Table BlockHash BlockRecord
  heights : Table UInt32 BlockHash
  transactions : Table Txid TransactionRecord
  utxos : Table OutPoint UtxoRecord
  transitions : Table (Txid × UInt32) IssuanceTransitionRecord
  undo : Table BlockHash UndoRecord
  metadata : Table MetaKey Tip

inductive WriteOp where
  | blocks (e : Edit BlockHash BlockRecord)
  | heights (e : Edit UInt32 BlockHash)
  | transactions (e : Edit Txid TransactionRecord)
  | utxos (e : Edit OutPoint UtxoRecord)
  | transitions (e : Edit (Txid × UInt32) IssuanceTransitionRecord)
  | undo (e : Edit BlockHash UndoRecord)
  | metadata (e : Edit MetaKey Tip)

abbrev WriteBatch := List WriteOp

/-! The edits a batch makes to one family, in order. -/

namespace WriteBatch

variable (b : WriteBatch)

def blocks : List (Edit BlockHash BlockRecord) :=
  b.filterMap fun | .blocks e => some e | _ => none

def heights : List (Edit UInt32 BlockHash) :=
  b.filterMap fun | .heights e => some e | _ => none

def transactions : List (Edit Txid TransactionRecord) :=
  b.filterMap fun | .transactions e => some e | _ => none

def utxos : List (Edit OutPoint UtxoRecord) :=
  b.filterMap fun | .utxos e => some e | _ => none

def transitions : List (Edit (Txid × UInt32) IssuanceTransitionRecord) :=
  b.filterMap fun | .transitions e => some e | _ => none

def undo : List (Edit BlockHash UndoRecord) :=
  b.filterMap fun | .undo e => some e | _ => none

def metadata : List (Edit MetaKey Tip) :=
  b.filterMap fun | .metadata e => some e | _ => none

end WriteBatch

namespace Db

def empty : Db := ⟨.empty, .empty, .empty, .empty, .empty, .empty, .empty⟩

/-- `write_opt`: all entries of a batch at once. -/
def write (db : Db) (b : WriteBatch) : Db where
  blocks := db.blocks.applyAll (WriteBatch.blocks b)
  heights := db.heights.applyAll (WriteBatch.heights b)
  transactions := db.transactions.applyAll (WriteBatch.transactions b)
  utxos := db.utxos.applyAll (WriteBatch.utxos b)
  transitions := db.transitions.applyAll (WriteBatch.transitions b)
  undo := db.undo.applyAll (WriteBatch.undo b)
  metadata := db.metadata.applyAll (WriteBatch.metadata b)

def tip (db : Db) : Option Tip := db.metadata.get .tip

def blockByHeight (db : Db) (height : UInt32) : Option BlockRecord :=
  (db.heights.get height).bind db.blocks.get

end Db

end Catomicals.Index
