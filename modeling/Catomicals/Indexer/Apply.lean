import Catomicals.Indexer.Store

/-!
# Applying and rolling back one block

`planBlock` is `apply_block_locked` up to its single write, and `planRollback` the inverse batch
that is read from the undo record. The store changes only when such a batch is written.
-/
namespace Catomicals.Index

open Base Base.Outcome Issuance

def provenance (blockHash : BlockHash) (blockHeight : UInt32) (txid : Txid) (txIndex : UInt32)
    (inputIndex outputIndex : Option UInt32) (verifierVersion : String)
    (observation : ObservationKind) : Provenance where
  blockHash := blockHash
  blockHeight := blockHeight
  txid := txid
  txIndex := txIndex
  inputIndex := inputIndex
  outputIndex := outputIndex
  rawEvidence := ⟨blockHash, txIndex⟩
  verifierVersion := verifierVersion
  confirmation := .confirmed
  observation := observation

structure BlockScan where
  batch : WriteBatch := []
  overlay : Table OutPoint (Option UtxoRecord) := .empty
  createdInBlock : List OutPoint := []
  restoredUtxos : List UtxoRecord := []
  createdOutpoints : List OutPoint := []
  createdTxids : List Txid := []
  createdTransitions : List (Txid × UInt32) := []
  stats : ApplyStats := {}

namespace BlockScan

variable (scan : BlockScan)

def addTransition (key : Txid × UInt32) (record : IssuanceTransitionRecord) (count : UInt32) :
    BlockScan :=
  { scan with
    batch := scan.batch ++ [.transitions (.put key record)]
    createdTransitions := scan.createdTransitions ++ [key]
    stats := { scan.stats with issuanceTransitions := count } }

/-- An output is spent; its record is kept for the undo unless this block made it. -/
def spendOutput (o : OutPoint) (record : UtxoRecord) (count : UInt32) : BlockScan :=
  { scan with
    restoredUtxos :=
      if o ∈ scan.createdInBlock then scan.restoredUtxos else scan.restoredUtxos ++ [record]
    overlay := scan.overlay.put o none
    batch := scan.batch ++ [.utxos (.delete o)]
    stats := { scan.stats with spentOutputs := count } }

def addTransaction (record : TransactionRecord) (count : UInt32) : BlockScan :=
  { scan with
    batch := scan.batch ++ [.transactions (.put record.txid record)]
    createdTxids := scan.createdTxids ++ [record.txid]
    stats := { scan.stats with transactions := count } }

def createOutput (record : UtxoRecord) (count : UInt32) : BlockScan :=
  { scan with
    batch := scan.batch ++ [.utxos (.put record.outpoint record)]
    overlay := scan.overlay.put record.outpoint (some record)
    createdInBlock := record.outpoint :: scan.createdInBlock
    createdOutpoints := scan.createdOutpoints ++ [record.outpoint]
    stats := { scan.stats with createdOutputs := count } }

end BlockScan

/-- Where a transaction stands: its block, height, id and position in the block. -/
structure TxPosition where
  blockHash : BlockHash
  height : UInt32
  txid : Txid
  txIndex : ℕ

def checkInputs : List OutPoint → List TxIn → Outcome IndexError Unit
  | _, [] => .ok ()
  | seen, input :: rest =>
    if input.previousOutput.isNull then checkInputs seen rest
    else if input.previousOutput ∈ seen then .error (.error (.duplicateInput input.previousOutput))
    else checkInputs (input.previousOutput :: seen) rest

/-- The output a reference stands for: the overlay first, then the stored set. -/
def resolveOverlayUtxo (db : Db) (overlay : Table OutPoint (Option UtxoRecord)) (o : OutPoint) :
    Outcome IndexError UtxoRecord :=
  match overlay.get o with
  | some (some record) => .ok record
  | some none => .error (.error (.missingPrevout o))
  | none => okOr (db.utxos.get o) (.missingPrevout o)

def resolveInputs (db : Db) (overlay : Table OutPoint (Option UtxoRecord)) :
    List TxIn → Outcome IndexError (List (Option UtxoRecord))
  | [] => .ok []
  | input :: rest =>
    if input.previousOutput.isNull then do
      let records ← resolveInputs db overlay rest
      return none :: records
    else do
      let record ← resolveOverlayUtxo db overlay input.previousOutput
      let records ← resolveInputs db overlay rest
      return some record :: records

/-- The transition record of a verified mint. -/
def transitionRecord (cfg : IndexerConfig) (pos : TxPosition) (issuerOutpoint : OutPoint)
    (verified : VerifiedMint) : IssuanceTransitionRecord where
  termsHash := verified.issuerState.termsHash
  lane := verified.issuerState.lane
  sequence := verified.issuerState.seq
  remainingBefore := verified.issuerState.remaining
  issuerOutpoint := issuerOutpoint
  itemOutpoint := ⟨pos.txid, UInt32.ofNat verified.itemOutputIndex⟩
  successorOutpoint := verified.successorOutputIndex.map fun i => ⟨pos.txid, UInt32.ofNat i⟩
  itemCommitment := verified.witness.itemCommitment
  ownerKey := verified.witness.ownerKey.serialize
  feeSat := verified.fee
  provenance := provenance pos.blockHash pos.height pos.txid (UInt32.ofNat pos.txIndex)
    (some (UInt32.ofNat verified.issuerInputIndex)) (some (UInt32.ofNat verified.itemOutputIndex))
    cfg.verifierVersion .walletPolicyVerified

variable (P : Platform)

def recordTransition (cfg : IndexerConfig) (pos : TxPosition)
    (issuerOutpoint : OutPoint) (verified : VerifiedMint) (scan : BlockScan) :
    Outcome IndexError BlockScan := do
  let count ← ofPanic (addU32 P.overflowChecks scan.stats.issuanceTransitions 1)
  return scan.addTransition (pos.txid, UInt32.ofNat verified.issuerInputIndex)
    (transitionRecord cfg pos issuerOutpoint verified) count

/-- One discovered issuer spend: unknown terms, a null input and a failed mint are passed over. -/
def indexIssuerSpend (cfg : IndexerConfig) (pos : TxPosition) (tx : Transaction)
    (inputRecords : List (Option UtxoRecord)) (scan : BlockScan) (d : DiscoveredIssuerSpend) :
    Outcome IndexError BlockScan :=
  match cfg.issuanceTerms.get d.state.termsHash, inputRecords[d.inputIndex]?.join with
  | some terms, some previous =>
    match verifyMint P tx d.outpoint ⟨previous.valueSat, previous.scriptPubkey⟩ terms with
    | .ok verified => recordTransition P cfg pos d.outpoint verified scan
    | .error (.error _) => .ok scan
    | .error (.panic p) => .error (.panic p)
  | _, _ => .ok scan

def spendInputs (P : Platform) (inputRecords : List (Option UtxoRecord)) :
    List (TxIn × ℕ) → BlockScan → Outcome IndexError BlockScan
  | [], scan => .ok scan
  | (input, inputIndex) :: rest, scan =>
    if input.previousOutput.isNull then spendInputs P inputRecords rest scan
    else do
      let slot ← ofPanic (index inputRecords inputIndex)
      let record ← okOr slot (.missingPrevout input.previousOutput)
      let count ← ofPanic (addU32 P.overflowChecks scan.stats.spentOutputs 1)
      spendInputs P inputRecords rest (scan.spendOutput input.previousOutput record count)

def transactionRecord (cfg : IndexerConfig) (pos : TxPosition) : TransactionRecord where
  txid := pos.txid
  provenance := provenance pos.blockHash pos.height pos.txid (UInt32.ofNat pos.txIndex)
    none none cfg.verifierVersion .discoveryOnly

def recordTransaction (cfg : IndexerConfig) (pos : TxPosition)
    (scan : BlockScan) : Outcome IndexError BlockScan := do
  let count ← ofPanic (addU32 P.overflowChecks scan.stats.transactions 1)
  return scan.addTransaction (transactionRecord cfg pos) count

def utxoRecord (cfg : IndexerConfig) (pos : TxPosition) (output : TxOut) (outputIndex : ℕ) :
    UtxoRecord where
  outpoint := ⟨pos.txid, UInt32.ofNat outputIndex⟩
  valueSat := output.value
  scriptPubkey := output.scriptPubkey
  provenance := provenance pos.blockHash pos.height pos.txid (UInt32.ofNat pos.txIndex)
    none (some (UInt32.ofNat outputIndex)) cfg.verifierVersion .discoveryOnly

def createOutputs (P : Platform) (cfg : IndexerConfig) (pos : TxPosition) :
    List (TxOut × ℕ) → BlockScan → Outcome IndexError BlockScan
  | [], scan => .ok scan
  | (output, outputIndex) :: rest, scan => do
    let count ← ofPanic (addU32 P.overflowChecks scan.stats.createdOutputs 1)
    createOutputs P cfg pos rest (scan.createOutput (utxoRecord cfg pos output outputIndex) count)

/-- The loop body of `apply_block_locked`. -/
def scanTx (cfg : IndexerConfig) (db : Db) (pos : TxPosition) (tx : Transaction)
    (scan : BlockScan) : Outcome IndexError BlockScan := do
  checkInputs [] tx.input
  let inputRecords ← resolveInputs db scan.overlay tx.input
  let discovered ← ofPanic (discover P tx)
  let scan ← discovered.consumedIssuers.foldlM (indexIssuerSpend P cfg pos tx inputRecords) scan
  let scan ← spendInputs P inputRecords tx.input.zipIdx scan
  let scan ← recordTransaction P cfg pos scan
  createOutputs P cfg pos tx.output.zipIdx scan

/-- The pass over the transactions from position `txIndex` on. -/
def scanTxs (P : Platform) (cfg : IndexerConfig) (db : Db) (blockHash : BlockHash)
    (height : UInt32) : ℕ → List Transaction → BlockScan → Outcome IndexError BlockScan
  | _, [], scan => .ok scan
  | txIndex, tx :: rest, scan => do
    let scan ← scanTx P cfg db ⟨blockHash, height, P.computeTxid tx, txIndex⟩ tx scan
    scanTxs P cfg db blockHash height (txIndex + 1) rest scan

def checkUniqueTxids : List Txid → List Txid → Outcome IndexError Unit
  | _, [] => .ok ()
  | seen, txid :: rest =>
    if txid ∈ seen then .error (.error (.duplicateTransaction txid))
    else checkUniqueTxids (txid :: seen) rest

def checkNewTxids (db : Db) : List Txid → Outcome IndexError Unit
  | [] => .ok ()
  | txid :: rest => do
    ensure (db.transactions.get txid = none) (.duplicateTransaction txid)
    checkNewTxids db rest

def expectedNext (db : Db) : UInt32 × BlockHash :=
  match db.tip with
  | some tip => (saturatingSucc tip.height, tip.hash)
  | none => (0, Bytes32.zeros)

/-- The checks before the pass over the transactions. -/
def checkBlock (db : Db) (height : UInt32) (block : Block) : Outcome IndexError Unit := do
  ensure (height = (expectedNext db).1) (.heightMismatch (expectedNext db).1 height)
  ensure (block.header.prevBlockhash = (expectedNext db).2)
    (.parentMismatch (expectedNext db).2 block.header.prevBlockhash)
  let blockHash := P.blockHash block.header
  ensure (db.blocks.get blockHash = none) (.duplicateBlock blockHash)
  checkUniqueTxids [] (block.txdata.map P.computeTxid)
  checkNewTxids db (block.txdata.map P.computeTxid)

def undoRecord (db : Db) (height : UInt32) (block : Block) (scan : BlockScan) : UndoRecord where
  blockHash := P.blockHash block.header
  height := height
  previousTip := db.tip
  createdTxids := scan.createdTxids
  createdOutpoints := scan.createdOutpoints
  restoredUtxos := scan.restoredUtxos
  createdTransitions := scan.createdTransitions

def blockRecord (height : UInt32) (block : Block) : BlockRecord where
  hash := P.blockHash block.header
  height := height
  previousHash := block.header.prevBlockhash
  transactionCount := UInt32.ofNat block.txdata.length
  rawBlock := block
  confirmation := .confirmed

def closingOps (db : Db) (height : UInt32) (block : Block) (scan : BlockScan) : WriteBatch :=
  let blockHash := P.blockHash block.header
  [.blocks (.put blockHash (blockRecord P height block)),
    .heights (.put height blockHash),
    .metadata (.put .tip ⟨blockHash, height⟩),
    .undo (.put blockHash (undoRecord P db height block scan))]

/-- The batch and the counters `apply_block_locked` arrives at. -/
def planBlock (cfg : IndexerConfig) (db : Db) (height : UInt32) (block : Block) :
    Outcome IndexError (WriteBatch × ApplyStats) := do
  checkBlock P db height block
  let scan ← scanTxs P cfg db (P.blockHash block.header) height 0 block.txdata {}
  return (scan.batch ++ closingOps P db height block scan, scan.stats)

/-- The batch that takes the tip off, read from its undo record. -/
def rollbackBatch (tip : Tip) (undo : UndoRecord) : WriteBatch :=
  [.blocks (.delete tip.hash), .heights (.delete tip.height), .undo (.delete tip.hash)] ++
    undo.createdTxids.map (fun txid => .transactions (.delete txid)) ++
    undo.createdOutpoints.map (fun o => .utxos (.delete o)) ++
    undo.restoredUtxos.map (fun record => .utxos (.put record.outpoint record)) ++
    undo.createdTransitions.map (fun key => .transitions (.delete key)) ++
    match undo.previousTip with
    | some previous => [.metadata (.put .tip previous)]
    | none => [.metadata (.delete .tip)]

def planRollback (db : Db) : Outcome IndexError (WriteBatch × Tip) := do
  let tip ← okOr db.tip .empty
  let undo ← okOr (db.undo.get tip.hash) (.unknownAncestor tip.hash)
  return (rollbackBatch tip undo, tip)

end Catomicals.Index
