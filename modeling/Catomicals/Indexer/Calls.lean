import Catomicals.Indexer.Apply

/-!
# The public calls of the indexer

The calls under the writer lock. A step that meets a RocksDB error returns it and leaves the store
alone; which steps meet one is an input. A panic poisons the lock, and later calls are refused.
-/
namespace Catomicals.Index

open Base Base.Outcome Issuance

variable (P : Platform) (cfg : IndexerConfig) (io : Bool)

/-- `apply_block_locked`; `io` tells whether its RocksDB accesses succeed. -/
def applyBlockLocked (db : Db) (height : UInt32) (block : Block) :
    Outcome IndexError (Db × ApplyStats) := do
  ensure (io = true) .rocks
  let (batch, stats) ← planBlock P cfg db height block
  return (db.write batch, stats)

def rollbackTipLocked (db : Db) : Outcome IndexError (Db × Tip) := do
  ensure (io = true) .rocks
  let (batch, tip) ← planRollback db
  return (db.write batch, tip)

def canonicalAncestor (db : Db) (ancestor : BlockHash) : Outcome IndexError BlockRecord := do
  ensure (io = true) .rocks
  let record ← okOr (db.blocks.get ancestor) (.unknownAncestor ancestor)
  ensure ((db.blockByHeight record.height).map BlockRecord.hash = some ancestor)
    (.unknownAncestor ancestor)
  return record

/-- The loop of `rollback_to_locked`, whose rounds each remove one undo record. -/
def rollbackLoop (ancestor : BlockHash) (ancestorHeight : UInt32) :
    ℕ → (ℕ → Bool) → Db → Db × Outcome IndexError Unit
  | 0, _, db => (db, .error (.error (.unknownAncestor ancestor)))
  | fuel + 1, io, db =>
    if io 0 = false then (db, .error (.error .rocks))
    else match db.tip with
      | none => (db, .error (.error .empty))
      | some tip =>
        if tip.hash = ancestor then (db, .ok ())
        else if tip.height ≤ ancestorHeight then
          (db, .error (.error (.unknownAncestor ancestor)))
        else match rollbackTipLocked true db with
          | .error e => (db, .error e)
          | .ok (db', _) => rollbackLoop ancestor ancestorHeight fuel (fun n => io (n + 1)) db'

def rollbackToLocked (io : ℕ → Bool) (db : Db) (ancestor : BlockHash) :
    Db × Outcome IndexError Unit :=
  match canonicalAncestor (io 0) db ancestor with
  | .error e => (db, .error e)
  | .ok record =>
    rollbackLoop ancestor record.height (db.undo.card + 1) (fun n => io (n + 1)) db

def validateReplacement (P : Platform) :
    UInt32 → BlockHash → List (UInt32 × Block) → Outcome IndexError Unit
  | _, _, [] => .ok ()
  | expectedHeight, expectedParent, (height, block) :: rest => do
    ensure (height = expectedHeight ∧ block.header.prevBlockhash = expectedParent)
      (.invalidReplacement height)
    validateReplacement P (saturatingSucc expectedHeight) (P.blockHash block.header) rest

def attachBlocks (P : Platform) (cfg : IndexerConfig) :
    (ℕ → Bool) → List (UInt32 × Block) → Db → Db × Outcome IndexError Unit
  | _, [], db => (db, .ok ())
  | io, (height, block) :: rest, db =>
    match applyBlockLocked P cfg (io 0) db height block with
    | .error e => (db, .error e)
    | .ok (db', _) => attachBlocks P cfg (fun n => io (n + 1)) rest db'

def checkReorganize (db : Db) (ancestor : BlockHash) (replacement : List (UInt32 × Block)) :
    Outcome IndexError Unit := do
  let record ← canonicalAncestor io db ancestor
  let expectedHeight ← ofPanic (addU32 P.overflowChecks record.height 1)
  validateReplacement P expectedHeight ancestor replacement

def reorganizeLocked (detach attach : ℕ → Bool) (db : Db) (ancestor : BlockHash)
    (replacement : List (UInt32 × Block)) : Db × Outcome IndexError Unit :=
  match checkReorganize P io db ancestor replacement with
  | .error e => (db, .error e)
  | .ok () =>
    match rollbackToLocked detach db ancestor with
    | (db', .error e) => (db', .error e)
    | (db', .ok ()) => attachBlocks P cfg attach replacement db'

/-- A public call, with the RocksDB accesses that succeed during it. -/
inductive Call where
  | applyBlock (io : Bool) (height : UInt32) (block : Block)
  | rollbackTip (io : Bool)
  | rollbackTo (io : ℕ → Bool) (ancestor : BlockHash)
  | reorganize (io : Bool) (detach attach : ℕ → Bool) (ancestor : BlockHash)
      (replacement : List (UInt32 × Block))

inductive Reply where
  | stats (s : ApplyStats)
  | tip (t : Tip)
  | done
  deriving DecidableEq

/-- The open store: its contents, and whether a panic has poisoned the writer lock. -/
structure Indexer where
  db : Db
  poisoned : Bool

def Indexer.empty : Indexer := ⟨.empty, false⟩

def lockedCall (db : Db) : Call → Db × Outcome IndexError Reply
  | .applyBlock io height block =>
    match applyBlockLocked P cfg io db height block with
    | .ok (db', stats) => (db', .ok (.stats stats))
    | .error e => (db, .error e)
  | .rollbackTip io =>
    match rollbackTipLocked io db with
    | .ok (db', tip) => (db', .ok (.tip tip))
    | .error e => (db, .error e)
  | .rollbackTo io ancestor =>
    let r := rollbackToLocked io db ancestor
    (r.1, r.2.map fun _ => .done)
  | .reorganize io detach attach ancestor replacement =>
    let r := reorganizeLocked P cfg io detach attach db ancestor replacement
    (r.1, r.2.map fun _ => .done)

def isPanic {ε α : Type} : Outcome ε α → Bool
  | .error (.panic _) => true
  | _ => false

def call (ix : Indexer) (c : Call) : Indexer × Outcome IndexError Reply :=
  if ix.poisoned then (ix, .error (.error .writerPoisoned))
  else
    let r := lockedCall P cfg ix.db c
    (⟨r.1, isPanic r.2⟩, r.2)

def runCalls (ix : Indexer) (calls : List Call) : Indexer :=
  calls.foldl (fun ix c => (call P cfg ix c).1) ix

end Catomicals.Index
