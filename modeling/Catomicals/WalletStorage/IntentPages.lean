import Catomicals.Base.Fields
import Catomicals.WalletStorage.Calls
import Mathlib.Data.Prod.Lex

/-!
# Listing the intents

`list_transaction_intents_v2` and `transaction_intents_v2_page` of `wallet-storage/src/sqlite.rs`. A
page begins behind its cursor, so pages that each begin behind the last row of the one before list
every row once.
-/
namespace Catomicals.WalletStorage

open Base List Rows

def isCurrent (db : Db) (i : IntentRow) : Bool :=
  i.walletId = db.metadata.walletId ∧ i.epoch = db.metadata.epoch ∧ i.v2.isSome

/-- The order of `list_transaction_intents_v2`. -/
def rowByCreation (i j : IntentRow) : Bool :=
  i.createdAt < j.createdAt ∨ i.createdAt = j.createdAt ∧ i.id ≤ j.id

def listTransactionIntentsV2 (db : Db) : List IntentRow :=
  (db.intents.orderBy rowByCreation).rows.filter (isCurrent db)

/-- `list_intent_materials`: the materials of the current intents. -/
def listIntentMaterials (db : Db) (kind : MaterialKind) : List MaterialRow :=
  db.materials.rows.filter fun m => m.kind = kind ∧ (db.intents.get m.intentId).any (isCurrent db)

lemma mem_listTransactionIntentsV2 {db : Db} {row : IntentRow} :
    row ∈ listTransactionIntentsV2 db ↔
      db.intents.get row.id = some row ∧ isCurrent db row = true := by
  simp only [listTransactionIntentsV2, orderBy, mem_filter, mem_insertionSort,
    get_eq_some_iff, and_true]

lemma rowByCreation_iff {r r' : IntentRow} :
    rowByCreation r r' = true ↔
      toLex (r.createdAt, r.id.toNat) ≤ toLex (r'.createdAt, r'.id.toNat) := by
  simp [rowByCreation, Prod.Lex.toLex_le_toLex, BitVec.le_def]

lemma sorted_listTransactionIntentsV2 (db : Db) :
    (listTransactionIntentsV2 db).Pairwise fun r r' => rowByCreation r r' = true := by
  refine Pairwise.filter _ (ordered_orderBy ?_ ?_)
  · intro r r'
    rw [rowByCreation_iff, rowByCreation_iff]
    exact le_total _ _
  · intro r r' _ hr hr'
    rw [rowByCreation_iff] at hr hr' ⊢
    exact hr.trans hr'

structure IntentCursor where
  createdAt : Time
  id : Uuid

/-- Without a cursor the rows are compared with the least time and the empty id. -/
def afterCursor : Option IntentCursor → IntentRow → Bool
  | none, i => -2 ^ 63 ≤ i.createdAt
  | some c, i => c.createdAt < i.createdAt ∨ c.createdAt = i.createdAt ∧ c.id < i.id

def withStatus (db : Db) (status : IntentStatus) : List IntentRow :=
  (listTransactionIntentsV2 db).filter fun i => i.status = status

variable (db : Db) (status : IntentStatus) (limit : ℕ)

def transactionIntentsV2Page (cursor : Option IntentCursor) :
    Except StorageError (List IntentRow) := do
  require (1 ≤ limit ∧ limit ≤ 500) (.invalidV2Intent "page limit must be between 1 and 500")
  return ((withStatus db status).filter (afterCursor cursor)).take limit

/-- Calls until an empty page, each with the last row received as cursor, and the rows they list. -/
inductive Pages : Option IntentCursor → List IntentRow → Prop
  | done {cursor} (hpage : transactionIntentsV2Page db status limit cursor = .ok []) :
      Pages cursor []
  | next {cursor front last rest}
      (hpage : transactionIntentsV2Page db status limit cursor = .ok (front ++ [last]))
      (hrest : Pages (some ⟨last.createdAt, last.id⟩) rest) : Pages cursor (front ++ last :: rest)

/-- The order of creation time and id. -/
def Before (i j : IntentRow) : Prop :=
  i.createdAt < j.createdAt ∨ i.createdAt = j.createdAt ∧ i.id < j.id

lemma before_iff {i j : IntentRow} :
    Before i j ↔ toLex (i.createdAt, i.id.toNat) < toLex (j.createdAt, j.id.toNat) := by
  simp [Before, Prod.Lex.toLex_lt_toLex, BitVec.lt_def]

lemma before_withStatus : (withStatus db status).Pairwise Before := by
  have hdistinct : (listTransactionIntentsV2 db).Pairwise fun i j => i.id ≠ j.id :=
    (pairwise_map.mp (db.intents.orderBy rowByCreation).nodup).filter _
  refine (((sorted_listTransactionIntentsV2 db).and hdistinct).imp ?_).filter _
  rintro i j ⟨hle, hne⟩
  refine before_iff.mpr (lt_of_le_of_ne (rowByCreation_iff.mp hle) fun heq => hne ?_)
  exact BitVec.eq_of_toNat_eq (congrArg (fun x => (ofLex x).2) heq)

lemma filter_afterCursor {front rest : List IntentRow} {last : IntentRow}
    (h : (front ++ last :: rest).Pairwise Before) :
    (front ++ last :: rest).filter (afterCursor (some ⟨last.createdAt, last.id⟩)) = rest := by
  have hiff : ∀ i, afterCursor (some ⟨last.createdAt, last.id⟩) i = true ↔ Before last i := by
    simp [afterCursor, Before]
  obtain ⟨-, hlast, hfront⟩ := pairwise_append.mp h
  rw [filter_append, filter_cons_of_neg, filter_eq_nil_iff.mpr, filter_eq_self.mpr, nil_append]
  · intro i hi
    exact (hiff i).mpr ((pairwise_cons.mp hlast).1 i hi)
  · intro i hi
    rw [hiff, before_iff]
    exact lt_asymm (before_iff.mp (hfront i hi last mem_cons_self))
  · rw [hiff, before_iff]
    exact lt_irrefl _

variable {db status limit}

lemma pages_rest (hlimit : 1 ≤ limit ∧ limit ≤ 500) (before : List IntentRow)
    {rest : List IntentRow} {cursor : Option IntentCursor}
    (hsplit : withStatus db status = before ++ rest)
    (hrest : (before ++ rest).filter (afterCursor cursor) = rest) :
    Pages db status limit cursor rest := by
  -- a page that is not empty leaves a shorter rest
  induction hn : rest.length using Nat.strong_induction_on generalizing before rest cursor with
  | _ n ih =>
  have hpage : transactionIntentsV2Page db status limit cursor = .ok (rest.take limit) := by
    simp [transactionIntentsV2Page, require, hlimit, hsplit, hrest]
  have htake := take_append_drop limit rest
  rcases eq_nil_or_concat (rest.take limit) with hnil | ⟨front, last, hlast⟩
  · obtain rfl : rest = [] := (take_eq_nil_iff.mp hnil).resolve_left (by omega)
    exact .done (by simpa using hpage)
  · rw [concat_eq_append] at hlast
    rw [hlast, append_assoc, singleton_append] at htake
    have hnext : withStatus db status = before ++ front ++ last :: rest.drop limit := by
      rw [hsplit, append_assoc, htake]
    rw [← htake]
    refine .next (hlast ▸ hpage) (ih _ ?_ (before ++ front ++ [last]) ?_ ?_ rfl)
    · rw [length_drop]
      have hpos := congrArg length htake
      simp at hpos
      omega
    · rw [hnext]
      simp
    · rw [append_assoc (before ++ front), singleton_append]
      exact filter_afterCursor (hnext ▸ before_withStatus db status)

/-- The pages list the current intents with the status once each, in the order of creation. -/
theorem pages_complete (db : Db) (status : IntentStatus) (limit : ℕ)
    (hlimit : 1 ≤ limit ∧ limit ≤ 500) (htimes : ∀ i ∈ db.intents.rows, IsI64 i.createdAt) :
    ∃ rows, Pages db status limit none rows ∧ rows.Pairwise Before ∧
      ∀ i, i ∈ rows ↔ i ∈ db.intents.rows ∧ isCurrent db i = true ∧ i.status = status := by
  have hmem : ∀ i, i ∈ withStatus db status ↔
      i ∈ db.intents.rows ∧ isCurrent db i = true ∧ i.status = status := by
    simp [withStatus, mem_listTransactionIntentsV2, Rows.get_eq_some_iff, and_assoc]
  refine ⟨withStatus db status, ?_, before_withStatus db status, hmem⟩
  refine pages_rest hlimit [] rfl (filter_eq_self.mpr fun i hi => ?_)
  exact decide_eq_true (htimes i ((hmem i).mp hi).1).1

def pagedRow (id : Uuid) : IntentRow :=
  ⟨id, 7, 1, .zeros, .zeros, .zeros, .pending, 9, 5, 5, some ⟨.signet, 1, .spend, "", .zeros⟩⟩

def pagedDb : Db :=
  { initializeWallet 7 0 with intents := ⟨[pagedRow 2, pagedRow 1], by decide⟩ }

/-- Two intents of one creation time come in pages of one row each. -/
theorem pages_complete_tied : ∃ rows, Pages pagedDb .pending 1 none rows ∧
    pagedRow 1 ∈ rows ∧ pagedRow 2 ∈ rows := by
  obtain ⟨rows, hpages, -, hmem⟩ := pages_complete pagedDb .pending 1 (by decide)
    (by simp [pagedDb, pagedRow, IsI64])
  exact ⟨rows, hpages, (hmem _).mpr (by decide), (hmem _).mpr (by decide)⟩

end Catomicals.WalletStorage
