import Catomicals.WalletCore.DurableStore
import Catomicals.WalletStorage.Effects

/-!
# The projected intents and the database

What the database stands for, compared with the list in memory that the durable store keeps up by
hand: what each call does to both, and which calls leave the list behind.
-/
namespace Catomicals.WalletCore

open Base Domain WalletStorage Rows SigningIntent Method Option

variable {P : DurablePlatform} {db db' : Db}

/-- A record and its material are what an intent was stored as. -/
structure Carries (P : DurablePlatform) (row : IntentRow) (material : MaterialRow)
    (intent : SigningIntent) : Prop where
  hash : P.sha256 material.payloadJson.toUTF8.toList = material.payloadHash
  parsed : P.parseIntent material.payloadJson = .ok intent
  id : intent.id = row.id
  walletId : intent.walletId = row.walletId
  txDigest : intent.txDigest = row.txDigest
  sessionId : intent.sessionId = row.sessionId
  policyHash : row.policyHash = intentPolicyHash P.toPlatform intent
  security : row.v2 = some ⟨.signet, intent.protocolVersion.toUInt32, .spend,
    signerLabel intent.signerId, intent.nonce⟩

variable {row : IntentRow} {intent : SigningIntent} {next : WalletStorage.IntentStatus} {now : Time}
  {i : SigningIntent} {id : Uuid} {intents : IntentRows} {digest : Bytes32} {jobId : Uuid}
  {job : SigningJobRow}

lemma loadIntent_eq_ok {materials : List MaterialRow} :
    loadIntent P materials row = .ok i ↔ ∃ material intent,
      (materials.find? fun m => m.intentId = row.id) = some material ∧
        Carries P row material intent ∧ i = intent.withStatus (fromStorageStatus row.status) := by
  simp only [loadIntent, ok_iff, mapError_eq_ok]
  constructor
  · rintro ⟨_, hv2, material, hmat, hhash, intent, hparsed,
      ⟨hid, hwal, htx, hsess, hnonce, hpolicy, hvers, hnet, haction, hsgn⟩, hi⟩
    refine ⟨material, intent, hmat, ⟨hhash, hparsed, hid, hwal, htx, hsess, hpolicy, ?_⟩, hi.symm⟩
    rw [hv2, hvers, hnonce, ← hnet, ← haction, ← hsgn]
  · rintro ⟨material, intent, hmat, hcarries, hi⟩
    exact ⟨_, hcarries.security, material, hmat, hcarries.hash, intent, hcarries.parsed,
      ⟨hcarries.id, hcarries.walletId, hcarries.txDigest, hcarries.sessionId, rfl,
        hcarries.policyHash, rfl, rfl, rfl, rfl⟩, hi.symm⟩

lemma find_material {kind : MaterialKind} (hrow : db.intents.get row.id = some row)
    (hcur : isCurrent db row = true) :
    ((listIntentMaterials db kind).find? fun m => m.intentId = row.id) =
      db.materials.get (row.id, kind) := by
  rw [listIntentMaterials, List.find?_filter, Rows.get]
  congr 1
  funext m
  by_cases hid : m.intentId = row.id
  · simp [MaterialRow.key, hid, hrow, hcur]
  · simp [MaterialRow.key, hid]

/-- The intents a new process would load, by their ids. -/
def loaded (P : DurablePlatform) (db : Db) (id : Uuid) : Option SigningIntent :=
  ((db.intents.get id).filter (isCurrent db)).bind fun row =>
    (loadIntent P (listIntentMaterials db .policyInput) row).toOption

lemma loaded_eq_some :
    loaded P db id = some i ↔ ∃ row material intent, db.intents.get id = some row ∧
      isCurrent db row = true ∧ db.materials.get (id, .policyInput) = some material ∧
        Carries P row material intent ∧ i = intent.withStatus (fromStorageStatus row.status) := by
  have hload : ∀ row, db.intents.get id = some row → isCurrent db row = true →
      ((loadIntent P (listIntentMaterials db .policyInput) row).toOption = some i ↔
        ∃ material intent, db.materials.get (id, .policyInput) = some material ∧
          Carries P row material intent ∧
            i = intent.withStatus (fromStorageStatus row.status)) := by
    intro row hrow hcur
    have hid : row.id = id := key_of_get hrow
    subst hid
    rw [← find_material hrow hcur, ← loadIntent_eq_ok]
    cases loadIntent P (listIntentMaterials db .policyInput) row <;> simp [Except.toOption]
  simp only [loaded, bind_eq_some_iff, filter_eq_some_iff]
  constructor
  · rintro ⟨row, ⟨hrow, hcur⟩, hi⟩
    obtain ⟨material, intent, hmat, hcarries, heq⟩ := (hload row hrow hcur).mp hi
    exact ⟨row, material, intent, hrow, hcur, hmat, hcarries, heq⟩
  · rintro ⟨row, material, intent, hrow, hcur, hmat, hcarries, heq⟩
    exact ⟨row, ⟨hrow, hcur⟩, (hload row hrow hcur).mpr ⟨material, intent, hmat, hcarries, heq⟩⟩

/-- Every current record can be loaded. -/
def Loadable (P : DurablePlatform) (db : Db) : Prop :=
  ∀ id row, db.intents.get id = some row → isCurrent db row = true → (loaded P db id).isSome = true

/-- Every record has the creation time of its intent. -/
def Dated (P : DurablePlatform) (db : Db) : Prop :=
  ∀ id row i, db.intents.get id = some row → loaded P db id = some i → i.createdAt = row.createdAt

lemma loaded_of_loadIntent (hrow : row ∈ listTransactionIntentsV2 db) :
    loadIntent P (listIntentMaterials db .policyInput) row = .ok i ↔
      loaded P db row.id = some i := by
  obtain ⟨hget, hcur⟩ := mem_listTransactionIntentsV2.mp hrow
  rw [loaded, hget, filter_some, if_pos hcur, bind_some]
  cases loadIntent P (listIntentMaterials db .policyInput) row <;> simp [Except.toOption]

lemma loadIntents_eq_ok : loadIntents P db = .ok intents ↔ loadRecords P db = .ok intents.rows := by
  unfold loadIntents
  split
  next records hrecs =>
    simp only [hrecs, Except.ok.injEq]
    constructor
    · intro heq
      rw [← heq]
    · intro heq
      subst heq
      rfl
  next e hrecs => simp [hrecs]

lemma get_of_loadIntents (h : loadIntents P db = .ok intents) : intents.get = loaded P db := by
  have hrecs := loadIntents_eq_ok.mp h
  funext id
  ext i
  rw [get_eq_some_iff, mem_of_mapM hrecs]
  constructor
  · rintro ⟨⟨row, hrow, hload⟩, hid⟩
    rw [← hid, id_of_loadIntent hload]
    exact (loaded_of_loadIntent hrow).mp hload
  · intro hi
    obtain ⟨row, -, -, hrow, hcur, -⟩ := loaded_eq_some.mp hi
    have hid : row.id = id := key_of_get hrow
    subst hid
    have hmem := mem_listTransactionIntentsV2.mpr ⟨hrow, hcur⟩
    have hload := (loaded_of_loadIntent hmem).mpr hi
    exact ⟨⟨row, hmem, hload⟩, id_of_loadIntent hload⟩

lemma exists_loadIntents_iff : (∃ intents, loadIntents P db = .ok intents) ↔ Loadable P db := by
  have hrecs : (∃ intents, loadIntents P db = .ok intents) ↔
      ∃ records, loadRecords P db = .ok records := by
    constructor
    · rintro ⟨intents, h⟩
      exact ⟨intents.rows, loadIntents_eq_ok.mp h⟩
    · rintro ⟨records, h⟩
      exact ⟨⟨records, nodup_of_loadRecords h⟩, loadIntents_eq_ok.mpr h⟩
  rw [hrecs, loadRecords, exists_mapM_iff]
  constructor
  · intro h id row hrow hcur
    have hid : row.id = id := key_of_get hrow
    subst hid
    have hmem := mem_listTransactionIntentsV2.mpr ⟨hrow, hcur⟩
    obtain ⟨i, hi⟩ := h row hmem
    exact isSome_iff_exists.mpr ⟨i, (loaded_of_loadIntent hmem).mp hi⟩
  · intro h row hmem
    obtain ⟨hrow, hcur⟩ := mem_listTransactionIntentsV2.mp hmem
    obtain ⟨i, hi⟩ := isSome_iff_exists.mp (h row.id row hrow hcur)
    exact ⟨i, (loaded_of_loadIntent hmem).mpr hi⟩

/-- The two databases are of the same wallet in the same epoch. -/
structure SameEpoch (db db' : Db) : Prop where
  walletId : db'.metadata.walletId = db.metadata.walletId
  epoch : db'.metadata.epoch = db.metadata.epoch

lemma SameEpoch.isCurrent (h : SameEpoch db db') (row : IntentRow) :
    isCurrent db' row = WalletStorage.isCurrent db row := by
  rw [WalletStorage.isCurrent, WalletStorage.isCurrent, h.walletId, h.epoch]

namespace DurableWalletStore

variable {s : DurableWalletStore} {α : Type}

end DurableWalletStore

end Catomicals.WalletCore
