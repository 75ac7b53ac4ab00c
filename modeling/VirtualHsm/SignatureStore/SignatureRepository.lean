import Mathlib.Data.List.TakeWhile
import VirtualHsm.CS.KeyedTable
import VirtualHsm.CS.LittleEndian
import VirtualHsm.Crypto.Hmac
import VirtualHsm.Ledger.LedgerClient

/-!
# The signature repository

The table of signature records, the keyed hash over each row, and the statements that read and
change it. A statement may fail; what the repository makes of a failure differs from one to the
other.
-/

namespace VirtualHsm

/-! ### Rows -/

/-- The states that the table's constraint admits. -/
inductive LedgerStatus
  | pending
  | committed
  | failed
  deriving DecidableEq, Repr

def LedgerStatus.text : LedgerStatus → String
  | pending => "PENDING"
  | committed => "COMMITTED"
  | failed => "FAILED"

/-- A row of `signature_records`. A missing text reads as an empty one. -/
structure SignatureRow where
  id : String
  createdAt : Int
  slotId : Int
  tokenLabel : String
  keyId : String
  keyFingerprint : String
  mechanism : String
  payloadDigest : String
  signatureB64 : String
  sessionHandle : String
  userLabel : String := ""
  appContext : String := ""
  ledgerTxId : String := ""
  ledgerBlockNum : Option Int := some 0
  ledgerTxTime : String := ""
  ledgerTxProof : String := ""
  ledgerTxSetB64 : String := ""
  ledgerStatus : LedgerStatus := .pending
  integrityHmac : String := ""
  pqcAlgo : String := ""
  signaturePqcB64 : String := ""
  keyFingerprintPqc : String := ""
  deriving DecidableEq, Repr

/-- A text as a query returns it: the part before the first null character. -/
def readText (s : String) : String := String.ofList (s.toList.takeWhile (· ≠ '\x00'))

theorem readText_eq_self {s : String} (hs : '\x00' ∉ s.toList) : readText s = s := by
  have hall : s.toList.takeWhile (· ≠ '\x00') = s.toList := by
    apply List.takeWhile_eq_self_iff.mpr
    intro c hc
    simpa using fun (heq : c = '\x00') => hs (heq ▸ hc)
  rw [readText, hall, String.ofList_toList]

theorem readText_eq_self_iff {s : String} : readText s = s ↔ '\x00' ∉ s.toList := by
  refine ⟨fun h hmem => ?_, readText_eq_self⟩
  have hall := congrArg String.toList h
  rw [readText, String.toList_ofList] at hall
  simpa using List.takeWhile_eq_self_iff.mp hall _ hmem

namespace SignatureRow

variable (r : SignatureRow)

/-- The 18 columns that the hash covers, as a query returns them. -/
def columns : List String :=
  [readText r.id, toString r.createdAt, toString r.slotId, readText r.tokenLabel, readText r.keyId,
   readText r.keyFingerprint, readText r.mechanism, readText r.payloadDigest,
   readText r.signatureB64, readText r.sessionHandle, readText r.userLabel, readText r.appContext,
   readText r.ledgerTxId, r.ledgerBlockNum.elim "" toString, readText r.ledgerTxTime,
   readText r.ledgerTxProof, readText r.ledgerTxSetB64, r.ledgerStatus.text]

/-- The ledger's answer written to the row. -/
def withLedger (entry : LedgerEntry) : SignatureRow :=
  { r with
    ledgerTxId := entry.txId
    ledgerBlockNum := some entry.blockNumber
    ledgerStatus := .committed }

def withHmac (h : String) : SignatureRow := { r with integrityHmac := h }

theorem id_withLedger (entry : LedgerEntry) : (r.withLedger entry).id = r.id := rfl

theorem id_withHmac (h : String) : (r.withHmac h).id = r.id := rfl

theorem columns_withHmac (h : String) : (r.withHmac h).columns = r.columns := rfl

/-- The columns of the companion signature. -/
def pqcColumns : List String :=
  [readText r.pqcAlgo, readText r.signaturePqcB64, readText r.keyFingerprintPqc]

end SignatureRow

/-! ### Row integrity -/

/-- A library's derivation of the database key from the key-encryption key. -/
structure DbKeyDerivation where
  derive : Bytes → Bytes
  length_derive : ∀ kek, (derive kek).length = 32

/-- `DbHmacKey::get_key`: empty when the token has no key-encryption key. -/
def DbHmacKey.getKey (kdf : DbKeyDerivation) (kek : Bytes) : Bytes :=
  if kek = [] then [] else kdf.derive kek

theorem DbHmacKey.getKey_ne_nil {kdf : DbKeyDerivation} {kek : Bytes} :
    DbHmacKey.getKey kdf kek ≠ [] ↔ kek ≠ [] := by
  unfold getKey
  split_ifs with hkek
  · exact iff_of_false (fun h => h rfl) (fun h => h hkek)
  · refine iff_of_true (fun hempty => ?_) hkek
    have hlen := kdf.length_derive kek
    rw [hempty] at hlen
    cases hlen

namespace RowIntegrity

variable (mac : Hmac) (key : Bytes)

/-- Each column with its length in front, four bytes, most significant first. -/
def concatenated (cols : List String) : Bytes :=
  cols.flatMap fun c => (CS.toLe 4 (c.utf8ByteSize % 2 ^ 32)).reverse ++ c.toUTF8.toList

/-- `RowIntegrity::compute_hmac`: there is no hash without a key. -/
def computeHmac (cols : List String) : Option String :=
  if key = [] then none else some (mac.hex key (concatenated cols))

/-- `RowIntegrity::verify_hmac`. -/
def verifyHmac (cols : List String) (stored : String) : Bool :=
  stored ≠ "" && (computeHmac mac key cols).elim false fun c => c ≠ "" && c = stored

variable {mac key} {cols : List String} {h : String}

theorem verifyHmac_computeHmac (hc : computeHmac mac key cols = some h) :
    verifyHmac mac key cols h = true := by
  have hne : h ≠ "" := by
    unfold computeHmac at hc
    split_ifs at hc
    rw [← Option.some.inj hc]
    exact mac.hex_ne_empty _ _
  simp [verifyHmac, hc, hne]

/-- With a key, a row verifies exactly when it carries the hash of its columns. -/
theorem verifyHmac_iff (hkey : key ≠ []) :
    verifyHmac mac key cols h = true ↔ h = mac.hex key (concatenated cols) := by
  have hc : computeHmac mac key cols = some (mac.hex key (concatenated cols)) := by
    rw [computeHmac, if_neg hkey]
  constructor
  · intro hv
    simp only [verifyHmac, hc, Option.elim_some, Bool.and_eq_true, decide_eq_true_eq] at hv
    exact hv.2.2.symm
  · rintro rfl
    exact verifyHmac_computeHmac hc

theorem verifyHmac_nil : verifyHmac mac [] cols h = false := by
  simp [verifyHmac, computeHmac]

end RowIntegrity

/-! ### The database -/

/-- The statements of the repository and the dispatcher. -/
inductive Statement
  | insertSignature
  | selectIds
  | selectById (id : String)
  | selectIntegrity (id : String)
  | selectColumns (id : String)
  | updateLedger (id : String)
  | updateHmac (id : String)
  | markProcessing (id : String)
  deriving DecidableEq, Repr

/-- The states that the constraint of the event table admits. -/
inductive OutboxStatus
  | pending
  | dispatched
  | failed
  deriving DecidableEq, Repr

/-- An event that waits for delivery. -/
structure OutboxEvent where
  id : String
  createdAt : Int
  eventType : String
  aggregateId : String
  payload : String
  status : OutboxStatus := .pending
  deriving DecidableEq, Repr

structure Db where
  records : CS.KeyedTable SignatureRow.id
  outbox : CS.KeyedTable OutboxEvent.id := .empty
  /-- The statements that throw. -/
  fails : Statement → Bool := fun _ => false

namespace Db

variable (db : Db)

/-- The row that a query by identifier returns; `none` also when it throws. -/
def select (q : String → Statement) (id : String) : Option SignatureRow :=
  if db.fails (q id) then none else db.records.find id

/-- Change the row with an identifier. -/
def modify (id : String) (f : SignatureRow → SignatureRow) (hf : ∀ r, (f r).id = r.id) : Db :=
  { db with records := db.records.modify id f hf }

variable {db}

theorem find_modify {id : String} {f : SignatureRow → SignatureRow} (hf : ∀ r, (f r).id = r.id) :
    (db.modify id f hf).records.find id = (db.records.find id).map f := by
  simp only [modify, CS.KeyedTable.find_modify, if_true]

theorem find_modify_of_ne {id id' : String} (hne : id ≠ id') {f : SignatureRow → SignatureRow}
    (hf : ∀ r, (f r).id = r.id) : (db.modify id' f hf).records.find id = db.records.find id := by
  simp only [modify, CS.KeyedTable.find_modify, if_neg hne, Option.map_id']

theorem select_of_find (hfails : ∀ q, db.fails q = false) (q : String → Statement) (id : String) :
    db.select q id = db.records.find id := by
  rw [select, hfails]
  rfl

end Db

/-! ### The repository -/

namespace SignatureRepository

variable (mac : Hmac) (key : Bytes) (db : Db)

/-- The arguments of `insert` that are stored. -/
structure NewRecord where
  createdAt : Int
  slotId : Int
  tokenLabel : String
  keyId : String
  keyFingerprint : String
  mechanism : String
  payloadDigest : String
  signatureB64 : String
  sessionHandle : String
  userLabel : Option String := none
  appContext : Option String := none
  deriving DecidableEq, Repr

/-- The row with a drawn identifier. The column of the hash is not among those inserted. -/
def NewRecord.row (args : NewRecord) (id : String) : SignatureRow where
  id := id
  createdAt := args.createdAt
  slotId := args.slotId
  tokenLabel := args.tokenLabel
  keyId := args.keyId
  keyFingerprint := args.keyFingerprint
  mechanism := args.mechanism
  payloadDigest := args.payloadDigest
  signatureB64 := args.signatureB64
  sessionHandle := args.sessionHandle
  userLabel := args.userLabel.getD ""
  appContext := args.appContext.getD ""

/-- `insert`: the identifier, unless the statement throws. -/
def insert (id : String) (args : NewRecord) : Option String × Db :=
  match if db.fails .insertSignature then none else db.records.insert (args.row id) with
  | none => (none, db)
  | some records => (some id, { db with records })

/-- `get_all_ids`: a failure reads as an empty table. -/
def getAllIds : List String :=
  if db.fails .selectIds then []
  else (db.records.rows.mergeSort fun a b => a.createdAt ≤ b.createdAt).map (readText ·.id)

/-- A column as `get_by_id` hands it out: empty texts, and the block number zero, are missing. -/
def column (i : Nat) (text : String) : Option String :=
  if i = 13 ∧ text = "0" ∨ text = "" then none else some text

/-- `get_by_id`: a failure reads as a missing row. -/
def getById (id : String) : Option (List (Option String)) :=
  (db.select .selectById id).map fun r => (r.columns ++ r.pqcColumns).mapIdx column

/-- A column of what `get_by_id` hands out; a missing one reads as empty. -/
def cell (row : List (Option String)) (i : Nat) : String := (row.getD i none).getD ""

/-- The hash that a row with these columns should carry. -/
def hashOf (r : SignatureRow) : String := mac.hex key (RowIntegrity.concatenated r.columns)

/-- `verify_integrity`: a failure and a missing row do not verify. -/
def verifyIntegrity (id : String) : Bool :=
  (db.select .selectIntegrity id).elim false fun r =>
    RowIntegrity.verifyHmac mac key r.columns (readText r.integrityHmac)

/-- `recompute_integrity_hmac`. -/
def recomputeIntegrityHmac (id : String) : Bool × Db :=
  match db.select .selectColumns id with
  | none => (false, db)
  | some r =>
    match RowIntegrity.computeHmac mac key r.columns with
    | none => (false, db)
    | some h =>
      if db.fails (.updateHmac id) then (false, db)
      else (true, db.modify id (·.withHmac h) fun r => r.id_withHmac h)

/-- `update_ledger_fields`: the hash is brought up to date when that is possible. -/
def updateLedgerFields (id : String) (entry : LedgerEntry) : Bool × Db :=
  if db.fails (.updateLedger id) ∨ db.records.find id = none then (false, db)
  else
    let written := db.modify id (·.withLedger entry) fun r => r.id_withLedger entry
    -- Whether the hash could be recomputed does not show in the answer.
    (true, (recomputeIntegrityHmac mac key written id).2)

/-- `mark_processing`: the new status violates the table's constraint, so that the statement
throws as soon as it finds a row to change. -/
def markProcessing (id : String) : Bool :=
  !(db.fails (.markProcessing id) ||
    (db.records.find id).elim false fun r => r.ledgerStatus = .pending)

variable {mac key db} {id : String} {r : SignatureRow}

theorem cell_mapIdx_column (texts : List String) {i : Nat} (hi : i ≠ 13) :
    cell (texts.mapIdx column) i = texts.getD i "" := by
  rw [cell, List.getD_eq_getElem?_getD, List.getD_eq_getElem?_getD, List.getElem?_mapIdx]
  cases texts[i]? with
  | none => rfl
  | some text =>
    rw [Option.map_some, Option.getD_some, Option.getD_some, column]
    split_ifs with hempty
    · rcases hempty with ⟨h, -⟩ | h
      · exact absurd h hi
      · exact h.symm
    · rfl

theorem find_recomputeIntegrityHmac_of_ne {id' : String} (hne : id ≠ id') :
    (recomputeIntegrityHmac mac key db id').2.records.find id = db.records.find id := by
  unfold recomputeIntegrityHmac
  split
  · rfl
  split
  · rfl
  split_ifs
  · rfl
  · exact Db.find_modify_of_ne hne _

/-- The row carries the hash of its columns afterwards, unless there is no key or a statement
fails. -/
theorem find_recomputeIntegrityHmac (hr : db.records.find id = some r) :
    (recomputeIntegrityHmac mac key db id).2.records.find id =
      some (if key = [] ∨ db.fails (.selectColumns id) = true ∨ db.fails (.updateHmac id) = true
        then r else r.withHmac (hashOf mac key r)) := by
  unfold recomputeIntegrityHmac Db.select
  by_cases hselect : db.fails (.selectColumns id) = true
  · simp [hselect, hr]
  by_cases hkey : key = []
  · simp [hselect, hr, RowIntegrity.computeHmac, hkey]
  by_cases hupdate : db.fails (.updateHmac id) = true
  · simp [hselect, hr, RowIntegrity.computeHmac, hkey, hupdate]
  · simp [hselect, hr, RowIntegrity.computeHmac, hkey, hupdate, Db.find_modify, hashOf]

theorem fails_recomputeIntegrityHmac :
    (recomputeIntegrityHmac mac key db id).2.fails = db.fails := by
  unfold recomputeIntegrityHmac
  split
  · rfl
  split
  · rfl
  split_ifs <;> rfl

/-- The row after an update, when no statement fails and there is a key: it carries the ledger's
answer and the hash of its columns. -/
theorem find_updateLedgerFields (hkey : key ≠ []) (hfails : ∀ q, db.fails q = false)
    (hr : db.records.find id = some r) (entry : LedgerEntry) :
    ∃ db', updateLedgerFields mac key db id entry = (true, db') ∧ (∀ q, db'.fails q = false) ∧
      db'.records.find id = some ((r.withLedger entry).withHmac
        (mac.hex key (RowIntegrity.concatenated (r.withLedger entry).columns))) := by
  have hwritten : (db.modify id (·.withLedger entry) fun r => r.id_withLedger entry).records.find id =
      some (r.withLedger entry) := by
    rw [Db.find_modify, hr, Option.map_some]
  have hnone : ¬ (db.fails (.updateLedger id) = true ∨ db.records.find id = none) := by
    rw [hfails, hr]
    simp
  have hfails' : (db.modify id (·.withLedger entry) fun r => r.id_withLedger entry).fails =
      db.fails := rfl
  refine ⟨(recomputeIntegrityHmac mac key (db.modify id (·.withLedger entry) fun r =>
    r.id_withLedger entry) id).2, ?_, ?_, ?_⟩
  · rw [updateLedgerFields, if_neg hnone]
  · rw [fails_recomputeIntegrityHmac]
    exact hfails
  · rw [find_recomputeIntegrityHmac hwritten, hfails', hfails, hfails, if_neg (by simp [hkey])]
    rfl

end SignatureRepository

end VirtualHsm
