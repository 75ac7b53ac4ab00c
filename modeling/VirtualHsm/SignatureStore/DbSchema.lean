import VirtualHsm.SignatureStore.SqliteConnection

/-!
# The schema of the signature database

`bootstrap` creates the tables of a new database, and brings an older one to version 6: to the
ledger columns of version 4, to the notification tables of version 5, and to the table of events of
version 6. A database at version 6 is left alone.

The step to version 4 asks for the columns of the old tables inside its transaction, while the
thread holds the mutex of the connection. So `bootstrap` never returns on an older database.
-/

namespace VirtualHsm

open CS.Sql (Database Table Column Stmt Value Expr)
open SqliteConnection (query withTransaction)
open SqliteTransaction (exec execAll execText)

/-- `std::stoi`: the number at the head of a text, if there is one and it fits. -/
def stoi (s : String) : Option Int :=
  match s.toList.dropWhile (· ∈ [' ', '\t', '\n', '\x0b', '\x0c', '\r']) with
  | '-' :: cs => number (-1) cs
  | '+' :: cs => number 1 cs
  | cs => number 1 cs
where
  number (sign : Int) (cs : List Char) : Option Int :=
    let digits := cs.takeWhile Char.isDigit
    let n := sign * (Nat.ofDigitChars 10 digits 0 : Nat)
    if digits = [] ∨ n < -2147483648 ∨ 2147483647 < n then none else some n

namespace DbSchema

/-- `K_CURRENT_SCHEMA_VERSION`. -/
def currentSchemaVersion : Int := 6

/-! ### Tables -/

def texts (vs : List String) : List Value := vs.map .text

def idColumn : Column := { name := "id", notNull := true, key := true }

def metaColumns : List Column :=
  [{ name := "key", notNull := true, key := true }, { name := "value", notNull := true }]

def sqlCreateDbMeta : Stmt := .createTable true "db_meta" metaColumns

/-- The columns of a signature that are neither of the ledger nor later additions. -/
def signatureColumns : List Column :=
  [idColumn, { name := "created_at", affinity := .integer, notNull := true },
   { name := "slot_id", affinity := .integer, notNull := true },
   { name := "token_label", notNull := true }, { name := "key_id", notNull := true },
   { name := "key_fingerprint", notNull := true }, { name := "mechanism", notNull := true },
   { name := "payload_digest", notNull := true }, { name := "signature_b64", notNull := true },
   { name := "session_handle", notNull := true }, { name := "user_label" },
   { name := "app_context" }]

def ledgerColumns : List Column :=
  [{ name := "ledger_tx_id" }, { name := "ledger_block_num", affinity := .integer },
   { name := "ledger_tx_time" }, { name := "ledger_tx_proof" }, { name := "ledger_tx_set_b64" },
   { name := "ledger_status", notNull := true
     check := some (texts ["PENDING", "COMMITTED", "FAILED"]) }]

def sqlCreateSignatureRecords : Stmt :=
  .createTable true "signature_records" (signatureColumns ++ ledgerColumns ++
    [{ name := "integrity_hmac" }, { name := "pqc_algo" }, { name := "signature_pqc_b64" },
     { name := "key_fingerprint_pqc" }])

def verificationColumns : List Column :=
  [idColumn, { name := "verified_at", affinity := .integer, notNull := true },
   { name := "signature_id", references := some ("signature_records", "id") },
   { name := "verifier_session", notNull := true },
   { name := "outcome", notNull := true
     check := some (texts ["VALID", "INVALID", "KEY_NOT_FOUND", "ERROR"]) },
   { name := "ledger_outcome"
     check := some (texts ["MATCH", "MISMATCH", "NOT_FOUND", "NOT_CHECKED"]) },
   { name := "error_detail" }]

def sqlCreateSignatureVerifications : Stmt :=
  .createTable true "signature_verifications" verificationColumns

def subscriberColumns : List Column :=
  [idColumn, { name := "name", notNull := true },
   { name := "channel", notNull := true, check := some (texts ["email", "webhook", "grpc_push"]) },
   { name := "address", notNull := true },
   { name := "min_severity", notNull := true, check := some (texts ["INFO", "WARN", "CRITICAL"]) },
   { name := "event_filter" },
   { name := "enabled", affinity := .integer, notNull := true, check := some [.int 0, .int 1] }]

def sqlCreateNotificationSubscribers : Stmt :=
  .createTable true "notification_subscribers" subscriberColumns

def logColumns : List Column :=
  [idColumn, { name := "sent_at", affinity := .integer, notNull := true },
   { name := "event_id", notNull := true },
   { name := "subscriber_id", references := some ("notification_subscribers", "id") },
   { name := "outcome", notNull := true
     check := some (texts ["DELIVERED", "RETRYING", "FAILED", "SKIPPED"]) },
   { name := "attempt_count", affinity := .integer, notNull := true }, { name := "error_detail" }]

def sqlCreateNotificationLog : Stmt := .createTable true "notification_log" logColumns

def sqlCreateEventOutbox : Stmt :=
  .createTable true "event_outbox"
    [idColumn, { name := "created_at", affinity := .integer, notNull := true },
     { name := "event_type", notNull := true }, { name := "aggregate_id", notNull := true },
     { name := "payload", notNull := true },
     { name := "status", notNull := true
       check := some (texts ["PENDING", "DISPATCHED", "FAILED"]) },
     { name := "retry_count", affinity := .integer, notNull := true }]

def sqlCreateIndexes : List Stmt :=
  [.createIndex "idx_sig_key_id" "signature_records" "key_id",
   .createIndex "idx_sig_created_at" "signature_records" "created_at",
   .createIndex "idx_sig_token_label" "signature_records" "token_label",
   .createIndex "idx_sig_payload" "signature_records" "payload_digest",
   .createIndex "idx_sig_ledger_tx_id" "signature_records" "ledger_tx_id",
   .createIndex "idx_sig_ledger_status" "signature_records" "ledger_status",
   .createIndex "idx_nlog_event_id" "notification_log" "event_id",
   .createIndex "idx_nlog_subscriber" "notification_log" "subscriber_id",
   .createIndex "idx_outbox_status" "event_outbox" "status",
   .createIndex "idx_outbox_aggregate" "event_outbox" "aggregate_id"]

/-! ### Reading the schema -/

def tableExists (name : String) : ConnM Bool :=
  query fun db => .ok (db.tables.find name).isSome

def columnExists (table column : String) : ConnM Bool :=
  query fun db => .ok ((db.tables.find table).any fun t => t.HasColumn column)

/-- A value as a query returns it; `NULL` reads as the empty text. -/
def valueText : Value → String
  | .null => ""
  | .int n => toString n
  | .text s => s

def getMeta (key : String) : ConnM String :=
  query fun db => do
    let t ← db.table "db_meta"
    CS.Sql.require (t.HasColumn "key" ∧ t.HasColumn "value") .noSuchColumn
    return (t.rows.find? fun r => r "key" = .text key).elim "" fun r => valueText (r "value")

/-- `current_version`: -1 when nothing is stored that is a number. -/
def currentVersion : ConnM Int := do
  if ← tableExists "db_meta" then
    let v ← getMeta "schema_version"
    return if v = "" then -1 else (stoi v).getD (-1)
  else return -1

def setVersion (version : String) : Stmt :=
  .update "db_meta" "value" (.text version) "key" (.text "schema_version")

/-! ### Migrations -/

/-- The columns that a copy takes over under their names. -/
def same (columns : List String) : List (String × Expr) := columns.map fun c => (c, .column c)

/-- A table is rebuilt: a new one is made, filled from the old one, and takes its name. -/
def rebuild (name : String) (columns : List Column) (values : List (String × Expr)) :
    List Stmt :=
  [.createTable false (name ++ "_new") columns, .insertSelect (name ++ "_new") values name,
   .dropTable name, .renameTable (name ++ "_new") name]

/-- Where the ledger columns of a signature come from. -/
def ledgerValues (hasRekorCols : Bool) : List (String × Expr) :=
  if hasRekorCols then
    [("ledger_tx_id", .column "rekor_entry_uuid"), ("ledger_block_num", .column "rekor_log_index"),
     ("ledger_tx_time", .column "rekor_integrated_time"),
     ("ledger_tx_proof", .column "rekor_inclusion_proof"),
     ("ledger_tx_set_b64", .column "rekor_set_b64"),
     ("ledger_status", .coalesce "rekor_status" (.text "PENDING"))]
  else
    [("ledger_tx_id", .literal .null), ("ledger_block_num", .literal .null),
     ("ledger_tx_time", .literal .null), ("ledger_tx_proof", .literal .null),
     ("ledger_tx_set_b64", .literal .null), ("ledger_status", .literal (.text "PENDING"))]

def signatureValues (hasRekorCols : Bool) : List (String × Expr) :=
  same (signatureColumns.map Column.name) ++ ledgerValues hasRekorCols

def verificationValues (hasRekorOutcome : Bool) : List (String × Expr) :=
  same ["id", "verified_at", "signature_id", "verifier_session", "outcome"] ++
    [("ledger_outcome",
      if hasRekorOutcome then
        .mapping "rekor_outcome" [(.text "PROOF_OK", .text "MATCH"),
          (.text "PROOF_FAILED", .text "MISMATCH"), (.text "NOT_CHECKED", .text "NOT_CHECKED")]
      else .literal .null)] ++ same ["error_detail"]

/-- `migrate_legacy_to_v4`; every older version comes here, those with ledger columns too. -/
def migrateLegacyToV4 : ConnM Unit :=
  withTransaction do
    let hasRekorCols ← columnExists "signature_records" "rekor_entry_uuid"
    let hasRekorOutcome ← columnExists "signature_verifications" "rekor_outcome"
    execAll (rebuild "signature_records" (signatureColumns ++ ledgerColumns)
      (signatureValues hasRekorCols))
    execAll (rebuild "signature_verifications" verificationColumns
      (verificationValues hasRekorOutcome))
    let hasRegistry ← tableExists "key_rekor_registry"
    execAll (if hasRegistry then [.dropTable "key_rekor_registry"] else [])
    execAll sqlCreateIndexes
    exec (setVersion "4")

/-- `migrate_v4_to_v5`: the columns are asked for before the transaction begins. -/
def migrateV4ToV5 : ConnM Unit := do
  let subsHasHmac ← columnExists "notification_subscribers" "integrity_hmac"
  let logHasHmac ← columnExists "notification_log" "integrity_hmac"
  withTransaction do
    if subsHasHmac then
      execAll (rebuild "notification_subscribers" subscriberColumns
        (same (subscriberColumns.map Column.name)))
      execText sqlCreateIndexes
    if logHasHmac then
      execAll (rebuild "notification_log" logColumns (same (logColumns.map Column.name)))
      execText sqlCreateIndexes
    exec (setVersion "5")

def migrateV5ToV6 : ConnM Unit :=
  withTransaction do
    exec sqlCreateEventOutbox
    execAll (sqlCreateIndexes.filter fun s =>
      match s with
      | .createIndex _ table _ => table = "event_outbox"
      | _ => false)
    exec (setVersion "6")

def migrate : ConnM Int := do
  let fromVersion ← currentVersion
  if fromVersion < 0 then
    ConnM.fail (.schemaError
      "Cannot migrate: db_meta does not exist. Call bootstrap() first.")
  else if fromVersion = currentSchemaVersion then return fromVersion
  else if currentSchemaVersion < fromVersion then
    ConnM.fail (.schemaError ("Cannot migrate backwards (DB at v" ++ toString fromVersion ++
      ", binary at v" ++ toString currentSchemaVersion ++ ")."))
  else
    migrateLegacyToV4
    migrateV4ToV5
    migrateV5ToV6
    return fromVersion

/-! ### Bootstrap -/

def metaRow (key value : String) : Stmt :=
  .insertValues "db_meta" [("key", .text key), ("value", .text value)]

/-- The tables and indexes of a new database. -/
def createTables : List Stmt :=
  [sqlCreateDbMeta, sqlCreateSignatureRecords, sqlCreateSignatureVerifications,
   sqlCreateNotificationSubscribers, sqlCreateNotificationLog, sqlCreateEventOutbox] ++
  sqlCreateIndexes

/-- What a new database says about itself. -/
def metaSeed (instanceId : String) (nowMs : Int) : List (String × String) :=
  [("schema_version", toString currentSchemaVersion), ("instance_id", instanceId),
   ("created_at", toString nowMs), ("hmac_key_wrapped", "UNSET")]

/-- The columns that came after version 6 without a version of their own. -/
def addLateColumns : ConnM Unit := do
  if ← columnExists "signature_records" "integrity_hmac" then pure ()
  else withTransaction (exec (.addColumn "signature_records" { name := "integrity_hmac" }))
  if ← columnExists "signature_records" "pqc_algo" then pure ()
  else
    withTransaction (execAll
      [.addColumn "signature_records" { name := "pqc_algo" },
       .addColumn "signature_records" { name := "signature_pqc_b64" },
       .addColumn "signature_records" { name := "key_fingerprint_pqc" }])

def bootstrap (instanceId : String) (nowMs : Int) : ConnM Unit := do
  let version ← currentVersion
  if version = currentSchemaVersion then pure ()
  else if currentSchemaVersion < version then
    ConnM.fail (.schemaError ("DB schema version " ++ toString version ++
      " is newer than compiled version " ++ toString currentSchemaVersion ++
      ". Upgrade the vhsm binary."))
  else if version = -1 then
    withTransaction do
      execAll createTables
      execAll ((metaSeed instanceId nowMs).map fun p => metaRow p.1 p.2)
  else
    let _ ← migrate
    addLateColumns

/-! ### The databases that are upgraded -/

/-- The version that a database says it has. -/
def AtVersion (db : Database) (v : Int) : Prop :=
  (currentVersion .plain false db).1 = .returned v

instance (db : Database) (v : Int) : Decidable (AtVersion db v) := inferInstanceAs (Decidable (_ = _))

/-- The columns of the inserts of `v_dispatch` and of the queries of `get_by_id` and
`verify_integrity`, by their tables. -/
def namedColumns : List (String × List String) :=
  [("signature_records", signatureColumns.map Column.name ++ ledgerColumns.map Column.name ++
      ["integrity_hmac", "pqc_algo", "signature_pqc_b64", "key_fingerprint_pqc"]),
   ("event_outbox", ["id", "created_at", "event_type", "aggregate_id", "payload", "status"]),
   ("signature_records", signatureColumns.map Column.name ++ ledgerColumns.map Column.name ++
      ["pqc_algo", "signature_pqc_b64", "key_fingerprint_pqc"]),
   ("signature_records", signatureColumns.map Column.name ++ ledgerColumns.map Column.name ++
      ["integrity_hmac"])]

/-- Everything that the signature store names is there. -/
def Complete (db : Database) : Prop :=
  ∀ p ∈ namedColumns, ∃ t ∈ db.tables.find p.1, ∀ c ∈ p.2, t.HasColumn c

instance (db : Database) : Decidable (Complete db) := inferInstanceAs (Decidable (∀ _ ∈ _, _))

/-- Every signature is still there, with its values in the columns that are still there. -/
def Keeps (db db' : Database) : Prop :=
  ∀ t ∈ db.tables.find "signature_records", ∃ t' ∈ db'.tables.find "signature_records",
    ∀ r ∈ t.rows, ∃ r' ∈ t'.rows, ∀ c, t.HasColumn c → t'.HasColumn c → r' c = r c

/-- What an upgrade should achieve. -/
structure Upgraded (db : Database) (out : Outcome Unit × Database) : Prop where
  returned : out.1 = .returned ()
  version : AtVersion out.2 currentSchemaVersion
  complete : Complete out.2
  kept : Keeps db out.2

variable {db : Database} {v : Int} {instanceId : String} {nowMs : Int}

theorem Keeps.refl (db : Database) : Keeps db db :=
  fun t ht => ⟨t, ht, fun r hr => ⟨r, hr, fun _ _ _ => rfl⟩⟩

theorem reads_currentVersion : ConnM.Reads currentVersion := by
  refine (SqliteConnection.reads_query _).bind fun found => ?_
  cases found with
  | false => exact ConnM.reads_pure _
  | true => exact (SqliteConnection.reads_query _).bind fun v => ConnM.reads_pure _

theorem AtVersion.eq (h : AtVersion db v) (kind : MutexKind) :
    currentVersion kind false db = (.returned v, db) := by
  obtain ⟨q, hq⟩ := reads_currentVersion
  rw [AtVersion, hq] at h
  rw [hq, ← h]

theorem migrateLegacyToV4_plain (db : Database) :
    migrateLegacyToV4 .plain false db = (.blocked, db) :=
  SqliteConnection.withTransaction_of_blocked
    (ConnM.bind_of_blocked (SqliteConnection.query_of_held _ db))

/-- On an older database `bootstrap` ends with the step to version 4, unless that returns. -/
theorem bootstrap_of_older (h : AtVersion db v) (hpos : 0 ≤ v) (hlt : v < currentSchemaVersion)
    {kind : MutexKind} {out : Outcome Unit} (hout : out ≠ .returned ())
    (hstep : migrateLegacyToV4 kind false db = (out, db)) :
    bootstrap instanceId nowMs kind false db = (out, db) := by
  have hnew : v ≠ -1 := by omega
  have hne : v ≠ currentSchemaVersion := Int.ne_of_lt hlt
  have hle : ¬ currentSchemaVersion < v := Int.not_lt.mpr (Int.le_of_lt hlt)
  have hmigrate : migrate kind false db = (migrateLegacyToV4 >>= fun _ => do
      migrateV4ToV5
      migrateV5ToV6
      return v : ConnM Int) kind false db := by
    unfold migrate
    rw [ConnM.bind_of_returned (h.eq kind), if_neg (Int.not_lt.mpr hpos), if_neg hne, if_neg hle]
  unfold bootstrap
  rw [ConnM.bind_of_returned (h.eq kind), if_neg hne, if_neg hle, if_neg hnew]
  cases out with
  | returned a => exact absurd rfl hout
  | threw e => exact ConnM.bind_of_threw (hmigrate.trans (ConnM.bind_of_threw hstep))
  | blocked => exact ConnM.bind_of_blocked (hmigrate.trans (ConnM.bind_of_blocked hstep))

/-- With the mutex of the connection `bootstrap` waits forever on an older database. -/
theorem bootstrap_blocked (h : AtVersion db v) (hpos : 0 ≤ v) (hlt : v < currentSchemaVersion) :
    bootstrap instanceId nowMs .plain false db = (.blocked, db) :=
  bootstrap_of_older h hpos hlt nofun (migrateLegacyToV4_plain db)

theorem bootstrap_current (h : AtVersion db currentSchemaVersion) (kind : MutexKind) :
    bootstrap instanceId nowMs kind false db = (.returned (), db) := by
  unfold bootstrap
  rw [ConnM.bind_of_returned (h.eq kind), if_pos rfl]
  rfl

/-- An older database is upgraded exactly when it is at version 6 already, with the columns that
came later. -/
theorem upgraded_iff (h : AtVersion db v) (hfirst : 1 ≤ v) (hlast : v ≤ 6) :
    Upgraded db (bootstrap instanceId nowMs .plain false db) ↔ v = 6 ∧ Complete db := by
  obtain hlt | rfl := Int.lt_or_eq_of_le hlast
  · rw [bootstrap_blocked h (by omega) hlt]
    exact iff_of_false (fun hup => by cases hup.returned) fun hsix => absurd hsix.1 (Int.ne_of_lt hlt)
  · rw [bootstrap_current h]
    constructor
    · intro hup
      exact ⟨rfl, hup.complete⟩
    · rintro ⟨-, hcomplete⟩
      exact ⟨rfl, h, hcomplete, Keeps.refl db⟩

/-- A new database, which is at version 6. -/
def newDb : Database := (bootstrap "i" 0 .plain false {}).2

theorem upgraded_newDb : Upgraded newDb (bootstrap "j" 1 .plain false newDb) :=
  (upgraded_iff (v := 6) (by decide +kernel) (by decide) (by decide)).mpr ⟨rfl, by decide +kernel⟩

/-- A database that says it is at a version, without the columns that came after version 6, and
with one signature that the ledger has. -/
def oldDb (version : String) (more : List Stmt) : Database :=
  (execAll
    ([sqlCreateDbMeta, .createTable false "signature_records" (signatureColumns ++ ledgerColumns),
      sqlCreateSignatureVerifications, sqlCreateNotificationSubscribers, sqlCreateNotificationLog] ++
      more ++
     [metaRow "schema_version" version,
      .insertValues "signature_records"
        [("id", .text "r"), ("created_at", .int 1), ("slot_id", .int 0),
         ("token_label", .text "t"), ("key_id", .text "k"), ("key_fingerprint", .text "f"),
         ("mechanism", .text "m"), ("payload_digest", .text "00"), ("signature_b64", .text "s"),
         ("session_handle", .text "1"), ("ledger_tx_id", .text "x"), ("ledger_block_num", .int 7),
         ("ledger_status", .text "COMMITTED")]])
    .plain true {}).2

/-- On a database of version 5 `bootstrap` does not return, and one of version 6 without the later
columns stays without them. -/
theorem not_upgraded_oldDb :
    (AtVersion (oldDb "5" []) 5 ∧
      ¬ Upgraded (oldDb "5" []) (bootstrap "i" 0 .plain false (oldDb "5" []))) ∧
    AtVersion (oldDb "6" [sqlCreateEventOutbox]) 6 ∧
      ¬ Upgraded (oldDb "6" [sqlCreateEventOutbox])
        (bootstrap "i" 0 .plain false (oldDb "6" [sqlCreateEventOutbox])) := by
  refine ⟨⟨by decide +kernel, fun hup => ?_⟩, by decide +kernel, fun hup => ?_⟩
  · have hreturned := hup.returned
    revert hreturned
    decide +kernel
  · have hcomplete := hup.complete
    revert hcomplete
    decide +kernel

/-! ### New databases -/

/-- The rows of `db_meta`. -/
def HasMeta (db : Database) (entries : List (String × String)) : Prop :=
  ∃ t, db.tables.find "db_meta" = some t ∧ t.columns = metaColumns ∧
    t.rows.map (fun r => (r "key", r "value")) = entries.map fun p => (.text p.1, .text p.2)

variable {entries : List (String × String)}

/-- An entry with a new key goes in, and no other table changes. -/
theorem HasMeta.exec_metaRow (h : HasMeta db entries)
    {key : String} (hkey : key ∉ entries.map Prod.fst) (value : String) :
    ∃ db', db.exec (metaRow key value) = .ok db' ∧ HasMeta db' (entries ++ [(key, value)]) ∧
      ∀ name ≠ "db_meta", db'.tables.find name = db.tables.find name := by
  obtain ⟨t, ht, hcolumns, hrows⟩ := h
  let values : List (String × Value) := [("key", .text key), ("value", .text value)]
  have hkeyOf : t.newRow values "key" = .text key := by
    simp [Table.newRow, hcolumns, metaColumns, values, CS.Sql.Affinity.convert]
  have hvalueOf : t.newRow values "value" = .text value := by
    simp [Table.newRow, hcolumns, metaColumns, values, CS.Sql.Affinity.convert, List.lookup_cons]
  have hnames : ∀ p ∈ values, t.HasColumn p.1 := by
    simp [values, Table.HasColumn, hcolumns, metaColumns]
  have hfresh : ∀ r ∈ t.rows, r "key" ≠ .text key := by
    intro r hr heq
    -- A row with this key belongs to an entry with this key.
    have hentry := List.mem_map_of_mem hr (f := fun r => (r "key", r "value"))
    rw [hrows] at hentry
    obtain ⟨p, hp, hpr⟩ := List.mem_map.mp hentry
    have hfst : p.1 = key := by simpa [heq] using congrArg Prod.fst hpr
    exact hkey (List.mem_map.mpr ⟨p, hp, hfst⟩)
  have haccepts : db.Accepts t (t.newRow values) := by
    simpa [Database.Accepts, hcolumns, metaColumns, hkeyOf, hvalueOf, Column.Admits] using hfresh
  have hinsert := Database.insertRow_eq_ok_iff.mpr ⟨t, ht, hnames, haccepts, rfl⟩
  refine ⟨_, hinsert, ⟨t.addRow (t.newRow values), ?_, hcolumns, ?_⟩, fun name hname => ?_⟩
  · rw [Database.find_modify, ht, Option.map_some, if_pos rfl]
  · simp [Table.addRow, hrows, hkeyOf, hvalueOf]
  · simp [Database.find_modify, hname]

/-- Entries with different keys go in one after the other. -/
theorem HasMeta.execAll_metaRows (h : HasMeta db entries) {new : List (String × String)}
    (hkeys : ((entries ++ new).map Prod.fst).Nodup) (kind : MutexKind) (held : Bool) :
    ∃ db', execAll (new.map fun p => metaRow p.1 p.2) kind held db = (.returned (), db') ∧
      HasMeta db' (entries ++ new) ∧
      ∀ name ≠ "db_meta", db'.tables.find name = db.tables.find name := by
  induction new generalizing db entries with
  | nil => exact ⟨db, rfl, by rwa [List.append_nil], fun _ _ => rfl⟩
  | cons p new ih =>
    have hfresh : p.1 ∉ entries.map Prod.fst := by
      rw [List.map_append] at hkeys
      exact fun hmem => List.disjoint_of_nodup_append hkeys hmem List.mem_cons_self
    obtain ⟨db₁, hexec, hmeta, hsame⟩ := h.exec_metaRow hfresh p.2
    rw [List.append_cons] at hkeys ⊢
    obtain ⟨db', hall, hmeta', hsame'⟩ := ih hmeta hkeys
    refine ⟨db', ?_, hmeta', fun name hname => (hsame' name hname).trans (hsame name hname)⟩
    have hfirst : exec (metaRow p.1 p.2) kind held db = (.returned (), db₁) := by
      rw [exec, hexec]
    exact (ConnM.bind_of_returned hfirst).trans hall

/-- The first entry of `db_meta` is the version. -/
theorem HasMeta.atVersion {version : String}
    (h : HasMeta db (("schema_version", version) :: entries)) (hversion : version ≠ "") :
    AtVersion db ((stoi version).getD (-1)) := by
  obtain ⟨t, ht, hcolumns, hrows⟩ := h
  obtain ⟨r, rows, hrow, hr, -⟩ := List.map_eq_cons_iff.mp hrows
  obtain ⟨hkey, hvalue⟩ := Prod.mk.inj hr
  have hexists : tableExists "db_meta" .plain false db = (.returned true, db) := by
    simp [tableExists, query, MutexKind.admits, Outcome.ofExcept, ht]
  have hmeta : getMeta "schema_version" .plain false db = (.returned version, db) := by
    have htable : db.table "db_meta" = .ok t := by rw [Database.table, ht]
    have hcols : t.HasColumn "key" ∧ t.HasColumn "value" := by
      simp [Table.HasColumn, hcolumns, metaColumns]
    simp [getMeta, query, MutexKind.admits, Outcome.ofExcept, htable, CS.Sql.require, hcols, hrow,
      hkey, hvalue, valueText, bind, Except.bind, pure, Except.pure]
  unfold AtVersion currentVersion
  rw [ConnM.bind_of_returned hexists, if_pos rfl, ConnM.bind_of_returned hmeta, if_neg hversion]
  rfl

theorem Complete.of_same {db' : Database} (h : Complete db)
    (hsame : ∀ name ≠ "db_meta", db'.tables.find name = db.tables.find name) : Complete db' := by
  have hother : ∀ p ∈ namedColumns, p.1 ≠ "db_meta" := by decide
  intro p hp
  rw [hsame p.1 (hother p hp)]
  exact h p hp

/-- The tables of a new database, before `db_meta` is filled. -/
theorem execAll_createTables :
    ∃ db, execAll createTables .plain true {} = (.returned (), db) ∧ HasMeta db [] ∧
      Complete db := by
  have hreturned : (execAll createTables .plain true {}).1 = .returned () := by decide +kernel
  have hmeta : ((execAll createTables .plain true {}).2.tables.find "db_meta").map
      (fun t => (t.columns, t.rows.length)) = some (metaColumns, 0) := by decide +kernel
  have hcomplete : Complete (execAll createTables .plain true {}).2 := by decide +kernel
  generalize execAll createTables .plain true {} = out at hreturned hmeta hcomplete ⊢
  obtain ⟨t, ht, htable⟩ := Option.map_eq_some_iff.mp hmeta
  obtain ⟨hcolumns, hlength⟩ := Prod.mk.inj htable
  refine ⟨_, Prod.ext hreturned rfl, ⟨t, ht, hcolumns, ?_⟩, hcomplete⟩
  rw [List.length_eq_zero_iff.mp hlength]
  rfl

theorem bootstrap_empty (instanceId : String) (nowMs : Int) :
    ∃ db, bootstrap instanceId nowMs .plain false {} = (.returned (), db) ∧
      AtVersion db currentSchemaVersion ∧ Complete db := by
  obtain ⟨db₁, htables, hmeta, hcomplete⟩ := execAll_createTables
  have hkeys : (([] ++ metaSeed instanceId nowMs).map Prod.fst).Nodup := by
    simp [metaSeed]
  obtain ⟨db, hseed, hmeta', hsame⟩ := hmeta.execAll_metaRows hkeys .plain true
  have hbody := (ConnM.bind_of_returned (f := fun _ => execAll _) htables).trans hseed
  have hnew : AtVersion {} (-1) := by decide +kernel
  refine ⟨db, ?_, ?_, hcomplete.of_same hsame⟩
  · unfold bootstrap
    rw [ConnM.bind_of_returned (hnew.eq .plain), if_neg (by decide), if_neg (by decide), if_pos rfl]
    exact SqliteConnection.withTransaction_of_returned hbody
  · exact hmeta'.atVersion (by decide)

end DbSchema

end VirtualHsm
