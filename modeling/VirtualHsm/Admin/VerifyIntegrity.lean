import VirtualHsm.Audit.AuditLog
import VirtualHsm.SignatureStore.SignatureRepository

/-!
# The integrity report

`VerifyIntegrity` of the administration service looks at the audit log, at every row of the
signature table and, for the rows that are committed, at the ledger.

A good report should be evidence for all three. The report carries the anchored tail of the audit
log, but nothing compares the log with it; and identifiers and rows that cannot be read count as
absent.
-/

namespace VirtualHsm

/-! ### The report -/

/-- Where the service writes audit events. -/
inductive AuditSink
  | hashChained (log : HashChainedAuditLog)
  | other

structure IntegrityReport where
  ok : Bool := true
  auditChainOk : Bool := false
  auditChainError : String := ""
  auditTailAnchored : String := ""
  recordsChecked : Nat := 0
  rowsIntegrityOk : Nat := 0
  rowsIntegrityFailed : Nat := 0
  integrityFailures : List String := []
  committedChecked : Nat := 0
  ledgerCrossOk : Nat := 0
  ledgerCrossFailed : Nat := 0
  ledgerMismatches : List String := []
  deriving DecidableEq, Repr

/-- The status codes of a refused request. -/
inductive StatusCode
  | failedPrecondition
  deriving DecidableEq, Repr

namespace HsmAdmin

open SignatureRepository (getAllIds getById cell)

variable (mac : Hmac) (client : Option LedgerClient)

/-- The audit log. The anchored tail is reported, not compared. -/
def checkAudit : AuditSink → IntegrityReport
  | .other => { auditChainOk := true }
  | .hashChained log =>
    let rep : IntegrityReport :=
      match log.verifyChain mac with
      | some bad =>
        { ok := false, auditChainError := "first bad record at line " ++ toString bad }
      | none => { auditChainOk := true }
    match client.bind (·.getLatestAuditTailHash) with
    | some tail => { rep with auditTailAnchored := tail }
    | none => rep

/-- The hash of one row. -/
def checkRowHash (key : Bytes) (db : Db) (rep : IntegrityReport) (id : String) : IntegrityReport :=
  if SignatureRepository.verifyIntegrity mac key db id then
    { rep with rowsIntegrityOk := rep.rowsIntegrityOk + 1 }
  else
    { rep with
      rowsIntegrityFailed := rep.rowsIntegrityFailed + 1
      integrityFailures := rep.integrityFailures ++ [id]
      ok := false }

/-- The comparison of one committed row with the ledger. -/
def crossCheck (db : Db) (rep : IntegrityReport) (id : String) : IntegrityReport :=
  match getById db id with
  | none => rep
  | some row =>
    if row.length < 18 then rep
    else if cell row 17 ≠ "COMMITTED" then rep
    else
      let rep := { rep with committedChecked := rep.committedChecked + 1 }
      match client with
      | none => rep
      | some c =>
        let mismatch (detail : String) : IntegrityReport :=
          { rep with
            ledgerCrossFailed := rep.ledgerCrossFailed + 1
            ledgerMismatches :=
              rep.ledgerMismatches ++ [id ++ ": local tx=" ++ cell row 12 ++ detail]
            ok := false }
        match c.getRecord id with
        | none => mismatch " (ledger missing)"
        | some entry =>
          if entry.txId = cell row 12 then
            { rep with ledgerCrossOk := rep.ledgerCrossOk + 1 }
          else mismatch (" ledger tx=" ++ entry.txId)

def checkRow (key : Bytes) (db : Db) (rep : IntegrityReport) (id : String) : IntegrityReport :=
  crossCheck client db (checkRowHash mac key db rep id) id

/-- `VerifyIntegrity`. The store is the database with the integrity key of the token. -/
def verifyIntegrity (sink : AuditSink) (store : Option (Bytes × Db)) :
    Except (StatusCode × String) IntegrityReport :=
  match store with
  | none => .error (.failedPrecondition, "signature store not configured")
  | some (key, db) =>
    .ok ((getAllIds db).foldl (checkRow mac client key db)
      { checkAudit mac client sink with recordsChecked := (getAllIds db).length })

end HsmAdmin

/-! ### When a report is good -/

/-- The row carries the hash of its columns. -/
def SignatureRow.Intact (mac : Hmac) (key : Bytes) (r : SignatureRow) : Prop :=
  RowIntegrity.verifyHmac mac key r.columns (readText r.integrityHmac) = true

/-- The log has no line that is not the next record of its chain. -/
def AuditSink.Intact (mac : Hmac) : AuditSink → Prop
  | .other => True
  | .hashChained log => ∀ bytes, log.file = some bytes → ∃ es, log.Verifies mac bytes es

/-- The log verifies and contains the record with the anchored hash. -/
def AuditSink.Anchored (mac : Hmac) (tail : String) : AuditSink → Prop
  | .other => False
  | .hashChained log =>
    ∃ bytes es, log.file = some bytes ∧ log.Verifies mac bytes es ∧
      ∃ e ∈ es, e.hmac = tail.toUTF8.toList

theorem LedgerStatus.text_eq_committed_iff {s : LedgerStatus} :
    s.text = "COMMITTED" ↔ s = .committed := by
  cases s <;> decide

namespace HsmAdmin

open SignatureRepository (getAllIds getById cell)

variable {mac : Hmac} {client : Option LedgerClient} {c : LedgerClient} {sink : AuditSink}
  {key : Bytes} {db : Db} {rep : IntegrityReport} {id tail : String}

theorem ok_checkAudit : (checkAudit mac client sink).ok = true ↔ sink.Intact mac := by
  cases sink with
  | other => simp [checkAudit, AuditSink.Intact]
  | hashChained log =>
    rw [AuditSink.Intact, ← HashChainedAuditLog.verifyChain_eq_none_iff]
    -- The anchored tail does not enter the verdict.
    cases hchain : log.verifyChain mac <;>
      cases htail : client.bind (·.getLatestAuditTailHash) <;>
      simp [checkAudit, hchain, htail]

theorem ok_checkRowHash :
    (checkRowHash mac key db rep id).ok = true ↔
      rep.ok = true ∧ SignatureRepository.verifyIntegrity mac key db id = true := by
  unfold checkRowHash
  split_ifs with h <;> simp [h]

/-- A row that can be read, is committed and has no counterpart on the ledger spoils the report. -/
theorem ok_crossCheck :
    (crossCheck (some c) db rep id).ok = true ↔
      rep.ok = true ∧ ∀ r, db.select .selectById id = some r → r.ledgerStatus = .committed →
        ∃ entry, c.getRecord id = some entry ∧ entry.txId = readText r.ledgerTxId := by
  cases hr : db.select .selectById id with
  | none => simp [crossCheck, getById, hr]
  | some r =>
    have hlen : ¬ ((r.columns ++ r.pqcColumns).mapIdx SignatureRepository.column).length < 18 := by
      rw [List.length_mapIdx]
      exact Nat.not_lt.mpr (by decide : 18 ≤ 21)
    have hstatus : cell ((r.columns ++ r.pqcColumns).mapIdx SignatureRepository.column) 17 =
        r.ledgerStatus.text :=
      SignatureRepository.cell_mapIdx_column (i := 17) _ (by decide)
    have htx : cell ((r.columns ++ r.pqcColumns).mapIdx SignatureRepository.column) 12 =
        readText r.ledgerTxId :=
      SignatureRepository.cell_mapIdx_column (i := 12) _ (by decide)
    simp only [crossCheck, getById, hr, Option.map_some, if_neg hlen, hstatus, htx, ne_eq,
      LedgerStatus.text_eq_committed_iff, Option.some.injEq, forall_eq']
    by_cases hcommitted : r.ledgerStatus = .committed
    · cases hrecord : c.getRecord id with
      | none => simp [hcommitted]
      | some entry => by_cases heq : entry.txId = readText r.ledgerTxId <;> simp [hcommitted, heq]
    · simp [hcommitted]

/-- What the report requires of an identifier. -/
def RowPasses (mac : Hmac) (c : LedgerClient) (key : Bytes) (db : Db) (id : String) : Prop :=
  (∃ r, db.select .selectIntegrity id = some r ∧ r.Intact mac key) ∧
    ∀ r, db.select .selectById id = some r → r.ledgerStatus = .committed →
      ∃ entry, c.getRecord id = some entry ∧ entry.txId = readText r.ledgerTxId

theorem ok_checkRow :
    (checkRow mac (some c) key db rep id).ok = true ↔
      rep.ok = true ∧ RowPasses mac c key db id := by
  have hhash : SignatureRepository.verifyIntegrity mac key db id = true ↔
      ∃ r, db.select .selectIntegrity id = some r ∧ r.Intact mac key := by
    unfold SignatureRepository.verifyIntegrity SignatureRow.Intact
    cases db.select .selectIntegrity id <;> simp
  rw [checkRow, ok_crossCheck, ok_checkRowHash, hhash, RowPasses, and_assoc]

theorem ok_foldl_checkRow (ids : List String) (rep : IntegrityReport) :
    (ids.foldl (checkRow mac (some c) key db) rep).ok = true ↔
      rep.ok = true ∧ ∀ id ∈ ids, RowPasses mac c key db id := by
  induction ids generalizing rep with
  | nil => simp
  | cons id ids ih => rw [List.foldl_cons, ih, ok_checkRow, List.forall_mem_cons, and_assoc]

/-- The request succeeds and its report is good. -/
def ReportsOk (mac : Hmac) (client : Option LedgerClient) (sink : AuditSink)
    (store : Option (Bytes × Db)) : Prop :=
  ∃ rep, verifyIntegrity mac client sink store = .ok rep ∧ rep.ok = true

theorem reportsOk_iff :
    ReportsOk mac (some c) sink (some (key, db)) ↔
      sink.Intact mac ∧ ∀ id ∈ getAllIds db, RowPasses mac c key db id := by
  simp only [ReportsOk, verifyIntegrity, Except.ok.injEq, exists_eq_left', ok_foldl_checkRow,
    ok_checkAudit]

theorem mem_getAllIds :
    id ∈ getAllIds db ↔ db.fails .selectIds = false ∧ ∃ r ∈ db.records.rows, readText r.id = id := by
  unfold SignatureRepository.getAllIds
  split_ifs with h <;> simp [h, List.mem_mergeSort]

/-! ### What a good report should mean -/

/-- The log is as long as the anchored tail says, every row carries its hash, and every committed
row is on the ledger with its transaction. -/
structure Evidence (mac : Hmac) (c : LedgerClient) (sink : AuditSink) (key : Bytes) (db : Db)
    (tail : String) : Prop where
  audit : sink.Anchored mac tail
  rows : ∀ r ∈ db.records.rows, r.Intact mac key
  ledger : ∀ r ∈ db.records.rows, r.ledgerStatus = .committed →
    ∃ entry, c.getRecord r.id = some entry ∧ entry.txId = readText r.ledgerTxId

/-- A good report is evidence, whatever the rows with the given identifiers and the ledger with
the given tail hold. -/
def Sound (mac : Hmac) (sink : AuditSink) (key : Bytes) (fails : Statement → Bool)
    (ids : List String) (tail : String) : Prop :=
  ∀ (db : Db) (c : LedgerClient), db.fails = fails → db.records.rows.map (·.id) = ids →
    c.getLatestAuditTailHash = some tail → ReportsOk mac (some c) sink (some (key, db)) →
    Evidence mac c sink key db tail

/-- Nothing but the contents of the rows can spoil the report: there is a key, and each identifier
that is listed finds a row and its hash can be read. -/
def RowsCanPass (key : Bytes) (fails : Statement → Bool) (ids : List String) : Prop :=
  fails .selectIds = false → ∀ id ∈ ids,
    key ≠ [] ∧ fails (.selectIntegrity (readText id)) = false ∧ readText id ∈ ids

/-- The identifiers can be listed, each is listed as it is, and each row can be read. -/
def RowsRead (fails : Statement → Bool) (ids : List String) : Prop :=
  ∀ id ∈ ids, fails .selectIds = false ∧ readText id = id ∧ fails (.selectById id) = false

theorem evidence_of_rowsRead (hread : RowsRead db.fails (db.records.rows.map (·.id)))
    (hanchored : sink.Anchored mac tail) (hok : ReportsOk mac (some c) sink (some (key, db))) :
    Evidence mac c sink key db tail := by
  have hrow : ∀ r ∈ db.records.rows, r.Intact mac key ∧ (r.ledgerStatus = .committed →
      ∃ entry, c.getRecord r.id = some entry ∧ entry.txId = readText r.ledgerTxId) := by
    intro r hr
    obtain ⟨hids, hid, hselect⟩ := hread r.id (List.mem_map_of_mem hr)
    have hfind : db.records.find r.id = some r := CS.KeyedTable.find_eq_some_iff.mpr ⟨hr, rfl⟩
    obtain ⟨⟨r', hr', hintact⟩, hledger⟩ :=
      (reportsOk_iff.mp hok).2 r.id (mem_getAllIds.mpr ⟨hids, r, hr, hid⟩)
    have hsame : r' = r := by
      rw [Db.select] at hr'
      split_ifs at hr'
      exact Option.mem_unique hr' hfind
    refine ⟨hsame ▸ hintact, hledger r ?_⟩
    rw [Db.select, hselect, hfind]
    rfl
  exact ⟨hanchored, fun r hr => (hrow r hr).1, fun r hr => (hrow r hr).2⟩

/-! ### Rows and a ledger for a good report -/

/-- A row with an identifier, a status and the hash that `hmac` makes of its columns. -/
def sampleRow (status : LedgerStatus) (hmac : List String → String) (id : String) : SignatureRow :=
  let r : SignatureRow :=
    { id, createdAt := 0, slotId := 0, tokenLabel := "", keyId := "", keyFingerprint := ""
      mechanism := "", payloadDigest := "", signatureB64 := "", sessionHandle := ""
      ledgerTxId := "x", ledgerStatus := status }
  r.withHmac (hmac r.columns)

/-- A ledger that holds nothing but the tail of the audit log. -/
def anchoring (tail : String) : LedgerClient where
  world := .ok (Function.update (fun _ => none) SignatureLedger.auditTailLatestKey
    (some (.auditTail { tailHash := tail })))

theorem getLatestAuditTailHash_anchoring (htail : tail ≠ "") :
    (anchoring tail).getLatestAuditTailHash = some tail := by
  simp [LedgerClient.getLatestAuditTailHash, anchoring, SignatureLedger.getLatestAuditTail,
    SignatureLedger.Value.asAuditTail, htail]

theorem txId_of_getRecord_anchoring {entry : LedgerEntry}
    (h : (anchoring tail).getRecord id = some entry) : entry.txId = "" := by
  by_cases hid : id = SignatureLedger.auditTailLatestKey
  · subst hid
    simp only [LedgerClient.getRecord, anchoring, SignatureLedger.getRecord, Function.update_self,
      SignatureLedger.Value.asRecord, Option.some.injEq] at h
    rw [← h]
  · simp [LedgerClient.getRecord, anchoring, SignatureLedger.getRecord, Function.update_of_ne hid] at h

theorem readText_readText (s : String) : readText (readText s) = readText s := by
  apply readText_eq_self
  intro hmem
  rw [readText, String.toList_ofList] at hmem
  simpa using List.mem_takeWhile_imp hmem

section Samples

variable {fails : Statement → Bool} {ids : List String}

/-- The table with one row for each identifier. -/
def tableOf (hids : ids.Nodup) (mk : String → SignatureRow) (hmk : ∀ id, (mk id).id = id) :
    CS.KeyedTable SignatureRow.id where
  rows := ids.map mk
  nodup := by
    have hid : SignatureRow.id ∘ mk = fun id => id := funext hmk
    rw [List.map_map, hid, List.map_id']
    exact hids

variable {hids : ids.Nodup} {mk : String → SignatureRow} {hmk : ∀ id, (mk id).id = id}

theorem find_tableOf (hid : id ∈ ids) : (tableOf hids mk hmk).find id = some (mk id) :=
  CS.KeyedTable.find_eq_some_iff.mpr ⟨List.mem_map_of_mem hid, hmk id⟩

/-- If the rows that are looked at are good, then so is the report. -/
theorem reportsOk_tableOf (hintact : sink.Intact mac) (hpass : RowsCanPass key fails ids)
    (hgood : fails .selectIds = false → ∀ id ∈ ids, readText id = id →
      (mk id).Intact mac key ∧
        ((mk id).ledgerStatus = .committed → fails (.selectById id) = true)) :
    ReportsOk mac (some c) sink (some (key, ⟨tableOf hids mk hmk, .empty, fails⟩)) := by
  refine reportsOk_iff.mpr ⟨hintact, ?_⟩
  intro listed hlisted
  obtain ⟨hselect, r, hr, rfl⟩ := mem_getAllIds.mp hlisted
  obtain ⟨id, hid, rfl⟩ := List.mem_map.mp hr
  rw [hmk]
  obtain ⟨-, hread, hmem⟩ := hpass hselect id hid
  obtain ⟨hrow, hcommitted⟩ := hgood hselect (readText id) hmem (readText_readText id)
  have hfind : (tableOf hids mk hmk).find (readText id) = some (mk (readText id)) :=
    find_tableOf hmem
  constructor
  · refine ⟨mk (readText id), ?_, hrow⟩
    simp only [Db.select, hread, hfind, Bool.false_eq_true, if_false]
  · intro r hr hstatus
    rw [Db.select] at hr
    split_ifs at hr with hfail
    obtain rfl := Option.mem_unique hr hfind
    exact absurd (hcommitted hstatus) hfail

end Samples

/-- The hash that a row with these columns should carry. -/
def rowHash (mac : Hmac) (key : Bytes) (cols : List String) : String :=
  mac.hex key (RowIntegrity.concatenated cols)

theorem intact_sampleRow (hkey : key ≠ []) (status : LedgerStatus) :
    (sampleRow status (rowHash mac key) id).Intact mac key :=
  (RowIntegrity.verifyHmac_iff hkey).mpr (readText_eq_self (mac.notMem_hex _ _))

theorem not_intact_sampleRow (status : LedgerStatus) :
    ¬ (sampleRow status (fun _ => "") id).Intact mac key := by
  intro h
  have hempty : readText "" = "" := by decide
  simp [SignatureRow.Intact, RowIntegrity.verifyHmac, sampleRow, SignatureRow.withHmac, hempty] at h

/-! ### When a good report is evidence -/

section Sound

variable {fails : Statement → Bool} {ids : List String}

section

variable (hsound : Sound mac sink key fails ids tail) (hids : ids.Nodup) (htail : tail ≠ "")
  (hintact : sink.Intact mac) (hpass : RowsCanPass key fails ids)
include hsound hids htail hintact hpass

/-- What soundness makes of a good report on a table of samples. -/
theorem Sound.evidence
    (mk : String → SignatureRow) (hmk : ∀ id, (mk id).id = id)
    (hgood : fails .selectIds = false → ∀ id ∈ ids, readText id = id →
      (mk id).Intact mac key ∧
        ((mk id).ledgerStatus = .committed → fails (.selectById id) = true)) :
    Evidence mac (anchoring tail) sink key ⟨tableOf hids mk hmk, .empty, fails⟩ tail := by
  apply hsound _ _ rfl _ (getLatestAuditTailHash_anchoring htail)
    (reportsOk_tableOf hintact hpass hgood)
  have hid : (fun r : SignatureRow => r.id) ∘ mk = fun id => id := funext hmk
  change (ids.map mk).map _ = ids
  rw [List.map_map, hid, List.map_id']

theorem Sound.anchored : sink.Anchored mac tail := by
  refine (hsound.evidence hids htail hintact hpass (sampleRow .pending (rowHash mac key))
    (fun _ => rfl) ?_).audit
  intro hlist id hid _
  exact ⟨intact_sampleRow (hpass hlist id hid).1 _, fun hstatus => nomatch hstatus⟩

theorem Sound.lists (hid : id ∈ ids) : fails .selectIds = false := by
  by_contra hfail
  have hrows := (hsound.evidence hids htail hintact hpass (sampleRow .pending fun _ => "")
    (fun _ => rfl) fun hlist => absurd hlist hfail).rows
  exact not_intact_sampleRow _ (hrows _ (List.mem_map_of_mem hid))

theorem Sound.readText_eq (hid : id ∈ ids) : readText id = id := by
  by_contra hne
  let hash (i : String) : List String → String := if i = id then fun _ => "" else rowHash mac key
  have hrows := (hsound.evidence hids htail hintact hpass (fun i => sampleRow .pending (hash i) i)
    (fun _ => rfl) ?_).rows
  · have hbad := hrows _ (List.mem_map_of_mem hid)
    rw [show hash id = fun _ => "" from if_pos rfl] at hbad
    exact not_intact_sampleRow _ hbad
  · intro hlist i hi htext
    have hother : i ≠ id := fun heq => hne (heq ▸ htext)
    rw [show hash i = rowHash mac key from if_neg hother]
    exact ⟨intact_sampleRow (hpass hlist i hi).1 _, fun hstatus => nomatch hstatus⟩

theorem Sound.selects (hid : id ∈ ids) : fails (.selectById id) = false := by
  by_contra hfail
  let status (i : String) : LedgerStatus := if i = id then .committed else .pending
  have hledger := (hsound.evidence hids htail hintact hpass
    (fun i => sampleRow (status i) (rowHash mac key) i) (fun _ => rfl) ?_).ledger
  · obtain ⟨entry, hentry, htx⟩ := hledger _ (List.mem_map_of_mem hid) (if_pos rfl)
    rw [txId_of_getRecord_anchoring hentry] at htx
    exact absurd htx (by decide : "" ≠ readText "x")
  · intro hlist i hi _
    refine ⟨intact_sampleRow (hpass hlist i hi).1 _, fun hstatus => ?_⟩
    by_cases heq : i = id
    · subst heq
      simpa using hfail
    · rw [show (sampleRow (status i) (rowHash mac key) i).ledgerStatus = .pending from
        if_neg heq] at hstatus
      cases hstatus

end

theorem rowsCanPass_of_reportsOk (hok : ReportsOk mac (some c) sink (some (key, db))) :
    RowsCanPass key db.fails (db.records.rows.map (·.id)) := by
  intro hlist id hid
  obtain ⟨r, hr, rfl⟩ := List.mem_map.mp hid
  obtain ⟨⟨r', hr', hintact⟩, -⟩ :=
    (reportsOk_iff.mp hok).2 _ (mem_getAllIds.mpr ⟨hlist, r, hr, rfl⟩)
  rw [Db.select] at hr'
  split_ifs at hr' with hfail
  obtain ⟨hmem, hsame⟩ := CS.KeyedTable.find_eq_some_iff.mp hr'
  refine ⟨?_, by simpa using hfail, hsame ▸ List.mem_map_of_mem hmem⟩
  -- Without a key no row verifies.
  rintro rfl
  rw [SignatureRow.Intact, RowIntegrity.verifyHmac_nil] at hintact
  cases hintact

/-- A good report is evidence exactly when there cannot be one, because of the log or because of
a row that never passes, or the log has the anchored record and every row is read. -/
theorem sound_iff (hids : ids.Nodup) (htail : tail ≠ "") :
    Sound mac sink key fails ids tail ↔
      ¬ sink.Intact mac ∨ ¬ RowsCanPass key fails ids ∨
        (sink.Anchored mac tail ∧ RowsRead fails ids) := by
  constructor
  · intro hsound
    by_cases hintact : sink.Intact mac
    · by_cases hpass : RowsCanPass key fails ids
      · refine .inr (.inr ⟨hsound.anchored hids htail hintact hpass, fun id hid => ?_⟩)
        exact ⟨hsound.lists hids htail hintact hpass hid,
          hsound.readText_eq hids htail hintact hpass hid,
          hsound.selects hids htail hintact hpass hid⟩
      · exact .inr (.inl hpass)
    · exact .inl hintact
  · rintro hcond db c rfl rfl _ hok
    rcases hcond with hbad | hbad | ⟨hanchored, hread⟩
    · exact absurd (reportsOk_iff.mp hok).1 hbad
    · exact absurd (rowsCanPass_of_reportsOk hok) hbad
    · exact evidence_of_rowsRead hread hanchored hok

end Sound

/-- A log of one record, under the constant hash. -/
def oneRecord : Bytes :=
  [49, 124, 116, 124, 105, 124, 101, 124] ++ List.replicate 64 48 ++ [124] ++ List.replicate 64 48 ++
    [10]

/-- With the whole log and a database that answers, a good report is evidence. -/
theorem sound_oneRecord :
    Sound .toy (.hashChained ⟨[1], some oneRecord⟩) [1] (fun _ => false) ["r"]
      "0000000000000000000000000000000000000000000000000000000000000000" := by
  refine (sound_iff (by decide) (by decide)).mpr (.inr (.inr ⟨?_, ?_⟩))
  · refine ⟨oneRecord,
      [⟨[49], [116], [105], [101], List.replicate 64 48, List.replicate 64 48⟩], rfl,
      ⟨by decide +kernel, rfl, by decide +kernel, trivial⟩, _, List.mem_singleton_self _, by decide +kernel⟩
  · intro id hid
    rw [List.mem_singleton] at hid
    subst hid
    decide

/-- The log is cut down to nothing while the tail of a record is anchored: the report is good. -/
theorem not_sound_truncated :
    ¬ Sound .toy (.hashChained ⟨[1], some []⟩) [1] (fun _ => false) []
      "0000000000000000000000000000000000000000000000000000000000000000" := by
  intro hsound
  have hevidence := hsound ⟨.empty, .empty, fun _ => false⟩ (anchoring _) rfl rfl
    (getLatestAuditTailHash_anchoring (by decide)) (reportsOk_iff.mpr ⟨?_, ?_⟩)
  rotate_left
  · rintro _ ⟨⟩
    exact ⟨[], rfl, trivial⟩
  · intro id hid
    obtain ⟨-, r, hr, -⟩ := mem_getAllIds.mp hid
    cases hr
  obtain ⟨bytes, es, hfile, ⟨hlines, -⟩, e, he, -⟩ := hevidence.audit
  cases hfile
  rw [List.map_eq_nil_iff.mp hlines.symm] at he
  cases he

end HsmAdmin

end VirtualHsm
