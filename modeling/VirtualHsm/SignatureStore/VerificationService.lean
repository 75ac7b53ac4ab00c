import VirtualHsm.SignatureStore.SignatureRepository

/-!
# From a signature to its verification

The dispatcher stores a signature with the hash of its row, the ledger client anchors it, the
repository writes the ledger's answer to the row, and the verification service compares the row
with the ledger.

The ledger keeps a record under the record's identifier. The verification service asks for it
under the identifier of the transaction, so an anchored signature is not found.
-/

namespace VirtualHsm

/-! ### Dispatching -/

/-- A companion signature with a post-quantum key, and the public key if there is one. -/
structure Companion where
  signature : Bytes
  publicKey : Option Bytes
  deriving DecidableEq, Repr

namespace SignatureDispatcher

/-- The row as it is inserted, still without its hash. -/
def row (id : String) (companion : Option Companion) (input : SignatureDispatchInput) :
    SignatureRow where
  id := id
  createdAt := input.createdAt
  slotId := input.slotId
  tokenLabel := bytesText input.tokenLabel
  keyId := input.keyId
  keyFingerprint := input.keyFingerprint
  mechanism := input.mechanism
  payloadDigest := input.signResult.payloadDigest
  signatureB64 := base64Encode input.signResult.signature
  sessionHandle := input.sessionHandle
  userLabel := input.userLabel.getD ""
  appContext := input.appContext.getD ""
  pqcAlgo := if companion.isSome then "DILITHIUM3" else ""
  signaturePqcB64 := companion.elim "" fun c => base64Encode c.signature
  keyFingerprintPqc := (companion.bind (·.publicKey)).elim "" base64Encode

/-- The columns as they are handed to the hash: nothing has gone through a query yet. -/
def givenColumns (r : SignatureRow) : List String :=
  [r.id, toString r.createdAt, toString r.slotId, r.tokenLabel, r.keyId, r.keyFingerprint,
   r.mechanism, r.payloadDigest, r.signatureB64, r.sessionHandle, r.userLabel, r.appContext, "",
   "0", "", "", "", "PENDING"]

def outboxEvent (outboxId id : String) (nowTicks : Int) (input : SignatureDispatchInput) :
    OutboxEvent where
  id := outboxId
  createdAt := nowTicks
  eventType := "SIGN_CREATED"
  aggregateId := id
  payload := "\x7b\"signature_id\":\"" ++ id ++ "\",\"key_id\":\"" ++ input.keyId ++ "\"\x7d"

/-- The record for the ledger. -/
def record (r : SignatureRow) : SignatureRecord where
  recordId := r.id
  createdAt := r.createdAt
  keyFingerprint := r.keyFingerprint
  payloadDigest := r.payloadDigest
  signatureB64 := r.signatureB64
  pqcAlgo := r.pqcAlgo
  signaturePqcB64 := if r.signaturePqcB64 = "" then none else some r.signaturePqcB64
  keyFingerprintPqc := if r.keyFingerprintPqc = "" then none else some r.keyFingerprintPqc

/-- The transaction: a row and its event, or nothing. -/
def store (r : SignatureRow) (event : OutboxEvent) (db : Db) : Option Db :=
  if db.fails .insertSignature then none
  else do
    let records ← db.records.insert r
    let outbox ← db.outbox.insert event
    some { db with records, outbox }

/-- `v_dispatch`: row and event in one transaction, then the record to the ledger worker, if there
is one. Without a key the row has no hash. -/
def dispatch (mac : Hmac) (key : Bytes) (worker : Bool) (id outboxId : String) (nowTicks : Int)
    (companion : Option Companion) (input : SignatureDispatchInput) (db : Db) :
    Bool × Option SignatureRecord × Db :=
  let r := row id companion input
  let hashed := r.withHmac ((RowIntegrity.computeHmac mac key (givenColumns r)).getD "")
  match store hashed (outboxEvent outboxId id nowTicks input) db with
  | none => (false, none, db)
  | some db' => (true, if worker then some (record r) else none, db')

variable {mac : Hmac} {key : Bytes} {worker : Bool} {id outboxId : String} {nowTicks : Int}
  {companion : Option Companion} {input : SignatureDispatchInput} {db db' : Db}
  {rec : SignatureRecord}

/-- A transaction that went through has written both tables. -/
theorem store_eq_some_iff {r : SignatureRow} {event : OutboxEvent} :
    store r event db = some db' ↔ db.fails .insertSignature = false ∧
      ∃ records outbox, db.records.insert r = some records ∧
        db.outbox.insert event = some outbox ∧ { db with records, outbox } = db' := by
  unfold store
  by_cases hfails : db.fails .insertSignature = true
  · simp [hfails]
  · simp [hfails, Option.bind_eq_some_iff]

/-- A dispatch that fails changes nothing, and one that succeeds has added a row and its event. -/
theorem dispatch_cases (mac : Hmac) (key : Bytes) (worker : Bool) (id outboxId : String)
    (nowTicks : Int) (companion : Option Companion) (input : SignatureDispatchInput) (db : Db) :
    dispatch mac key worker id outboxId nowTicks companion input db = (false, none, db) ∨
      ∃ records outbox,
        db.records.insert ((row id companion input).withHmac
          ((RowIntegrity.computeHmac mac key (givenColumns (row id companion input))).getD "")) =
            some records ∧
        db.outbox.insert (outboxEvent outboxId id nowTicks input) = some outbox ∧
        dispatch mac key worker id outboxId nowTicks companion input db =
          (true, if worker then some (record (row id companion input)) else none,
            { db with records, outbox }) := by
  unfold dispatch
  dsimp only
  split
  · exact .inl rfl
  · next hstore =>
    obtain ⟨-, records, outbox, hrecords, houtbox, rfl⟩ := store_eq_some_iff.mp hstore
    exact .inr ⟨records, outbox, hrecords, houtbox, rfl⟩

/-- The row that a successful dispatch has stored. -/
theorem find_of_dispatch {out : Option SignatureRecord}
    (h : dispatch mac key worker id outboxId nowTicks companion input db = (true, out, db')) :
    db'.records.find id = some ((row id companion input).withHmac
      ((RowIntegrity.computeHmac mac key (givenColumns (row id companion input))).getD "")) := by
  obtain hfalse | ⟨records, outbox, hinsert, -, htrue⟩ :=
    dispatch_cases mac key worker id outboxId nowTicks companion input db
  · cases hfalse.symm.trans h
  · obtain ⟨-, -, rfl⟩ := htrue.symm.trans h
    exact (CS.KeyedTable.find_insert hinsert).trans (if_pos rfl)

/-- What a successful dispatch has stored and handed on. -/
theorem find_dispatch
    (h : dispatch mac key worker id outboxId nowTicks companion input db = (true, some rec, db')) :
    rec = record (row id companion input) ∧ db'.fails = db.fails ∧
      ∃ hmac, db'.records.find id = some ((row id companion input).withHmac hmac) := by
  have hfind := find_of_dispatch h
  obtain hfalse | ⟨records, outbox, -, -, htrue⟩ :=
    dispatch_cases mac key worker id outboxId nowTicks companion input db
  · cases hfalse.symm.trans h
  · obtain ⟨-, hrec, hdb⟩ := by simpa only [Prod.mk.injEq] using htrue.symm.trans h
    split_ifs at hrec
    exact ⟨(Option.some.inj hrec).symm, by rw [← hdb], _, hfind⟩

end SignatureDispatcher

/-! ### Verification -/

structure VerificationResult where
  localRecordExists : Bool := false
  ledgerRecordExists : Bool := false
  payloadDigestMatch : Bool := false
  signatureB64Match : Bool := false
  keyFingerprintMatch : Bool := false
  integrityHmacOk : Bool := false
  errorDetail : Option String := none
  ledgerTxId : Option String := none
  ledgerBlockNum : Option Int := none
  deriving DecidableEq, Repr

/-- The row verifies, and the ledger has a record that agrees with it. -/
def VerificationResult.Confirmed (v : VerificationResult) : Prop :=
  v.integrityHmacOk = true ∧ v.ledgerRecordExists = true ∧ v.payloadDigestMatch = true ∧
    v.signatureB64Match = true ∧ v.keyFingerprintMatch = true

namespace VerificationService

open SignatureRepository (cell)

/-- The comparison with the ledger: the record is looked up under the transaction identifier of
the row. -/
def compareLedger (client : Option LedgerClient) (row : List (Option String))
    (v : VerificationResult) : VerificationResult :=
  match client with
  | none => { v with errorDetail := "ledger client not configured — ledger cross-check skipped" }
  | some c =>
    if cell row 12 = "" then
      { v with errorDetail := "No ledger transaction ID in local record" }
    else
      match c.getRecord (cell row 12) with
      | none => { v with errorDetail := "Ledger record not found for transaction ID" }
      | some entry =>
        { v with
          ledgerRecordExists := true
          ledgerTxId := some (cell row 12)
          ledgerBlockNum := (row.getD 13 none).bind String.toInt?
          payloadDigestMatch := entry.payloadDigest = cell row 7
          signatureB64Match := entry.signatureB64 = cell row 8
          keyFingerprintMatch := entry.keyFingerprint = cell row 5 }

/-- `v_verify`. -/
def verify (mac : Hmac) (key : Bytes) (db : Db) (client : Option LedgerClient)
    (signatureId : String) (checkLedger : Bool) : VerificationResult :=
  match SignatureRepository.getById db signatureId with
  | none => { errorDetail := "Signature record not found in local DB" }
  | some row =>
    let intact := SignatureRepository.verifyIntegrity mac key db signatureId
    let v : VerificationResult :=
      { localRecordExists := true
        integrityHmacOk := intact
        errorDetail :=
          if intact then none else some "Local record integrity HMAC verification failed" }
    if checkLedger then compareLedger client row v else v

/-- `VerificationService::verify_signature`. -/
def verifySignature (mac : Hmac) (key : Bytes) (db : Db) (client : Option LedgerClient)
    (signatureId : String) (checkLedger : Bool) : VerificationResult :=
  if signatureId = "" then { errorDetail := "signature_id must not be empty" }
  else verify mac key db client signatureId checkLedger

variable {mac : Hmac} {key : Bytes} {db db₁ db₂ : Db} {client client' : LedgerClient}
  {id outboxId : String} {nowTicks blockNumber : Int} {companion : Option Companion}
  {input : SignatureDispatchInput} {rec : SignatureRecord} {entry : LedgerEntry}
  {tx : SignatureLedger.Tx} {r : SignatureRow}

theorem cell_txId {cols : List (Option String)} (hfails : ∀ q, db.fails q = false)
    (hr : db.records.find id = some r) (hcols : SignatureRepository.getById db id = some cols) :
    cell cols 12 = readText r.ledgerTxId := by
  rw [SignatureRepository.getById, Db.select_of_find hfails, hr, Option.map_some,
    Option.some.injEq] at hcols
  subst hcols
  exact SignatureRepository.cell_mapIdx_column (i := 12) _ (by decide)

/-- Where the ledger has nothing under the identifier of the transaction, nothing is compared. -/
theorem verify_of_txId (hfails : ∀ q, db.fails q = false) (hr : db.records.find id = some r)
    (hmiss : client.getRecord (readText r.ledgerTxId) = none) :
    (verify mac key db (some client) id true).localRecordExists = true ∧
    (verify mac key db (some client) id true).integrityHmacOk =
      SignatureRepository.verifyIntegrity mac key db id ∧
    (verify mac key db (some client) id true).ledgerRecordExists = false := by
  obtain ⟨cols, hcols⟩ : ∃ cols, SignatureRepository.getById db id = some cols := by
    rw [SignatureRepository.getById, Db.select_of_find hfails, hr]
    exact ⟨_, rfl⟩
  have hcell := cell_txId hfails hr hcols
  simp only [verify, hcols, if_true, compareLedger, hcell]
  by_cases hempty : readText r.ledgerTxId = ""
  · simp only [if_pos hempty, and_self]
  · simp only [if_neg hempty, hmiss, and_self]

theorem getRecord_of_notMem {st : SignatureLedger.State} {k : String}
    (hworld : client.world = .ok st) (hk : st k = none) : client.getRecord k = none := by
  simp only [LedgerClient.getRecord, hworld, SignatureLedger.getRecord, hk]

/-- A record is stored under its own identifier and under no other. -/
theorem getRecord_submitRecord_of_ne {st : SignatureLedger.State} {k : String}
    (h : client.submitRecord tx blockNumber rec = (some entry, client'))
    (hworld : client.world = .ok st) (hk : st k = none) (hne : k ≠ rec.recordId) :
    client'.getRecord k = none := by
  simp only [LedgerClient.submitRecord, hworld, Prod.mk.injEq] at h
  obtain ⟨-, rfl⟩ := h
  refine getRecord_of_notMem rfl ?_
  simp only [SignatureLedger.recordSignature, SignatureLedger.putState]
  rw [Function.update_of_ne hne, hk]

/-- A signature is dispatched with an integrity key, anchored and updated with the ledger's answer,
and nothing fails. Transaction identifiers have no null character, and the ledger holds nothing
under the transaction's. Then the row verifies and the ledger holds the record, but the service
does not find it. -/
theorem not_confirmed_of_anchored (hkey : key ≠ []) (hfails : ∀ q, db.fails q = false)
    (hid : id ≠ "")
    (hdispatch : SignatureDispatcher.dispatch mac key true id outboxId nowTicks companion input db =
      (true, some rec, db₁))
    {st : SignatureLedger.State} (hworld : client.world = .ok st)
    (hsubmit : client.submitRecord tx blockNumber rec = (some entry, client'))
    (hupdate : SignatureRepository.updateLedgerFields mac key db₁ id entry = (true, db₂))
    (htext : '\x00' ∉ tx.id.toList) (hne : tx.id ≠ id) (htx : st tx.id = none) :
    (verifySignature mac key db₂ (some client') id true).integrityHmacOk = true ∧
    (∃ found, client'.getRecord id = some found ∧
      found.payloadDigest = input.signResult.payloadDigest ∧
      found.signatureB64 = base64Encode input.signResult.signature ∧
      found.keyFingerprint = input.keyFingerprint) ∧
    (verifySignature mac key db₂ (some client') id true).ledgerRecordExists = false ∧
    ¬ (verifySignature mac key db₂ (some client') id true).Confirmed := by
  obtain ⟨rfl, hsame, hmac, hrow⟩ := SignatureDispatcher.find_dispatch hdispatch
  have hfails₁ : ∀ q, db₁.fails q = false := fun q => hsame ▸ hfails q
  obtain ⟨db', hdb', hfails₂, hfind⟩ := @SignatureRepository.find_updateLedgerFields mac key db₁ id _
    hkey hfails₁ hrow entry
  obtain rfl : db₂ = db' := (Prod.mk.inj (hupdate.symm.trans hdb')).2
  obtain ⟨hentry, found, hfound, hdigest, hsig, hfingerprint, -⟩ :=
    LedgerClient.getRecord_submitRecord hsubmit
  have hmiss : client'.getRecord (readText entry.txId) = none := by
    rw [hentry, readText_eq_self htext]
    exact getRecord_submitRecord_of_ne hsubmit hworld htx hne
  -- The hash was brought up to date after the ledger's fields were written.
  have hintact : SignatureRepository.verifyIntegrity mac key db₂ id = true := by
    rw [SignatureRepository.verifyIntegrity, Db.select_of_find hfails₂, hfind, Option.elim_some,
      SignatureRow.columns_withHmac]
    refine (RowIntegrity.verifyHmac_iff hkey).mpr ?_
    exact readText_eq_self (mac.notMem_hex _ _)
  obtain ⟨-, hhmac, hexists⟩ := @verify_of_txId mac key db₂ client' id _ hfails₂ hfind hmiss
  rw [verifySignature, if_neg hid]
  refine ⟨hhmac.trans hintact, ⟨found, hfound, hdigest, hsig, hfingerprint⟩, hexists, ?_⟩
  intro hconfirmed
  rw [hconfirmed.2.1] at hexists
  cases hexists

/-- A signature of one byte. -/
def oneByte : SignatureDispatchInput where
  signResult :=
    { signature := [1], mechanismStr := "CKM_ECDSA", digestAlg := "SHA-256", payloadDigest := "00"
      payloadSize := 1 }
  createdAt := 1
  slotId := 0
  tokenLabel := [116]
  keyId := "k"
  keyFingerprint := "f"
  mechanism := "CKM_ECDSA"
  digestAlgorithm := "SHA-256"
  sessionHandle := "1"

/-- It is dispatched, anchored and updated; its row verifies and its record is on the ledger. -/
theorem oneByte_anchored :
    ∃ rec db₁ entry client' db₂,
      SignatureDispatcher.dispatch .toy [1] true "r" "o" 0 none oneByte ⟨.empty, .empty, fun _ => false⟩ =
        (true, some rec, db₁) ∧
      LedgerClient.submitRecord ⟨.ok fun _ => none⟩ { id := "t" } 7 rec = (some entry, client') ∧
      SignatureRepository.updateLedgerFields .toy [1] db₁ "r" entry = (true, db₂) ∧
      (verifySignature .toy [1] db₂ (some client') "r" true).integrityHmacOk = true ∧
      ∃ found, client'.getRecord "r" = some found ∧ found.payloadDigest = "00" := by
  have hrun := @not_confirmed_of_anchored .toy [1] ⟨.empty, .empty, fun _ => false⟩ _ _
    ⟨.ok fun _ => none⟩ _ "r" "o" 0 7 none oneByte _ _ { id := "t" } (by decide) (fun _ => rfl)
    (by decide) rfl (fun _ => none) rfl rfl rfl (by decide) (by decide) rfl
  obtain ⟨hhmac, ⟨found, hfound, hdigest, -⟩, -⟩ := hrun
  exact ⟨_, _, _, _, _, rfl, rfl, rfl, hhmac, found, hfound, hdigest⟩

/-- The service does not find it on the ledger. -/
theorem not_confirmed_oneByte :
    ∃ rec db₁ entry client' db₂,
      SignatureDispatcher.dispatch .toy [1] true "r" "o" 0 none oneByte ⟨.empty, .empty, fun _ => false⟩ =
        (true, some rec, db₁) ∧
      LedgerClient.submitRecord ⟨.ok fun _ => none⟩ { id := "t" } 7 rec = (some entry, client') ∧
      SignatureRepository.updateLedgerFields .toy [1] db₁ "r" entry = (true, db₂) ∧
      ¬ (verifySignature .toy [1] db₂ (some client') "r" true).Confirmed := by
  refine ⟨_, _, _, _, _, rfl, rfl, rfl, fun hconfirmed => ?_⟩
  have hexists := hconfirmed.2.1
  revert hexists
  decide +kernel

end VerificationService

end VirtualHsm
