import VirtualHsm.SignatureStore.LedgerRetryQueue

/-!
# What a replayed record anchors

A signature reaches the ledger on one of two ways: the dispatcher hands a record to the worker as
soon as the row is written, and after a crash the retry queue reads the record back from the row.
The two records should make the same transaction.

The query of the retry queue does not name the columns of the companion signature, so a record that
has one is replayed without it, and the transaction overwrites what the ledger has.
-/

namespace VirtualHsm

/-- The arguments that `submit_record` sends. -/
def LedgerClient.submitArgs (rec : SignatureRecord) : List String :=
  [rec.recordId, rec.keyFingerprint, rec.payloadDigest, rec.signatureB64, toString rec.createdAt,
   rec.pqcAlgo, rec.signaturePqcB64.getD "", rec.keyFingerprintPqc.getD ""]

/-- The world state that `submit_record` leaves. -/
def LedgerClient.anchor (tx : SignatureLedger.Tx) (rec : SignatureRecord)
    (st : SignatureLedger.State) : SignatureLedger.State :=
  SignatureLedger.recordSignature tx rec.recordId rec.keyFingerprint rec.payloadDigest
    rec.signatureB64 (some rec.createdAt) rec.pqcAlgo (rec.signaturePqcB64.getD "")
    (rec.keyFingerprintPqc.getD "") st

theorem LedgerClient.world_submitRecord {c : LedgerClient} {st : SignatureLedger.State}
    (h : c.world = .ok st) (tx : SignatureLedger.Tx) (blockNumber : Int) (rec : SignatureRecord) :
    (c.submitRecord tx blockNumber rec).2.world = .ok (anchor tx rec st) := by
  rw [submitRecord, h]
  rfl

namespace LedgerRetryQueue

/-- The documents are the same up to the transaction and its submitter. -/
def SameOnLedger (d d' : SignatureLedger.SignatureRecord) : Prop :=
  { d' with txId := d.txId, submitter := d.submitter } = d

/-- The record that is loaded for an identifier makes the transaction that the submitted record
makes; what it leaves on the ledger is the same, whether it gets there first or second. -/
structure ReplayedAlike (db : Db) (id : String) (rec : SignatureRecord) : Prop where
  args : ∃ r, db.records.find id = some r ∧ recordOf r ∈ loadPendingRecords false db ∧
    LedgerClient.submitArgs (recordOf r) = LedgerClient.submitArgs rec
  content : ∀ r, db.records.find id = some r → ∀ st tx tx' d d',
    SignatureLedger.getRecord (LedgerClient.anchor tx rec st) id = .ok d →
    (SignatureLedger.getRecord (LedgerClient.anchor tx' (recordOf r) st) id = .ok d' ∨
      SignatureLedger.getRecord
        (LedgerClient.anchor tx' (recordOf r) (LedgerClient.anchor tx rec st)) id = .ok d') →
    SameOnLedger d d'

/-- The document of a record, with the time of creation that the ledger keeps for it. -/
def document (tx : SignatureLedger.Tx) (rec : SignatureRecord) (createdAt : Int) :
    SignatureLedger.SignatureRecord where
  recordId := rec.recordId
  keyFingerprint := rec.keyFingerprint
  payloadDigest := rec.payloadDigest
  signatureB64 := rec.signatureB64
  createdAt := createdAt
  txId := tx.id
  submitter := tx.client.getD ""
  pqcAlgo := rec.pqcAlgo
  signaturePqcB64 := rec.signaturePqcB64.getD ""
  keyFingerprintPqc := rec.keyFingerprintPqc.getD ""

section Anchored

variable {rec : SignatureRecord} {st : SignatureLedger.State}

/-- A document that is there already keeps its time of creation, unless that is zero. -/
theorem getRecord_anchor (tx : SignatureLedger.Tx) :
    SignatureLedger.getRecord (LedgerClient.anchor tx rec st) rec.recordId =
      .ok (document tx rec
        (match SignatureLedger.getRecord st rec.recordId with
          | .ok old => if old.createdAt ≠ 0 then old.createdAt else rec.createdAt
          | .error _ => rec.createdAt)) := by
  rw [LedgerClient.anchor, SignatureLedger.recordSignature]
  conv_lhs => rw [SignatureLedger.getRecord, SignatureLedger.putState, Function.update_self]
  rfl

/-- The time of creation does not depend on the transaction, and a second one keeps it. -/
theorem exists_document (rec : SignatureRecord) (st : SignatureLedger.State) :
    ∃ createdAt, ∀ tx,
      SignatureLedger.getRecord (LedgerClient.anchor tx rec st) rec.recordId =
        .ok (document tx rec createdAt) ∧
      ∀ tx', SignatureLedger.getRecord
          (LedgerClient.anchor tx' rec (LedgerClient.anchor tx rec st)) rec.recordId =
        .ok (document tx' rec createdAt) := by
  -- The second transaction finds what the first one wrote.
  refine ⟨_, fun tx => ⟨getRecord_anchor tx, fun tx' => ?_⟩⟩
  rw [getRecord_anchor, getRecord_anchor]
  cases SignatureLedger.getRecord st rec.recordId with
  | error e => exact congrArg (fun c => Except.ok (document tx' rec c)) (ite_self rec.createdAt)
  | ok old =>
    by_cases hold : old.createdAt ≠ 0
    · simp [document, hold]
    · simp [document, hold]

end Anchored

section Dispatched

open SignatureDispatcher

variable {mac : Hmac} {key : Bytes} {rnd : Fin 16 → UInt8} {outboxId : String} {nowTicks : Int}
  {companion : Option Companion} {input : SignatureDispatchInput} {db db₁ db₂ : Db}
  {rec : SignatureRecord}

theorem recordOf_row (id hmac : String) (companion : Option Companion)
    (input : SignatureDispatchInput) :
    recordOf ((row id companion input).withHmac hmac) =
      { recordId := readText id
        createdAt := input.createdAt
        keyFingerprint := readText input.keyFingerprint
        payloadDigest := readText input.signResult.payloadDigest
        signatureB64 := base64Encode input.signResult.signature } := by
  have hsig := readText_eq_self (notMem_base64Encode input.signResult.signature)
  simp only [recordOf, SignatureRow.withHmac, row, hsig]

/-- A signature is dispatched and its record handed to the ledger worker; when the retry queue reads
the table, the row is as it was written. Then the record that it loads anchors the same content
exactly when there is no companion signature and the hashes have no null characters. -/
theorem replayedAlike_iff
    (hdispatch : dispatch mac key true (uuidV4 rnd) outboxId nowTicks companion input db =
      (true, some rec, db₁))
    (hrow : db₂.records.find (uuidV4 rnd) = db₁.records.find (uuidV4 rnd)) :
    ReplayedAlike db₂ (uuidV4 rnd) rec ↔
      companion = none ∧ '\x00' ∉ input.keyFingerprint.toList ∧
        '\x00' ∉ input.signResult.payloadDigest.toList := by
  obtain ⟨rfl, -, hmac, hfind⟩ := find_dispatch hdispatch
  rw [hfind] at hrow
  have hrecord := recordOf_row (uuidV4 rnd) hmac companion input
  rw [readText_eq_self (notMem_uuidV4 rnd)] at hrecord
  constructor
  · rintro ⟨⟨r, hr, -, hargs⟩, -⟩
    obtain rfl := Option.mem_unique hrow hr
    rw [hrecord] at hargs
    simp only [LedgerClient.submitArgs, record, row, List.cons.injEq] at hargs
    obtain ⟨-, hfingerprint, hdigest, -, -, halgo, -⟩ := hargs
    refine ⟨?_, readText_eq_self_iff.mp hfingerprint, readText_eq_self_iff.mp hdigest⟩
    cases companion with
    | none => rfl
    | some c =>
      -- The record names the algorithm of its companion, and the queue loads none.
      rw [Option.isSome_some, if_pos rfl] at halgo
      exact absurd halgo (by decide)
  · rintro ⟨rfl, hfingerprint, hdigest⟩
    -- The record is read back as it was.
    rw [readText_eq_self hfingerprint, readText_eq_self hdigest] at hrecord
    have hsame : recordOf ((row (uuidV4 rnd) none input).withHmac hmac) =
        record (row (uuidV4 rnd) none input) := hrecord
    have hmem := (CS.KeyedTable.find_eq_some_iff.mp hrow).1
    constructor
    · refine ⟨_, hrow, ?_, congrArg _ hsame⟩
      exact List.mem_map_of_mem (List.mem_filter.mpr ⟨hmem, rfl⟩)
    · intro r hr st tx tx' d d' hd hd'
      obtain rfl := Option.mem_unique hrow hr
      rw [hsame] at hd'
      obtain ⟨createdAt, hdocument⟩ :=
        exists_document (record (row (uuidV4 rnd) none input)) st
      obtain rfl := Except.ok.inj ((hdocument tx).1.symm.trans hd)
      rcases hd' with hfirst | hsecond
      · obtain rfl := Except.ok.inj ((hdocument tx').1.symm.trans hfirst)
        rfl
      · obtain rfl := Except.ok.inj (((hdocument tx).2 tx').symm.trans hsecond)
        rfl

/-- A signature without companion. -/
theorem replayedAlike_plain : ∃ rec db',
    dispatch .toy [1] true (uuidV4 fun _ => 0) "e" 0 none someInput
      { records := CS.KeyedTable.empty } = (true, some rec, db') ∧
    ReplayedAlike db' (uuidV4 fun _ => 0) rec :=
  ⟨_, _, rfl, (@replayedAlike_iff .toy [1] (fun _ => 0) "e" 0 none someInput
    { records := CS.KeyedTable.empty } _ _ _ rfl rfl).mpr ⟨rfl, by decide, by decide⟩⟩

/-- A signature with a companion is loaded without it. -/
theorem not_replayedAlike_companion : ∃ rec db',
    dispatch .toy [1] true (uuidV4 fun _ => 0) "e" 0 (some ⟨[1], some [2]⟩) someInput
      { records := CS.KeyedTable.empty } = (true, some rec, db') ∧
    ¬ ReplayedAlike db' (uuidV4 fun _ => 0) rec := by
  refine ⟨_, _, rfl, ?_⟩
  rintro ⟨⟨r, hr, -, hargs⟩, -⟩
  cases hr
  revert hargs
  decide +kernel

end Dispatched

end LedgerRetryQueue

end VirtualHsm
