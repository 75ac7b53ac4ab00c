import VirtualHsm.Ledger.SignatureLedger
import VirtualHsm.SignatureStore.Record

/-!
# The ledger client

The module's side of the ledger. Calls go through a gateway to the signature ledger contract; a
gateway that fails and a contract that returns an error both read as no answer.
-/

namespace VirtualHsm

structure LedgerEntry where
  recordId : String
  keyFingerprint : String
  payloadDigest : String
  signatureB64 : String
  createdAt : Int
  txId : String
  blockNumber : Int
  deriving DecidableEq, Repr

structure LedgerClient where
  /-- The world state behind the gateway, or why it cannot be reached. -/
  world : Except String SignatureLedger.State

/-- The answer to a policy check. -/
structure PolicyVerification where
  ok : Bool
  reason : String
  deriving DecidableEq, Repr

namespace LedgerClient

variable (c : LedgerClient)

/-- `LedgerClient::submit_record`: the entry that is handed back has the transaction's own
identifier and its block. -/
def submitRecord (tx : SignatureLedger.Tx) (blockNumber : Int) (rec : SignatureRecord) :
    Option LedgerEntry × LedgerClient :=
  match c.world with
  | .error _ => (none, c)
  | .ok st =>
    (some { recordId := rec.recordId
            keyFingerprint := rec.keyFingerprint
            payloadDigest := rec.payloadDigest
            signatureB64 := rec.signatureB64
            createdAt := rec.createdAt
            txId := tx.id
            blockNumber },
      { world := .ok (SignatureLedger.recordSignature tx rec.recordId rec.keyFingerprint
          rec.payloadDigest rec.signatureB64 (some rec.createdAt) rec.pqcAlgo
          (rec.signaturePqcB64.getD "") (rec.keyFingerprintPqc.getD "") st) })

/-- `LedgerClient::get_record`. -/
def getRecord (recordId : String) : Option LedgerEntry :=
  match c.world with
  | .error _ => none
  | .ok st =>
    match SignatureLedger.getRecord st recordId with
    | .error _ => none
    | .ok r =>
      some { recordId := r.recordId
             keyFingerprint := r.keyFingerprint
             payloadDigest := r.payloadDigest
             signatureB64 := r.signatureB64
             createdAt := r.createdAt
             txId := r.txId
             blockNumber := r.blockNumber }

/-- `LedgerClient::verify_policy`. -/
def verifyPolicy (keyId actor mechanism : String) (nowMs : Int) : PolicyVerification :=
  match c.world with
  | .error e => ⟨false, "ledger policy evaluation failed: " ++ e⟩
  | .ok st =>
    match SignatureLedger.verifyPolicy st keyId actor mechanism nowMs with
    -- The contract's message is lost on the way.
    | .error _ => ⟨false, "ledger returned status 500"⟩
    | .ok (ok, reason) => ⟨ok, reason⟩

/-- `LedgerClient::get_latest_audit_tail_hash`: an empty hash counts as none. -/
def getLatestAuditTailHash : Option String :=
  match c.world with
  | .error _ => none
  | .ok st =>
    match SignatureLedger.getLatestAuditTail st with
    | .error _ => none
    | .ok t => if t.tailHash = "" then none else some t.tailHash

variable {c} {keyId actor mechanism : String} {nowMs : Int}

theorem verifyPolicy_ok_iff :
    (c.verifyPolicy keyId actor mechanism nowMs).ok = true ↔
      ∃ st, c.world = .ok st ∧ SignatureLedger.Verified st keyId actor mechanism nowMs := by
  unfold verifyPolicy
  cases hworld : c.world with
  | error e => simp
  | ok st =>
    have hverified : (∃ st', (Except.ok st : Except String SignatureLedger.State) = .ok st' ∧
        SignatureLedger.Verified st' keyId actor mechanism nowMs) ↔
        SignatureLedger.Verified st keyId actor mechanism nowMs := by
      simp
    rw [hverified, ← SignatureLedger.verifyPolicy_iff]
    cases hanswer : SignatureLedger.verifyPolicy st keyId actor mechanism nowMs with
    | error e => simp [hanswer]
    | ok answer =>
      obtain ⟨ok, reason⟩ := answer
      simp [hanswer]

/-- What is submitted is read back under its own identifier, with the identifier of the
transaction. -/
theorem getRecord_submitRecord {c' : LedgerClient} {tx : SignatureLedger.Tx} {blockNumber : Int}
    {rec : SignatureRecord} {entry : LedgerEntry}
    (h : c.submitRecord tx blockNumber rec = (some entry, c')) :
    entry.txId = tx.id ∧ ∃ found, c'.getRecord rec.recordId = some found ∧
      found.payloadDigest = rec.payloadDigest ∧ found.signatureB64 = rec.signatureB64 ∧
      found.keyFingerprint = rec.keyFingerprint ∧ found.txId = tx.id := by
  unfold submitRecord at h
  cases hworld : c.world with
  | error e => simp [hworld] at h
  | ok st =>
    simp only [hworld, Prod.mk.injEq, Option.some.injEq] at h
    obtain ⟨rfl, rfl⟩ := h
    obtain ⟨r, hr, -, hfingerprint, hdigest, hsig, htx⟩ := SignatureLedger.getRecord_recordSignature
      st tx rec.recordId rec.keyFingerprint rec.payloadDigest rec.signatureB64 (some rec.createdAt)
      rec.pqcAlgo (rec.signaturePqcB64.getD "") (rec.keyFingerprintPqc.getD "")
    refine ⟨rfl, ?_⟩
    simp only [getRecord, hr]
    exact ⟨_, rfl, hdigest, hsig, hfingerprint, htx⟩

end LedgerClient

end VirtualHsm
