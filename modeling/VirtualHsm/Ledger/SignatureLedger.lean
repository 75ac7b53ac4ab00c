import Mathlib.Logic.Function.Basic
import VirtualHsm.Domain.KeyPolicy

/-!
# The signature ledger contract

The chaincode that anchors signatures and audit tails and keeps policies and attestations. The
world state maps keys to JSON documents. A document is read back with the type that the caller
expects, whatever was written: nothing keeps a record identifier from looking like the key of a
policy.
-/

namespace VirtualHsm.SignatureLedger

/-! ### Documents -/

structure SignatureRecord where
  recordId : String := ""
  keyFingerprint : String := ""
  payloadDigest : String := ""
  signatureB64 : String := ""
  createdAt : Int := 0
  txId : String := ""
  blockNumber : Int := 0
  submitter : String := ""
  pqcAlgo : String := ""
  signaturePqcB64 : String := ""
  keyFingerprintPqc : String := ""
  deriving DecidableEq, Repr

structure AuditTail where
  seq : Int := 0
  tailHash : String := ""
  timestamp : String := ""
  submitter : String := ""
  deriving DecidableEq, Repr

structure Attestation where
  keyId : String
  signer : String
  attestationType : String
  signature : String
  submittedAt : Int
  deriving DecidableEq, Repr

/-- What the contract writes. -/
inductive Value
  | record (r : SignatureRecord)
  | policy (p : KeyPolicy)
  /-- Never empty, so that it is an array and not `null`. -/
  | attestations (atts : List Attestation)
  | auditTail (t : AuditTail)
  deriving DecidableEq, Repr

namespace Value

/-- An object is read field by field: fields that are missing stay zero. Records and audit tails
share the submitter, policies share nothing with either. An array is no object. -/
def asRecord : Value → Option SignatureRecord
  | record r => some r
  | policy _ => some {}
  | attestations _ => none
  | auditTail t => some { submitter := t.submitter }

def asPolicy : Value → Option KeyPolicy
  | record _ => some {}
  | policy p => some p
  | attestations _ => none
  | auditTail _ => some {}

def asAuditTail : Value → Option AuditTail
  | record r => some { submitter := r.submitter }
  | policy _ => some {}
  | attestations _ => none
  | auditTail t => some t

def asAttestations : Value → Option (List Attestation)
  | attestations atts => some atts
  | _ => none

end Value

/-- The world state. -/
abbrev State := String → Option Value

/-- The transaction as the contract sees it: its identifier, its time stamp in seconds and the
identity of the client; the last two may be unavailable. -/
structure Tx where
  id : String
  timestamp : Option Int := none
  client : Option String := none
  deriving DecidableEq, Repr

/-- `clientID`: an empty identity counts as unavailable. -/
def clientID (tx : Tx) : Except String String :=
  match tx.client.filter (· ≠ "") with
  | some id => .ok id
  | none =>
    .error ("client identity unavailable: transaction must be submitted over an authenticated " ++
      "channel")

def putState (st : State) (key : String) (v : Value) : State := Function.update st key (some v)

/-! ### Records -/

def getRecord (st : State) (recordId : String) : Except String SignatureRecord :=
  match st recordId with
  | none => .error ("signature record '" ++ recordId ++ "' does not exist")
  | some v =>
    match v.asRecord with
    | some r => .ok r
    | none => .error "failed to unmarshal signature record"

/-- `RecordSignature`. `createdAt` is the number in its argument, if there is one. A record that
exists is overwritten, but keeps its time of creation. -/
def recordSignature (tx : Tx) (recordId keyFingerprint payloadDigest signatureB64 : String)
    (createdAt : Option Int) (pqcAlgo signaturePqcB64 keyFingerprintPqc : String) (st : State) :
    State :=
  let given := createdAt.getD (tx.timestamp.getD 0)
  let created :=
    match getRecord st recordId with
    -- Whatever is stored under the identifier is read as a record here.
    | .ok existing => if existing.createdAt ≠ 0 then existing.createdAt else given
    | .error _ => given
  putState st recordId
    (.record
      { recordId, keyFingerprint, payloadDigest, signatureB64
        createdAt := created
        txId := tx.id
        blockNumber := 0
        submitter := tx.client.getD ""
        pqcAlgo, signaturePqcB64, keyFingerprintPqc })

/-! ### Audit tails -/

def auditTailLatestKey : String := "audittail:latest"

def auditTailSeqKey (seq : Int) : String := "audittail:seq:" ++ toString seq

/-- `RecordAuditTail`. `seq` is the number in its argument, if there is one. -/
def recordAuditTail (tx : Tx) (tailHash : String) (seq : Option Int) (timestamp : String)
    (st : State) : State :=
  let submitter := match clientID tx with | .ok id => id | .error _ => ""
  let tail : Value := .auditTail { seq := seq.getD 0, tailHash, timestamp, submitter }
  putState (putState st (auditTailSeqKey (seq.getD 0)) tail) auditTailLatestKey tail

def getLatestAuditTail (st : State) : Except String AuditTail :=
  match st auditTailLatestKey with
  | none => .error "no audit tail has been anchored yet"
  | some v =>
    match v.asAuditTail with
    | some t => .ok t
    | none => .error "failed to unmarshal audit tail"

/-! ### Policies and attestations -/

def policyKey (keyId : String) : String := "policy:" ++ keyId

def attsKey (keyId : String) : String := "atts:" ++ keyId

/-- `getPolicy`: a key without a policy is no error. -/
def getPolicy (st : State) (keyId : String) : Except String (Option KeyPolicy) :=
  match st (policyKey keyId) with
  | none => .ok none
  | some v =>
    match v.asPolicy with
    | some p => .ok (some p)
    | none => .error "failed to unmarshal policy"

/-- `PublishKey`. `policy` is what the decoder makes of the document. -/
def publishKey (tx : Tx) (keyId : String) (policy : Option KeyPolicy) (st : State) :
    Except String State := do
  let _ ← clientID tx
  match policy with
  | none => .error "invalid policy JSON"
  | some p => return putState st (policyKey keyId) (.policy p)

def getAttestations (st : State) (keyId : String) : Except String (List Attestation) :=
  match st (attsKey keyId) with
  | none => .ok []
  | some v =>
    match v.asAttestations with
    | some atts => .ok atts
    | none => .error "failed to unmarshal attestations"

/-- The attestations as the callers of `getAttestations` use them: an error reads as none. -/
def attestationsOf (st : State) (keyId : String) : List Attestation :=
  match getAttestations st keyId with
  | .ok atts => atts
  | .error _ => []

/-- `SubmitAttestation`. A second attestation of one type by the same signer writes the list back
as it was: the refreshed entry is a copy. -/
def submitAttestation (tx : Tx) (keyId attestationType signature : String) (st : State) :
    Except String State := do
  let signer ← clientID tx
  let policy ← getPolicy st keyId
  if ¬ KeyPolicy.Listed ((policy.map (·.allowedSigners)).getD []) signer then
    .error ("signer " ++ signer ++ " is not authorized to attest key " ++ keyId)
  else
    let atts := attestationsOf st keyId
    -- The same signer may attest once under each type.
    if atts.any fun a => a.signer = signer && a.attestationType = attestationType then
      return putState st (attsKey keyId) (.attestations atts)
    else
      return putState st (attsKey keyId) (.attestations (atts ++
        [{ keyId, signer, attestationType, signature, submittedAt := tx.timestamp.getD 0 }]))

/-- `evaluatePolicy`: the answer with its reason. -/
def evaluatePolicy (p : KeyPolicy) (actor mechanism : String) (nowMs : Int) (attCount : Nat) :
    Bool × String :=
  if p.notBeforeMs ≠ 0 ∧ nowMs < p.notBeforeMs then (false, "signing not yet active")
  else if p.notAfterMs ≠ 0 ∧ p.notAfterMs < nowMs then (false, "signing window expired")
  else if ¬ p.MechanismOk mechanism then (false, "mechanism " ++ mechanism ++ " not permitted")
  else if ¬ p.SignerOk actor then (false, "actor " ++ actor ++ " not authorized")
  -- Attestations are counted, not signers.
  else if (attCount : Int) < p.minAttestations then
    (false, "insufficient attestations (" ++ toString attCount ++ " < " ++
      toString p.minAttestations ++ " required)")
  else (true, "ok")

/-- `VerifyPolicy`. -/
def verifyPolicy (st : State) (keyId actor mechanism : String) (nowMs : Int) :
    Except String (Bool × String) := do
  match ← getPolicy st keyId with
  -- A key that nobody has published a policy for is not restricted.
  | none => return (true, "no policy published")
  | some p => return evaluatePolicy p actor mechanism nowMs (attestationsOf st keyId).length

/-! ### All transactions -/

inductive Call
  | recordSignature (recordId keyFingerprint payloadDigest signatureB64 : String)
      (createdAt : Option Int) (pqcAlgo signaturePqcB64 keyFingerprintPqc : String)
  | recordAuditTail (tailHash : String) (seq : Option Int) (timestamp : String)
  | publishKey (keyId : String) (policy : Option KeyPolicy)
  | submitAttestation (keyId attestationType signature : String)

/-- One transaction; its error leaves the world state as it was. -/
def submit (st : State) (tx : Tx) : Call → Except String State
  | .recordSignature recordId fingerprint digest sig createdAt pqcAlgo sigPqc fingerprintPqc =>
    .ok (recordSignature tx recordId fingerprint digest sig createdAt pqcAlgo sigPqc
      fingerprintPqc st)
  | .recordAuditTail tailHash seq timestamp => .ok (recordAuditTail tx tailHash seq timestamp st)
  | .publishKey keyId policy => publishKey tx keyId policy st
  | .submitAttestation keyId type signature => submitAttestation tx keyId type signature st

/-- One transaction as a step. -/
def step (st : State) (a : Tx × Call) : Except String Unit × State :=
  match submit st a.1 a.2 with
  | .ok st' => (.ok (), st')
  | .error e => (.error e, st)

/-! ### What a transaction writes -/

/-- The effect of a transaction that succeeds. -/
inductive Writes (st : State) (tx : Tx) : Call → State → Prop
  | record (r fingerprint digest sig : String) (createdAt : Option Int)
      (pqcAlgo sigPqc fingerprintPqc : String) (rec : SignatureRecord) :
      Writes st tx
        (.recordSignature r fingerprint digest sig createdAt pqcAlgo sigPqc fingerprintPqc)
        (putState st r (.record rec))
  | auditTail (tailHash : String) (seq : Option Int) (timestamp : String) (t : AuditTail) :
      Writes st tx (.recordAuditTail tailHash seq timestamp)
        (putState (putState st (auditTailSeqKey (seq.getD 0)) (.auditTail t)) auditTailLatestKey
          (.auditTail t))
  | policy (keyId : String) (p : KeyPolicy) (client : String) (hclient : clientID tx = .ok client) :
      Writes st tx (.publishKey keyId (some p)) (putState st (policyKey keyId) (.policy p))
  | attested (keyId type signature signer : String) (hclient : clientID tx = .ok signer) :
      Writes st tx (.submitAttestation keyId type signature)
        (putState st (attsKey keyId) (.attestations (attestationsOf st keyId)))
  | attests (keyId type signature signer : String) (published : Option KeyPolicy)
      (hclient : clientID tx = .ok signer) (hpolicy : getPolicy st keyId = .ok published)
      (hlisted : KeyPolicy.Listed ((published.map (·.allowedSigners)).getD []) signer)
      (hnew : ∀ a ∈ attestationsOf st keyId, a.signer = signer → a.attestationType ≠ type) :
      Writes st tx (.submitAttestation keyId type signature)
        (putState st (attsKey keyId) (.attestations (attestationsOf st keyId ++
          [⟨keyId, signer, type, signature, tx.timestamp.getD 0⟩])))

theorem submit_writes {st st' : State} {tx : Tx} {call : Call}
    (h : submit st tx call = .ok st') : Writes st tx call st' := by
  cases call with
  | recordSignature =>
    cases h
    exact .record ..
  | recordAuditTail =>
    cases h
    exact .auditTail ..
  | publishKey keyId policy =>
    simp only [submit, publishKey] at h
    cases hclient : clientID tx with
    | error e => simp [hclient, bind, Except.bind] at h
    | ok client =>
      cases policy with
      | none => simp [hclient, bind, Except.bind] at h
      | some p =>
        simp only [hclient, bind, Except.bind, pure, Except.pure, Except.ok.injEq] at h
        exact h ▸ .policy keyId p client hclient
  | submitAttestation keyId type signature =>
    simp only [submit, submitAttestation] at h
    cases hclient : clientID tx with
    | error e => simp [hclient, bind, Except.bind] at h
    | ok client =>
      cases hpolicy : getPolicy st keyId with
      | error e => simp [hclient, hpolicy, bind, Except.bind] at h
      | ok policy =>
        simp only [hclient, hpolicy, bind, Except.bind, pure, Except.pure] at h
        split_ifs at h with hlisted hany
        · rw [← Except.ok.inj h]
          exact .attested keyId type signature client hclient
        · rw [← Except.ok.inj h]
          refine .attests keyId type signature client policy hclient hpolicy hlisted ?_
          intro a ha hsigner htype
          apply hany
          rw [List.any_eq_true]
          exact ⟨a, ha, by simp [hsigner, htype]⟩

/-! ### Evaluation -/

variable {st : State} {p : KeyPolicy} {keyId actor mechanism : String} {nowMs : Int} {n : Nat}

theorem evaluatePolicy_iff :
    (evaluatePolicy p actor mechanism nowMs n).1 = true ↔ p.Admits actor mechanism nowMs n := by
  unfold evaluatePolicy
  constructor
  · intro hok
    split_ifs at hok with hbefore hafter hmech hsigner hquorum
    exact ⟨⟨hbefore, hafter⟩, hmech, hsigner, Int.not_lt.mp hquorum⟩
  · intro hadmits
    rw [if_neg hadmits.window.1, if_neg hadmits.window.2, if_neg (not_not.mpr hadmits.mechanism),
      if_neg (not_not.mpr hadmits.signer), if_neg (Int.not_lt.mpr hadmits.quorum)]

/-- The answer of the contract is positive: the policy that is read for the key, if any, admits
the request. -/
def Verified (st : State) (keyId actor mechanism : String) (nowMs : Int) : Prop :=
  ∃ published, getPolicy st keyId = .ok published ∧
    ∀ q ∈ published, q.Admits actor mechanism nowMs (attestationsOf st keyId).length

theorem verifyPolicy_iff :
    (∃ reason, verifyPolicy st keyId actor mechanism nowMs = .ok (true, reason)) ↔
      Verified st keyId actor mechanism nowMs := by
  unfold verifyPolicy Verified
  cases hget : getPolicy st keyId with
  | error e =>
    constructor
    · rintro ⟨reason, h⟩
      cases h
    · rintro ⟨published, h, -⟩
      cases h
  | ok published =>
    cases published with
    | none =>
      refine iff_of_true ⟨_, rfl⟩ ⟨none, rfl, ?_⟩
      intro q hq
      cases hq
    | some q =>
      have hpair (b : Bool × String) :
          (∃ reason, (Except.ok b : Except String (Bool × String)) = .ok (true, reason)) ↔
            b.1 = true := by
        obtain ⟨ok, text⟩ := b
        simp [Except.ok.injEq]
      refine (hpair _).trans (evaluatePolicy_iff.trans ?_)
      constructor
      · intro hadmits
        refine ⟨some q, rfl, fun q' hq' => ?_⟩
        rw [Option.mem_some_iff.mp hq'] at hadmits
        exact hadmits
      · rintro ⟨published, hsome, hall⟩
        cases hsome
        exact hall q rfl

/-! ### Reading back -/

theorem getRecord_recordSignature (st : State) (tx : Tx) (recordId fingerprint digest sig : String)
    (createdAt : Option Int) (pqcAlgo sigPqc fingerprintPqc : String) :
    ∃ r, getRecord (recordSignature tx recordId fingerprint digest sig createdAt pqcAlgo sigPqc
        fingerprintPqc st) recordId = .ok r ∧
      r.recordId = recordId ∧ r.keyFingerprint = fingerprint ∧ r.payloadDigest = digest ∧
      r.signatureB64 = sig ∧ r.txId = tx.id := by
  simp only [getRecord, recordSignature, putState, Function.update_self, Value.asRecord]
  exact ⟨_, rfl, rfl, rfl, rfl, rfl, rfl⟩

end VirtualHsm.SignatureLedger
