import Mathlib.Algebra.Group.Int.Defs
import VirtualHsm.Ledger.SignatureLedger

/-!
# The key space of the signature ledger

Records, policies, attestations and audit tails share one space of keys. A record's key is its
identifier, which the client chooses; the other kinds put a text of their own in front of theirs.
So an identifier that begins like a policy's key names that policy.
-/

namespace VirtualHsm.SignatureLedger

/-! ### Keys -/

theorem policyKey_injective : Function.Injective policyKey := by
  intro k k' h
  exact String.append_right_inj _ |>.mp h

theorem attsKey_injective : Function.Injective attsKey := by
  intro k k' h
  exact String.append_right_inj _ |>.mp h

theorem policyKey_ne_attsKey (k k' : String) : policyKey k ≠ attsKey k' := by
  intro h
  have hlist := congrArg String.toList h
  simp [policyKey, attsKey] at hlist

theorem policyKey_ne_latest (k : String) : policyKey k ≠ auditTailLatestKey := by
  intro h
  have hlist := congrArg String.toList h
  simp [policyKey, auditTailLatestKey] at hlist

theorem policyKey_ne_seq (k : String) (n : Int) : policyKey k ≠ auditTailSeqKey n := by
  intro h
  have hlist := congrArg String.toList h
  simp [policyKey, auditTailSeqKey] at hlist

theorem attsKey_ne_latest (k : String) : attsKey k ≠ auditTailLatestKey := by
  intro h
  have hlist := congrArg String.toList h
  simp [attsKey, auditTailLatestKey] at hlist

theorem attsKey_ne_seq (k : String) (n : Int) : attsKey k ≠ auditTailSeqKey n := by
  intro h
  have hlist := congrArg String.toList h
  simp [attsKey, auditTailSeqKey] at hlist

/-- A sequence number that fits the contract's 64 bits. -/
def SeqFits (n : Int) : Prop := -2 ^ 63 ≤ n ∧ n < 2 ^ 63

/-- The keys of policies, attestations and audit tails. -/
inductive Reserved : String → Prop
  | policy (keyId : String) : Reserved (policyKey keyId)
  | atts (keyId : String) : Reserved (attsKey keyId)
  | latest : Reserved auditTailLatestKey
  | seq (n : Int) (hn : SeqFits n) : Reserved (auditTailSeqKey n)

/-! ### Reading -/

variable {st st' : State} {k : String}

theorem getPolicy_congr (h : st (policyKey k) = st' (policyKey k)) :
    getPolicy st k = getPolicy st' k := by
  rw [getPolicy, getPolicy, h]

theorem getAttestations_congr (h : st (attsKey k) = st' (attsKey k)) :
    getAttestations st k = getAttestations st' k := by
  rw [getAttestations, getAttestations, h]

theorem attestationsOf_congr (h : st (attsKey k) = st' (attsKey k)) :
    attestationsOf st k = attestationsOf st' k := by
  rw [attestationsOf, attestationsOf, getAttestations_congr h]

theorem verifyPolicy_congr (hpolicy : st (policyKey k) = st' (policyKey k))
    (hatts : st (attsKey k) = st' (attsKey k)) (actor mechanism : String) (nowMs : Int) :
    verifyPolicy st k actor mechanism nowMs = verifyPolicy st' k actor mechanism nowMs := by
  rw [verifyPolicy, verifyPolicy, getPolicy_congr hpolicy, attestationsOf_congr hatts]

theorem getLatestAuditTail_congr (h : st auditTailLatestKey = st' auditTailLatestKey) :
    getLatestAuditTail st = getLatestAuditTail st' := by
  rw [getLatestAuditTail, getLatestAuditTail, h]

theorem getRecord_congr (h : st k = st' k) : getRecord st k = getRecord st' k := by
  rw [getRecord, getRecord, h]

/-! ### Writing -/

theorem putState_of_ne {key : String} (hne : k ≠ key) (v : Value) : putState st key v k = st k :=
  Function.update_of_ne hne _ _

/-- `RecordSignature` writes under the record's identifier only. -/
theorem recordSignature_of_ne {r : String} (hne : k ≠ r) (tx : Tx)
    (fingerprint digest sig : String) (createdAt : Option Int)
    (pqcAlgo sigPqc fingerprintPqc : String) :
    recordSignature tx r fingerprint digest sig createdAt pqcAlgo sigPqc fingerprintPqc st k = st k :=
  putState_of_ne hne _

theorem recordAuditTail_seq (st : State) (tx : Tx) (tailHash : String) (n : Int)
    (timestamp : String) :
    ∃ t, recordAuditTail tx tailHash (some n) timestamp st (auditTailSeqKey n) =
      some (.auditTail t) := by
  have hne : auditTailSeqKey n ≠ auditTailLatestKey := by
    intro heq
    have hlist := congrArg String.toList heq
    simp [auditTailSeqKey, auditTailLatestKey] at hlist
  simp only [recordAuditTail, putState, Option.getD_some]
  rw [Function.update_of_ne hne, Function.update_self]
  exact ⟨_, rfl⟩

/-- The numbers in a call's arguments fit. -/
def Call.Fits : Call → Prop
  | .recordAuditTail _ seq _ => ∀ n ∈ seq, SeqFits n
  | _ => True

/-- The call records a signature. -/
def Call.Records : Call → Prop
  | .recordSignature .. => True
  | _ => False

/-- The other transactions write under reserved keys only. -/
theorem submit_of_not_reserved {tx : Tx} {call : Call} (hcall : ¬ call.Records) (hfits : call.Fits)
    (h : submit st tx call = .ok st') (hk : ¬ Reserved k) : st' k = st k := by
  cases submit_writes h with
  | record => exact absurd trivial hcall
  | auditTail tailHash seq timestamp t =>
    have hseq : SeqFits (seq.getD 0) := by
      cases seq with
      | none => exact ⟨by decide, by decide⟩
      | some n => exact hfits n rfl
    have hlatest : k ≠ auditTailLatestKey := fun heq => hk (heq ▸ .latest)
    have hnumber : k ≠ auditTailSeqKey (seq.getD 0) := fun heq => hk (heq ▸ .seq _ hseq)
    exact (putState_of_ne hlatest _).trans (putState_of_ne hnumber _)
  | policy keyId p client hclient =>
    have hne : k ≠ policyKey keyId := fun heq => hk (heq ▸ .policy keyId)
    exact putState_of_ne hne _
  | attested keyId type signature signer hclient
  | attests keyId type signature signer published hclient hpolicy hlisted hnew =>
    have hne : k ≠ attsKey keyId := fun heq => hk (heq ▸ .atts keyId)
    exact putState_of_ne hne _

/-! ### Disturbance -/

/-- The ledger holds a record that was stored under the identifier. -/
def Stored (st : State) (r : String) : Prop := ∃ rec, st r = some (.record rec) ∧ rec.recordId = r

/-- Recording a signature under the identifier changes no answer about policies, attestations and
audit tails, and no other transaction changes the record stored under it. -/
structure Undisturbed (r : String) : Prop where
  record : ∀ (st : State) (tx : Tx) (fingerprint digest sig : String) (createdAt : Option Int)
      (pqcAlgo sigPqc fingerprintPqc : String) (st' : State),
    submit st tx (.recordSignature r fingerprint digest sig createdAt pqcAlgo sigPqc
      fingerprintPqc) = .ok st' →
    (∀ keyId actor mechanism nowMs,
      verifyPolicy st' keyId actor mechanism nowMs = verifyPolicy st keyId actor mechanism nowMs) ∧
    (∀ keyId, getAttestations st' keyId = getAttestations st keyId) ∧
    getLatestAuditTail st' = getLatestAuditTail st
  others : ∀ (st : State) (tx : Tx) (call : Call) (st' : State), ¬ call.Records → call.Fits →
    Stored st r → submit st tx call = .ok st' → getRecord st' r = getRecord st r

/-- A ledger with one record, under the given identifier. -/
def oneRecord (r : String) : State :=
  recordSignature { id := "t" } r "" "" "" none "" "" "" fun _ => none

/-- A reserved identifier is disturbed: by recording under it, or, for a numbered audit tail, by
recording the tail over it. -/
theorem Undisturbed.not_reserved {r : String} (h : Undisturbed r) : ¬ Reserved r := by
  intro hreserved
  have hrecord := h.record (fun _ => none) { id := "t" } "" "" "" none "" "" "" _ rfl
  cases hreserved with
  | policy keyId =>
    -- Without a policy there is a different answer than under the policy of a record.
    have hanswer := hrecord.1 keyId "" "" 0
    simp only [verifyPolicy, getPolicy, recordSignature, putState, Function.update_self,
      Value.asPolicy, evaluatePolicy, bind, Except.bind, pure, Except.pure,
      Except.ok.injEq] at hanswer
    split_ifs at hanswer <;> simp at hanswer
  | atts keyId =>
    have hanswer := hrecord.2.1 keyId
    simp [getAttestations, recordSignature, putState, Value.asAttestations] at hanswer
  | latest =>
    have hanswer := hrecord.2.2
    simp [getLatestAuditTail, recordSignature, putState, Value.asAuditTail] at hanswer
  | seq n hn =>
    have hfits : (Call.recordAuditTail "" (some n) "").Fits := by
      rintro m ⟨⟩
      exact hn
    have hstored : Stored (oneRecord (auditTailSeqKey n)) (auditTailSeqKey n) := by
      simp [Stored, oneRecord, recordSignature, putState]
    have hanswer := h.others (oneRecord (auditTailSeqKey n)) { id := "t" }
      (.recordAuditTail "" (some n) "") _ not_false hfits hstored rfl
    obtain ⟨tail, htail⟩ := recordAuditTail_seq (oneRecord (auditTailSeqKey n)) { id := "t" } "" n ""
    obtain ⟨rec, hrec, hid⟩ := hstored
    simp only [getRecord, htail, hrec, Value.asRecord, Except.ok.injEq] at hanswer
    -- Read as a record, an audit tail has no identifier.
    rw [← hanswer] at hid
    have hlist := congrArg String.toList hid
    simp [auditTailSeqKey] at hlist

theorem undisturbed_of_not_reserved {r : String} (hr : ¬ Reserved r) : Undisturbed r := by
  constructor
  · intro st tx fingerprint digest sig createdAt pqcAlgo sigPqc fingerprintPqc st' hsubmit
    cases hsubmit
    have hkeep {key : String} (hkey : Reserved key) :
        recordSignature tx r fingerprint digest sig createdAt pqcAlgo sigPqc fingerprintPqc st
          key = st key :=
      recordSignature_of_ne (fun heq : key = r => hr (heq ▸ hkey)) ..
    exact ⟨fun keyId actor mechanism nowMs =>
        verifyPolicy_congr (hkeep (.policy keyId)) (hkeep (.atts keyId)) actor mechanism nowMs,
      fun keyId => getAttestations_congr (hkeep (.atts keyId)),
      getLatestAuditTail_congr (hkeep .latest)⟩
  · intro st tx call st' hcall hfits _ hsubmit
    exact getRecord_congr (submit_of_not_reserved hcall hfits hsubmit hr)

theorem undisturbed_iff (r : String) : Undisturbed r ↔ ¬ Reserved r :=
  ⟨fun h => h.not_reserved, undisturbed_of_not_reserved⟩

/-- A policy that asks for an attestation is published for a key, and nobody has attested it. -/
def unattested : State :=
  putState (fun _ => none) (policyKey "k") (.policy { minAttestations := 1 })

/-- A signature recorded under the policy's key makes the answer positive. -/
theorem not_undisturbed_policy :
    (∃ reason, verifyPolicy unattested "k" "a" "m" 0 = .ok (false, reason)) ∧
      verifyPolicy (recordSignature { id := "t" } "policy:k" "" "" "" none "" "" "" unattested) "k"
        "a" "m" 0 = .ok (true, "ok") ∧
      ¬ Undisturbed "policy:k" := by
  have hbefore : ∃ reason, verifyPolicy unattested "k" "a" "m" 0 = .ok (false, reason) := ⟨_, rfl⟩
  have hafter : verifyPolicy (recordSignature { id := "t" } "policy:k" "" "" "" none "" "" ""
      unattested) "k" "a" "m" 0 = .ok (true, "ok") := rfl
  refine ⟨hbefore, hafter, fun h => ?_⟩
  have hsame := (h.record unattested { id := "t" } "" "" "" none "" "" "" _ rfl).1 "k" "a" "m" 0
  obtain ⟨reason, hreason⟩ := hbefore
  rw [hafter, hreason] at hsame
  cases hsame

end VirtualHsm.SignatureLedger
