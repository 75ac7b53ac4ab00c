import VirtualHsm.Ledger.AttestationQuorum

/-!
# Submitting again

The ledger takes an attestation once for each signer and type, and a signature once for each record
identifier, so that a client may repeat a transaction whose result it has not seen. A repeated
attestation should refresh the entry there is; the contract refreshes a copy of it, and the first
content stays. A repeated signature should leave the record as it is; it does, but for a time of
creation that was taken from a transaction at time 0.
-/

namespace VirtualHsm.SignatureLedger

/-! ### Attestations -/

/-- What an attestation of a key is kept under. -/
def Attestation.slot (a : Attestation) : String × String := (a.signer, a.attestationType)

/-- A transaction that submits an attestation. -/
structure Submission where
  tx : Tx
  keyId : String
  attestationType : String
  signature : String

def attest (st : State) (s : Submission) : Except String Unit × State :=
  step st (s.tx, .submitAttestation s.keyId s.attestationType s.signature)

/-- The entry that a submission is for. -/
def Submission.entry (s : Submission) : Attestation :=
  ⟨s.keyId, s.tx.client.getD "", s.attestationType, s.signature, s.tx.timestamp.getD 0⟩

/-- The entry for the key, if the submission is accepted. -/
def acceptedEntry (keyId : String) : Submission × Except String Unit → Option Attestation
  | (s, .ok ()) => if s.keyId = keyId then some s.entry else none
  | (_, .error _) => none

/-- The entries that have been accepted for a key, in their order. -/
def acceptedFor (keyId : String) (st : State) (subs : List Submission) : List Attestation :=
  (CS.history attest st subs).filterMap (acceptedEntry keyId)

/-- `AttestationsFor`. -/
def attestationsFor (st : State) (keyId : String) : Except String (List Attestation) :=
  getAttestations st keyId

def firstOf (log : List Attestation) (slot : String × String) : Option Attestation :=
  log.find? fun a => a.slot = slot

def lastOf (log : List Attestation) (slot : String × String) : Option Attestation :=
  firstOf log.reverse slot

/-- One entry for each slot, in the order of first acceptance. -/
def Lists (content : String × String → Option Attestation) (log atts : List Attestation) : Prop :=
  atts.map some = (log.map Attestation.slot).eraseDups.map content

/-- The list with an entry for a slot that it does not have. -/
def addEntry (atts : List Attestation) (a : Attestation) : List Attestation :=
  if atts.any fun b => b.signer = a.signer && b.attestationType = a.attestationType then atts
  else atts ++ [a]

section Attestations

variable {keyId : String} {st : State} {log atts : List Attestation} {a : Attestation}

theorem client_of_clientID {tx : Tx} {id : String} (h : clientID tx = .ok id) :
    tx.client = some id := by
  unfold clientID at h
  split at h
  · next id' hsome =>
    cases h
    exact (Option.filter_eq_some_iff.mp hsome).1
  · cases h

theorem attest_eq (st : State) (s : Submission) :
    (∃ e, attest st s = (.error e, st)) ∨
      attest st s = (.ok (), putState st (attsKey s.keyId)
        (.attestations (addEntry (attestationsOf st s.keyId) s.entry))) := by
  simp only [attest, step, submit, submitAttestation, bind, Except.bind, pure, Except.pure]
  cases hclient : clientID s.tx with
  | error e => exact .inl ⟨e, rfl⟩
  | ok signer =>
    cases getPolicy st s.keyId with
    | error e => exact .inl ⟨e, rfl⟩
    | ok policy =>
      have hentry : s.entry = ⟨s.keyId, signer, s.attestationType, s.signature,
          s.tx.timestamp.getD 0⟩ := by
        rw [Submission.entry, client_of_clientID hclient]
        rfl
      dsimp only
      split_ifs with hlisted hany
      · rw [hentry, addEntry, if_pos hany]
        exact .inr rfl
      · rw [hentry, addEntry, if_neg hany]
        exact .inr rfl
      · exact .inl ⟨_, rfl⟩

theorem eraseDups_append_singleton {α : Type} [BEq α] [LawfulBEq α] (l : List α) (x : α) :
    (l ++ [x]).eraseDups = l.eraseDups ++ if l.contains x then [] else [x] := by
  rw [List.eraseDups_append]
  by_cases hmem : x ∈ l <;> simp [List.removeAll, hmem, List.eraseDups_cons]

theorem isSome_firstOf {slot : String × String} (h : slot ∈ log.map Attestation.slot) :
    (firstOf log slot).isSome := by
  obtain ⟨b, hb, rfl⟩ := List.mem_map.mp h
  exact List.find?_isSome.mpr ⟨b, hb, decide_eq_true rfl⟩

theorem of_firstOf_eq_some {slot : String × String} (h : firstOf log slot = some a) :
    a ∈ log ∧ a.slot = slot :=
  ⟨List.mem_of_find?_eq_some h, by simpa using List.find?_some h⟩

theorem Lists.any_iff (h : Lists (firstOf log) log atts) (a : Attestation) :
    (atts.any fun b => b.signer = a.signer && b.attestationType = a.attestationType) ↔
      a.slot ∈ log.map Attestation.slot := by
  have hslot (b : Attestation) : (decide (b.signer = a.signer) &&
      decide (b.attestationType = a.attestationType)) = true ↔ b.slot = a.slot := by
    simp [Attestation.slot]
  simp only [List.any_eq_true, hslot]
  constructor
  · rintro ⟨b, hb, heq⟩
    have hmem : some b ∈ (log.map Attestation.slot).eraseDups.map (firstOf log) :=
      h ▸ List.mem_map_of_mem hb
    obtain ⟨slot, -, hfirst⟩ := List.mem_map.mp hmem
    rw [← heq]
    exact List.mem_map_of_mem (of_firstOf_eq_some hfirst).1
  · intro hmem
    obtain ⟨b, hb⟩ := Option.isSome_iff_exists.mp (isSome_firstOf hmem)
    have hatts : some b ∈ atts.map some :=
      h ▸ List.mem_map.mpr ⟨a.slot, List.mem_eraseDups.mpr hmem, hb⟩
    obtain ⟨b', hb', heq⟩ := List.mem_map.mp hatts
    obtain rfl := Option.some.inj heq
    exact ⟨b', hb', (of_firstOf_eq_some hb).2⟩

theorem Lists.add (h : Lists (firstOf log) log atts) (a : Attestation) :
    Lists (firstOf (log ++ [a])) (log ++ [a]) (addEntry atts a) := by
  -- What came first stays first.
  have hold : ((log.map Attestation.slot).eraseDups.map (firstOf (log ++ [a]))) =
      (log.map Attestation.slot).eraseDups.map (firstOf log) := by
    refine List.map_congr_left fun slot hslot => ?_
    rw [firstOf, List.find?_append]
    exact Option.or_of_isSome (isSome_firstOf (List.mem_eraseDups.mp hslot))
  rw [Lists, List.map_append, List.map_singleton, eraseDups_append_singleton, List.map_append,
    hold, ← h, addEntry]
  simp only [List.contains_iff_mem]
  split_ifs with hany hmem hmem
  · simp
  · exact absurd ((h.any_iff a).mp hany) hmem
  · exact absurd ((h.any_iff a).mpr hmem) hany
  · have hnone : log.find? (fun b => b.slot = a.slot) = none := by
      refine List.find?_eq_none.mpr fun b hb heq => hmem ?_
      exact List.mem_map.mpr ⟨b, hb, of_decide_eq_true heq⟩
    have hfirst : firstOf (log ++ [a]) a.slot = some a := by
      rw [firstOf, List.find?_append, hnone, Option.none_or]
      simp
    rw [List.map_append, List.map_singleton, List.map_singleton, hfirst]

theorem acceptedFor_concat (keyId : String) (st : State) (subs : List Submission)
    (s : Submission) : acceptedFor keyId st (subs ++ [s]) = acceptedFor keyId st subs ++
      (acceptedEntry keyId (s, (attest (CS.run attest st subs) s).1)).toList := by
  rw [acceptedFor, CS.history_concat, List.filterMap_append, List.filterMap_cons]
  cases acceptedEntry keyId (s, (attest (CS.run attest st subs) s).1) with
  | none => rfl
  | some a => rfl

theorem lists_first (h : st (attsKey keyId) = none) (subs : List Submission) :
    ∃ atts, getAttestations (CS.run attest st subs) keyId = .ok atts ∧
      Lists (firstOf (acceptedFor keyId st subs)) (acceptedFor keyId st subs) atts := by
  induction subs using List.reverseRecOn with
  | nil => exact ⟨[], by rw [CS.run_nil, getAttestations, h], rfl⟩
  | append_singleton subs s ih =>
    obtain ⟨atts, hatts, hlists⟩ := ih
    rw [CS.run_append, CS.run_cons, CS.run_nil, acceptedFor_concat]
    rcases attest_eq (CS.run attest st subs) s with ⟨e, heq⟩ | heq
    · rw [heq]
      exact ⟨atts, hatts, by simpa [acceptedEntry] using hlists⟩
    · rw [heq]
      by_cases hkey : s.keyId = keyId
      · subst hkey
        refine ⟨addEntry atts s.entry, ?_, ?_⟩
        · have hof : attestationsOf (CS.run attest st subs) s.keyId = atts := by
            rw [attestationsOf, hatts]
          dsimp only
          rw [hof, getAttestations, putState, Function.update_self]
          rfl
        · simpa [acceptedEntry] using hlists.add s.entry
      · refine ⟨atts, ?_, by simpa [acceptedEntry, hkey] using hlists⟩
        rw [← hatts]
        exact getAttestations_congr (putState_of_ne (fun h => hkey (attsKey_injective h).symm) _)

/-- **The list has the latest content of every signer and type** exactly when the last submission
that was accepted for them has the content of the first. -/
theorem latest_iff (h : st (attsKey keyId) = none) (subs : List Submission) :
    (∃ atts, attestationsFor (CS.run attest st subs) keyId = .ok atts ∧
      Lists (lastOf (acceptedFor keyId st subs)) (acceptedFor keyId st subs) atts) ↔
      ∀ a ∈ acceptedFor keyId st subs, lastOf (acceptedFor keyId st subs) a.slot =
        firstOf (acceptedFor keyId st subs) a.slot := by
  obtain ⟨atts, hatts, hlists⟩ := lists_first h subs
  rw [attestationsFor, hatts]
  constructor
  · rintro ⟨_, heq, hlatest⟩ a ha
    cases heq
    have hmem := List.mem_eraseDups.mpr (List.mem_map_of_mem (f := Attestation.slot) ha)
    exact List.map_inj_left.mp (hlatest.symm.trans hlists) _ hmem
  · intro hsame
    refine ⟨atts, rfl, hlists.trans (List.map_congr_left fun slot hslot => ?_)⟩
    obtain ⟨a, ha, rfl⟩ := List.mem_map.mp (List.mem_eraseDups.mp hslot)
    exact (hsame a ha).symm

end Attestations

/-- A transaction of the client at a time. -/
def sentAt (client : String) (seconds : Int) : Tx :=
  { sentBy client with timestamp := some seconds }

theorem latest_twoSigners :
    genesis (attsKey "k") = none ∧
      ∃ atts, attestationsFor (CS.run attest genesis
          [⟨sentAt "x" 1, "k", "t", "s"⟩, ⟨sentAt "y" 2, "k", "t", "s"⟩]) "k" = .ok atts ∧
        Lists (lastOf [⟨"k", "x", "t", "s", 1⟩, ⟨"k", "y", "t", "s", 2⟩])
          [⟨"k", "x", "t", "s", 1⟩, ⟨"k", "y", "t", "s", 2⟩] atts :=
  ⟨rfl, (@latest_iff "k" genesis rfl _).mpr (by decide)⟩

/-- A client attests again with another signature. -/
def refreshed : List Submission := [⟨sentAt "x" 1, "k", "t", "s"⟩, ⟨sentAt "x" 2, "k", "t", "s'"⟩]

theorem attestationsFor_refreshed :
    acceptedFor "k" genesis refreshed = [⟨"k", "x", "t", "s", 1⟩, ⟨"k", "x", "t", "s'", 2⟩] ∧
      attestationsFor (CS.run attest genesis refreshed) "k" = .ok [⟨"k", "x", "t", "s", 1⟩] ∧
      ¬ Lists (lastOf (acceptedFor "k" genesis refreshed)) (acceptedFor "k" genesis refreshed)
        [⟨"k", "x", "t", "s", 1⟩] := by
  refine ⟨rfl, rfl, ?_⟩
  unfold Lists
  decide

/-! ### Records -/

/-- A transaction that anchors a signature. -/
structure Anchoring where
  tx : Tx
  recordId : String
  keyFingerprint : String := ""
  payloadDigest : String := ""
  signatureB64 : String := ""
  createdAt : Option Int := none
  pqcAlgo : String := ""
  signaturePqcB64 : String := ""
  keyFingerprintPqc : String := ""
  deriving DecidableEq, Repr

def anchor (st : State) (s : Anchoring) : Except String Unit × State :=
  step st (s.tx, .recordSignature s.recordId s.keyFingerprint s.payloadDigest s.signatureB64
    s.createdAt s.pqcAlgo s.signaturePqcB64 s.keyFingerprintPqc)

/-- The ledger after a sequence of transactions. -/
def anchored (subs : List Anchoring) : State := CS.run anchor genesis subs

/-- The time of creation that a transaction gives. -/
def Anchoring.given (s : Anchoring) : Int := s.createdAt.getD (s.tx.timestamp.getD 0)

/-- The record of a transaction, with a time of creation. -/
def Anchoring.document (s : Anchoring) (createdAt : Int) : SignatureRecord where
  recordId := s.recordId
  keyFingerprint := s.keyFingerprint
  payloadDigest := s.payloadDigest
  signatureB64 := s.signatureB64
  createdAt := createdAt
  txId := s.tx.id
  submitter := s.tx.client.getD ""
  pqcAlgo := s.pqcAlgo
  signaturePqcB64 := s.signaturePqcB64
  keyFingerprintPqc := s.keyFingerprintPqc

/-- The submissions of a record. -/
def submissionsOf (id : String) (subs : List Anchoring) : List Anchoring :=
  subs.filter fun s => s.recordId = id

/-- The first time of creation that is not zero. -/
def creationTime (subs : List Anchoring) : Int :=
  ((subs.map Anchoring.given).find? fun t => t ≠ 0).getD 0

/-- What should be stored for a record: its last submission with the first time of creation that is
not zero. -/
def recordOf (id : String) (subs : List Anchoring) : Option SignatureRecord :=
  (submissionsOf id subs).getLast?.map fun s => s.document (creationTime (submissionsOf id subs))

/-- Anchoring is idempotent at a transaction: a time of creation that is not zero stays whatever
comes later, the arguments of the last submission change the transaction and the submitter of the
record at most, other records are left alone, and the records are what they should be. -/
structure Idempotent (subs : List Anchoring) (s : Anchoring) : Prop where
  kept : ∀ later id r r', getRecord (anchored subs) id = .ok r → r.createdAt ≠ 0 →
    getRecord (anchored (subs ++ s :: later)) id = .ok r' → r'.createdAt = r.createdAt
  repeated : ∀ last r r', (submissionsOf s.recordId subs).getLast? = some last →
    { last with tx := s.tx } = s → getRecord (anchored subs) s.recordId = .ok r →
    getRecord (anchored (subs ++ [s])) s.recordId = .ok r' →
    { r' with txId := r.txId, submitter := r.submitter } = r
  others : ∀ id, id ≠ s.recordId → anchored (subs ++ [s]) id = anchored subs id
  content : ∀ id r,
    getRecord (anchored (subs ++ [s])) id = .ok r ↔ recordOf id (subs ++ [s]) = some r

theorem creationTime_append (subs later : List Anchoring) :
    creationTime (subs ++ later) =
      if creationTime subs = 0 then creationTime later else creationTime subs := by
  unfold creationTime
  rw [List.map_append, List.find?_append]
  cases hfirst : (subs.map Anchoring.given).find? fun t => t ≠ 0 with
  | none => rfl
  | some t =>
    have ht : t ≠ 0 := by simpa using List.find?_some hfirst
    exact (if_neg ht).symm

theorem creationTime_singleton (s : Anchoring) : creationTime [s] = s.given := by
  by_cases h : s.given = 0 <;> simp [creationTime, h]

theorem given_eq_zero {subs : List Anchoring} {s : Anchoring} (h : creationTime subs = 0)
    (hs : s ∈ subs) : s.given = 0 := by
  obtain ⟨before, after, rfl⟩ := List.mem_iff_append.mp hs
  rw [creationTime_append, ← List.singleton_append, creationTime_append,
    creationTime_singleton] at h
  split_ifs at h with hbefore hgiven
  · exact hgiven
  · exact h
  · exact absurd h hbefore

theorem document_of_args {last s : Anchoring} (h : { last with tx := s.tx } = s) (createdAt : Int) :
    { s.document createdAt with txId := last.tx.id, submitter := last.tx.client.getD "" } =
      last.document createdAt := by
  rw [← h]
  rfl

theorem recordOf_concat (subs : List Anchoring) (s : Anchoring) :
    recordOf s.recordId (subs ++ [s]) =
      some (s.document (creationTime (submissionsOf s.recordId subs ++ [s]))) := by
  simp [recordOf, submissionsOf]

/-- A transaction stores what should be stored for its record. -/
theorem anchored_concat (subs : List Anchoring) (s : Anchoring)
    (ih : anchored subs s.recordId = (recordOf s.recordId subs).map .record) :
    anchored (subs ++ [s]) = putState (anchored subs) s.recordId
      (.record (s.document (creationTime (submissionsOf s.recordId subs ++ [s])))) := by
  have hstep : anchored (subs ++ [s]) = recordSignature s.tx s.recordId s.keyFingerprint
      s.payloadDigest s.signatureB64 s.createdAt s.pqcAlgo s.signaturePqcB64 s.keyFingerprintPqc
      (anchored subs) := by
    rw [anchored, CS.run_append]
    rfl
  rw [hstep, recordSignature, getRecord, ih, recordOf, creationTime_append, creationTime_singleton]
  cases hlast : (submissionsOf s.recordId subs).getLast? with
  | none =>
    rw [List.getLast?_eq_none_iff.mp hlast]
    rfl
  | some last =>
    by_cases hzero : creationTime (submissionsOf s.recordId subs) = 0 <;>
      simp [Value.asRecord, Anchoring.document, Anchoring.given, hzero]

theorem anchored_eq (id : String) (subs : List Anchoring) :
    anchored subs id = (recordOf id subs).map .record := by
  induction subs using List.reverseRecOn generalizing id with
  | nil => rfl
  | append_singleton subs s ih =>
    rw [anchored_concat subs s (ih s.recordId)]
    by_cases hid : id = s.recordId
    · rw [hid, recordOf_concat, putState, Function.update_self]
      rfl
    · have hsame : submissionsOf id (subs ++ [s]) = submissionsOf id subs := by
        simp [submissionsOf, Ne.symm hid]
      rw [putState_of_ne hid, ih, recordOf, recordOf, hsame]

theorem getRecord_anchored {id : String} {subs : List Anchoring} {r : SignatureRecord} :
    getRecord (anchored subs) id = .ok r ↔ recordOf id subs = some r := by
  rw [getRecord, anchored_eq]
  cases recordOf id subs with
  | none => simp
  | some r' => simp [Value.asRecord]

theorem createdAt_of_recordOf {id : String} {subs : List Anchoring} {r : SignatureRecord}
    (h : recordOf id subs = some r) : r.createdAt = creationTime (submissionsOf id subs) := by
  obtain ⟨s, -, rfl⟩ := Option.map_eq_some_iff.mp h
  rfl

/-- **Anchoring is idempotent** exactly when a record whose time of creation is still zero is not
submitted again without a number for it at another time than 0. -/
theorem idempotent_iff (subs : List Anchoring) (s : Anchoring) :
    Idempotent subs s ↔ ∀ last, (submissionsOf s.recordId subs).getLast? = some last →
      { last with tx := s.tx } = s → s.createdAt = none →
      creationTime (submissionsOf s.recordId subs) = 0 → s.tx.timestamp.getD 0 = 0 := by
  constructor
  · intro h last hlast hargs hnone hzero
    have hbefore : recordOf s.recordId subs = some (last.document 0) := by
      rw [recordOf, hlast, hzero]
      rfl
    have hsame := h.repeated last _ _ hlast hargs (getRecord_anchored.mpr hbefore)
      (getRecord_anchored.mpr (recordOf_concat subs s))
    have hcreated : creationTime (submissionsOf s.recordId subs ++ [s]) = 0 :=
      congrArg SignatureRecord.createdAt hsame
    rwa [creationTime_append, if_pos hzero, creationTime_singleton, Anchoring.given,
      hnone] at hcreated
  · intro h
    constructor
    case kept =>
      intro later id r r' hr hne hr'
      have hr := createdAt_of_recordOf (getRecord_anchored.mp hr)
      have hr' := createdAt_of_recordOf (getRecord_anchored.mp hr')
      rw [submissionsOf, List.filter_append] at hr'
      rw [hr', creationTime_append, if_neg (hr ▸ hne)]
      exact hr.symm
    case repeated =>
      intro last r r' hlast hargs hr hr'
      have hr := getRecord_anchored.mp hr
      rw [recordOf, hlast] at hr
      cases hr
      have hr' := getRecord_anchored.mp hr'
      obtain rfl := Option.mem_unique (recordOf_concat subs s) hr'
      have htime : creationTime (submissionsOf s.recordId subs ++ [s]) =
          creationTime (submissionsOf s.recordId subs) := by
        rw [creationTime_append, creationTime_singleton]
        split_ifs with hzero
        · rw [hzero]
          cases hgiven : s.createdAt with
          | none => rw [Anchoring.given, hgiven, Option.getD_none, h last hlast hargs hgiven hzero]
          | some n =>
            have hlast := given_eq_zero hzero (List.mem_of_getLast? hlast)
            have heq : last.createdAt = s.createdAt := by rw [← hargs]
            rw [Anchoring.given, heq, hgiven] at hlast
            rwa [Anchoring.given, hgiven]
        · rfl
      rw [htime]
      exact document_of_args hargs _
    case others =>
      intro id hid
      rw [anchored_concat subs s (anchored_eq s.recordId subs), putState_of_ne hid]
    case content => exact fun id r => getRecord_anchored

/-- A record without a number for its time of creation is submitted at time 0 and again later. -/
theorem not_idempotent_epoch :
    getRecord (anchored [⟨sentAt "x" 0, "r", "", "", "", none, "", "", ""⟩]) "r" =
        .ok { recordId := "r", createdAt := 0, txId := "t", submitter := "x" } ∧
      getRecord (anchored [⟨sentAt "x" 0, "r", "", "", "", none, "", "", ""⟩,
          ⟨sentAt "x" 5, "r", "", "", "", none, "", "", ""⟩]) "r" =
        .ok { recordId := "r", createdAt := 5, txId := "t", submitter := "x" } ∧
      ¬ Idempotent [⟨sentAt "x" 0, "r", "", "", "", none, "", "", ""⟩]
        ⟨sentAt "x" 5, "r", "", "", "", none, "", "", ""⟩ := by
  refine ⟨rfl, rfl, fun h => ?_⟩
  have hsame := h.repeated _ _ _ rfl rfl rfl rfl
  exact absurd (congrArg SignatureRecord.createdAt hsame) (by decide)

end VirtualHsm.SignatureLedger
