import VirtualHsm.SignatureStore.LedgerRetryQueue

/-!
# The table and the ledger

Every submission of a record writes the ledger's document of that record anew, under the identifier of
its own transaction. The row of the record has the identifier of the transaction that the module was
told of. The two are the same as long as the last submission that reached the ledger is also the last
one that the row was told of.

A record is loaded while its row is pending and submitted later. In between its row may have been
committed by another submission. If the late submission reaches the ledger and is reported as failed,
or if the process dies before the row is written, row and ledger name different transactions.
-/

namespace VirtualHsm

/-! ### The data of a signature -/

/-- Fingerprint of the key, digest of the payload and signature. -/
def SignatureRow.evidence (r : SignatureRow) : String × String × String :=
  (r.keyFingerprint, r.payloadDigest, r.signatureB64)

def SignatureRecord.evidence (rec : SignatureRecord) : String × String × String :=
  (rec.keyFingerprint, rec.payloadDigest, rec.signatureB64)

def SignatureLedger.SignatureRecord.evidence (rec : SignatureLedger.SignatureRecord) :
    String × String × String :=
  (rec.keyFingerprint, rec.payloadDigest, rec.signatureB64)

/-- Queries return the texts of the row whole. -/
def SignatureRow.Clean (r : SignatureRow) : Prop :=
  ∀ text ∈ [r.id, r.keyFingerprint, r.payloadDigest, r.signatureB64], '\x00' ∉ text.toList

/-- What becomes of a submission. -/
inductive SubmitOutcome
  /-- It does not reach the ledger. -/
  | never
  /-- It is committed, and still reported as failed. -/
  | lost (tx : SignatureLedger.Tx)
  | reported (tx : SignatureLedger.Tx) (blockNumber : Int)

/-- What the client returns, and the world state afterwards. -/
def SubmitOutcome.submit (world : SignatureLedger.State) (rec : SignatureRecord) :
    SubmitOutcome → Option LedgerEntry × SignatureLedger.State
  | never => (none, world)
  | lost tx =>
    (none, ((LedgerClient.mk (.ok world)).submitRecord tx 0 rec).2.world.toOption.getD world)
  | reported tx blockNumber =>
    let out := (LedgerClient.mk (.ok world)).submitRecord tx blockNumber rec
    (out.1, out.2.world.toOption.getD world)

/-- The store with its worker, and the world state of the ledger. -/
structure AnchoredStore where
  store : Anchorage
  world : SignatureLedger.State := fun _ => none

/-- The steps of the store; the database does not fail. -/
inductive AnchoredStep
  | dispatch (id outboxId : Fin 16 → UInt8) (nowTicks : Int) (companion : Option Companion)
      (input : SignatureDispatchInput)
  | load
  | replay (i : Nat)
  | advance (i : Nat) (pool : PoolAnswer) (outcome : SubmitOutcome) (now : Int)
  | raise (i : Nat)
  | drainAndStop
  | crash

namespace AnchoredStore

open LedgerRetryQueue

variable (mac : Hmac) (key : Bytes) (hsmInstance : String) (s : AnchoredStore)

/-- What the ledger does in a step of a submission: it is asked only for an attempt. -/
def submitFor (a : Anchoring) (outcome : SubmitOutcome) : Option LedgerEntry × SignatureLedger.State :=
  match a.place with
  | .attempting _ => outcome.submit s.world a.record
  | _ => (none, s.world)

def step : AnchoredStep → Bool × AnchoredStore
  | .dispatch id outboxId nowTicks companion input =>
    let out := s.store.step mac key hsmInstance
      (.dispatch (fun _ => false) id outboxId nowTicks companion input)
    (out.1, { s with store := out.2 })
  | .load =>
    let out := s.store.step mac key hsmInstance (.load false)
    (out.1, { s with store := out.2 })
  | .replay i =>
    let out := s.store.step mac key hsmInstance (.replay i)
    (out.1, { s with store := out.2 })
  | .advance i pool outcome now =>
    match s.store.worker.anchorings[i]? with
    | none => (false, s)
    | some a =>
      let answer := s.submitFor a outcome
      let out := s.store.step mac key hsmInstance
        (.advance i pool answer.1 now fun _ => false)
      (out.1, { store := out.2, world := answer.2 })
  | .raise i =>
    let out := s.store.step mac key hsmInstance (.raise i)
    (out.1, { s with store := out.2 })
  | .drainAndStop =>
    let out := s.store.step mac key hsmInstance .drainAndStop
    (out.1, { s with store := out.2 })
  | .crash =>
    let out := s.store.step mac key hsmInstance .crash
    (out.1, { s with store := out.2 })

/-- The ledger has the document of the record, under this transaction and with these data. -/
def OnLedger (world : SignatureLedger.State) (id txId : String) (evidence : String × String × String) :
    Prop :=
  ∃ rec, SignatureLedger.getRecord world id = .ok rec ∧ rec.txId = txId ∧ rec.evidence = evidence

/-- Every committed row names the transaction that the ledger has, and has the data that it has. -/
def Agree : Prop :=
  ∀ id r, s.store.db.records.find id = some r → r.ledgerStatus = .committed →
    OnLedger s.world id r.ledgerTxId r.evidence

/-- The row of the record is committed. -/
def RowCommitted (id : String) : Prop :=
  ∃ r, s.store.db.records.find id = some r ∧ r.ledgerStatus = .committed

/-- No answer for a row that is committed already gets lost, neither on the way from the ledger nor
with the process; and what is dispatched has no null characters. -/
def Keeps : AnchoredStep → Prop
  | .dispatch id _ _ companion input => (SignatureDispatcher.row (uuidV4 id) companion input).Clean
  | .advance i _ (.lost _) _ =>
    ∀ a ∈ s.store.worker.anchorings[i]?, ∀ retries, a.place = .attempting retries →
      ¬ s.RowCommitted a.record.recordId
  | .crash =>
    ∀ a ∈ s.store.worker.anchorings, a.place.answer ≠ none → ¬ s.RowCommitted a.record.recordId
  | .advance _ _ .never _ | .advance _ _ (.reported _ _) _ | .load | .replay _ | .raise _
  | .drainAndStop => True

/-! ### The invariant -/

/-- A record has the data of its row. -/
def Matches (records : CS.KeyedTable SignatureRow.id) (rec : SignatureRecord) : Prop :=
  ∃ r, records.find rec.recordId = some r ∧ rec.evidence = r.evidence

/-- A submission has the ledger's answer for the record, and will write it to the row. -/
def Answered (id : String) : Prop :=
  ∃ (j : Nat) (a : Anchoring), s.store.worker.anchorings[j]? = some a ∧ a.record.recordId = id ∧
    a.place.answer ≠ none

/-- What holds in every state: where a committed row and the ledger differ, an answer is under way. -/
structure Repairable : Prop where
  clean : ∀ id r, s.store.db.records.find id = some r → r.Clean
  submitted : ∀ a ∈ s.store.worker.anchorings, Matches s.store.db.records a.record
  loaded : ∀ rec ∈ s.store.replaying, Matches s.store.db.records rec
  exclusive : s.store.worker.Exclusive
  answers : ∀ a ∈ s.store.worker.anchorings, ∀ e, a.place.answer = some e →
    OnLedger s.world a.record.recordId e.txId a.record.evidence
  rows : ∀ id r, s.store.db.records.find id = some r → r.ledgerStatus = .committed →
    OnLedger s.world id r.ledgerTxId r.evidence ∨ s.Answered id

variable {mac key hsmInstance} {s} {s' : AnchoredStore} {world world' : SignatureLedger.State}
  {id txId : String} {evidence : String × String × String} {i : Nat} {a a' : Anchoring}
  {rec : SignatureRecord}

/-! ### The ledger -/

/-- The document of a record depends on its own key only. -/
theorem OnLedger.congr (h : OnLedger world id txId evidence) (heq : world' id = world id) :
    OnLedger world' id txId evidence := by
  obtain ⟨rec, hget, htx, hevidence⟩ := h
  refine ⟨rec, ?_, htx, hevidence⟩
  rw [SignatureLedger.getRecord, heq]
  exact hget

/-- A submission that the ledger commits. -/
structure Commits (world : SignatureLedger.State) (rec : SignatureRecord) (tx : SignatureLedger.Tx)
    (world' : SignatureLedger.State) : Prop where
  onLedger : OnLedger world' rec.recordId tx.id rec.evidence
  other : ∀ id ≠ rec.recordId, world' id = world id

theorem commits_submitRecord (world : SignatureLedger.State) (tx : SignatureLedger.Tx)
    (blockNumber : Int) (rec : SignatureRecord) :
    Commits world rec tx
      (((LedgerClient.mk (.ok world)).submitRecord tx blockNumber rec).2.world.toOption.getD world) := by
  obtain ⟨r, hr, -, hfingerprint, hdigest, hsig, htx⟩ := SignatureLedger.getRecord_recordSignature
    world tx rec.recordId rec.keyFingerprint rec.payloadDigest rec.signatureB64 (some rec.createdAt)
    rec.pqcAlgo (rec.signaturePqcB64.getD "") (rec.keyFingerprintPqc.getD "")
  constructor
  · refine ⟨r, hr, htx, ?_⟩
    rw [SignatureLedger.SignatureRecord.evidence, hfingerprint, hdigest, hsig, SignatureRecord.evidence]
  · intro id hne
    exact Function.update_of_ne hne _ _

/-- The ledger is not asked or not reached, commits without a word, or commits and answers. -/
theorem submitFor_cases (s : AnchoredStore) (a : Anchoring) (outcome : SubmitOutcome) :
    s.submitFor a outcome = (none, s.world) ∨
    (∃ retries tx world', a.place = .attempting retries ∧ outcome = .lost tx ∧
      s.submitFor a outcome = (none, world') ∧ Commits s.world a.record tx world') ∨
    ∃ retries tx e world', a.place = .attempting retries ∧ e.txId = tx.id ∧
      s.submitFor a outcome = (some e, world') ∧ Commits s.world a.record tx world' := by
  obtain ⟨record, place, raising⟩ := a
  unfold submitFor
  cases place with
  | attempting retries =>
    cases outcome with
    | never => exact .inl rfl
    | lost tx =>
      exact .inr (.inl ⟨retries, tx, _, rfl, rfl, rfl, commits_submitRecord s.world tx 0 record⟩)
    | reported tx blockNumber =>
      exact .inr (.inr ⟨retries, tx, _, _, rfl, rfl, rfl,
        commits_submitRecord s.world tx blockNumber record⟩)
  | checked | inserted | marked | queued | counted e | committed e | failing | closing success | ended =>
    exact .inl rfl

/-! ### Submissions -/

theorem active_of_answer {place : AnchorPlace} (h : place.answer ≠ none) : place.active = true := by
  cases place <;> first | rfl | exact absurd rfl h

/-- While a submission is under way, no other one has an answer for its record. -/
theorem Repairable.eq_of_answer (h : s.Repairable) (ha : s.store.worker.anchorings[i]? = some a)
    (hactive : a.place.active = true) {j : Nat} {b : Anchoring}
    (hb : s.store.worker.anchorings[j]? = some b) (hanswer : b.place.answer ≠ none)
    (hid : b.record.recordId = a.record.recordId) : j = i := by
  have hpos {c : Anchoring} (hc : c.place.active = true)
      (hcid : c.record.recordId = a.record.recordId) :
      0 < Anchoring.activeFor a.record.recordId c := by
    rw [LedgerWorker.activeFor_of_active hc, if_pos hcid.symm]
    exact Nat.zero_lt_one
  exact CS.eq_of_total_le_one (h.exclusive a.record.recordId).1 hb ha
    (hpos (active_of_answer hanswer) hid) (hpos hactive rfl)

section

variable (ha : s.store.worker.anchorings[i]? = some a)
  (hs' : s'.store.worker.anchorings = s.store.worker.anchorings.set i a')
include ha hs'

/-- An answer stays under way when another submission moves. -/
theorem Answered.set (h : s.Answered id)
    (hkeep : a.record.recordId = id → a.place.answer = none) : s'.Answered id := by
  obtain ⟨j, b, hb, hid, hanswer⟩ := h
  have hne : i ≠ j := by
    rintro rfl
    obtain rfl := Option.mem_unique ha hb
    exact hanswer (hkeep hid)
  exact ⟨j, b, by rw [hs', List.getElem?_set_ne hne, hb], hid, hanswer⟩

theorem answered_self (hanswer : a'.place.answer ≠ none) : s'.Answered a'.record.recordId := by
  have hi := (List.getElem?_eq_some_iff.mp ha).1
  exact ⟨i, a', by rw [hs', List.getElem?_set_self hi], rfl, hanswer⟩

/-- A submission moves and the table stays. Where the ledger changes, it does so for the record of the
submission. -/
theorem Repairable.move (h : s.Repairable)
    (hrecord : a'.record = a.record) (hrecords : s'.store.db.records = s.store.db.records)
    (hreplaying : s'.store.replaying = s.store.replaying) (hexclusive : s'.store.worker.Exclusive)
    (hother : ∀ id ≠ a.record.recordId, s'.world id = s.world id)
    (hworld : s'.world = s.world ∨ a.place.active = true)
    (hanswer : ∀ e, a'.place.answer = some e →
      OnLedger s'.world a.record.recordId e.txId a.record.evidence)
    (hrow : ∀ r, s.store.db.records.find a.record.recordId = some r → r.ledgerStatus = .committed →
      OnLedger s'.world a.record.recordId r.ledgerTxId r.evidence ∨ s'.Answered a.record.recordId) :
    s'.Repairable := by
  refine ⟨hrecords ▸ h.clean, ?_, ?_, hexclusive, ?_, ?_⟩
  · intro b hb
    rw [hs'] at hb
    rw [hrecords]
    rcases List.mem_or_eq_of_mem_set hb with hold | rfl
    · exact h.submitted b hold
    · rw [hrecord]
      exact h.submitted a (List.mem_of_getElem? ha)
  · rw [hreplaying, hrecords]
    exact h.loaded
  · intro b hb e he
    obtain ⟨j, hj⟩ := List.mem_iff_getElem?.mp hb
    rw [hs'] at hj
    by_cases hij : i = j
    · subst hij
      rw [List.getElem?_set_self (List.getElem?_eq_some_iff.mp ha).1] at hj
      cases hj
      rw [hrecord]
      exact hanswer e he
    · rw [List.getElem?_set_ne hij] at hj
      have hold := h.answers b (List.mem_of_getElem? hj) e he
      rcases hworld with hsame | hactive
      · rw [hsame]
        exact hold
      · -- The other submission is for another record.
        refine hold.congr (hother _ fun hid => hij ?_)
        exact (h.eq_of_answer ha hactive hj (by rw [he]; simp) hid).symm
  · intro id r hr hcommitted
    rw [hrecords] at hr
    by_cases hid : id = a.record.recordId
    · subst hid
      exact hrow r hr hcommitted
    · rcases h.rows id r hr hcommitted with hledger | hanswered
      · exact .inl (hledger.congr (hother id hid))
      · exact .inr (hanswered.set ha hs' fun heq => absurd heq.symm hid)

end

/-! ### The table -/

theorem rowAfter_data (r : SignatureRow) (c : RecordCall) :
    (SignatureRepository.rowAfter mac key r c).id = r.id ∧
      (SignatureRepository.rowAfter mac key r c).evidence = r.evidence := by
  unfold SignatureRepository.rowAfter
  split
  · split_ifs <;> exact ⟨rfl, rfl⟩
  all_goals exact ⟨rfl, rfl⟩

theorem clean_of_data {r r' : SignatureRow} (h : r.Clean) (hid : r'.id = r.id)
    (hevidence : r'.evidence = r.evidence) : r'.Clean := by
  simp only [SignatureRow.evidence, Prod.mk.injEq] at hevidence
  rw [SignatureRow.Clean, hid, hevidence.1, hevidence.2.1, hevidence.2.2]
  exact h

/-- The table after an update, row by row. -/
theorem find_updateLedgerFields (db : Db) (id k : String) (entry : LedgerEntry) :
    (SignatureRepository.updateLedgerFields mac key db id entry).2.records.find k =
      (db.records.find k).map
        (SignatureRepository.rowAfter mac key · ⟨.updateLedgerFields id entry, db.fails⟩) := by
  cases hr : db.records.find k with
  | some r => exact SignatureRepository.find_updateLedgerFields_of_find hr id entry
  | none =>
    rw [Option.map_none, SignatureRepository.updateLedgerFields]
    split_ifs with hfailed
    · exact hr
    · -- The row that is written exists, so it is another one.
      have hne : k ≠ id := by
        rintro rfl
        exact hfailed (.inr hr)
      rw [SignatureRepository.find_recomputeIntegrityHmac_of_ne hne, Db.find_modify_of_ne hne]
      exact hr

theorem records_callback {t : Anchorage} {fails : Statement → Bool} {out : Option WorkerOutput}
    (hout : WorkerOutput.isCommit out = false) :
    (t.callback mac key fails out).records = t.db.records := by
  rcases out with _ | (id | ⟨record, e⟩ | event)
  · rfl
  · rfl
  · cases hout
  · rfl

theorem Matches.map {records records' : CS.KeyedTable SignatureRow.id}
    (h : Matches records rec) {f : SignatureRow → SignatureRow}
    (hfind : records'.find rec.recordId = (records.find rec.recordId).map f)
    (hf : ∀ r, (f r).evidence = r.evidence) : Matches records' rec := by
  obtain ⟨r, hr, hevidence⟩ := h
  exact ⟨f r, by rw [hfind, hr, Option.map_some], by rw [hf, hevidence]⟩

section

variable (h : s.Repairable) (ha : s.store.worker.anchorings[i]? = some a)
  (hs' : s'.store.worker.anchorings = s.store.worker.anchorings.set i a')
  (hrecord : a'.record = a.record) (hreplaying : s'.store.replaying = s.store.replaying)
  (hexclusive : s'.store.worker.Exclusive) (hworld : s'.world = s.world)
include h ha hs' hrecord hreplaying hexclusive hworld

/-- The ledger's answer is written to the row: now they agree. -/
theorem Repairable.write {e : LedgerEntry} (hplace : a.place = .committed e)
    (hanswer : a'.place.answer = none)
    (hdb : s'.store.db = s.store.callback mac key (fun _ => false) (some (.committed a.record e))) :
    s'.Repairable := by
  have hmem := List.mem_of_getElem? ha
  have hfind (k : String) : s'.store.db.records.find k = (s.store.db.records.find k).map
      (SignatureRepository.rowAfter mac key ·
        ⟨.updateLedgerFields a.record.recordId e, fun _ => false⟩) := by
    rw [hdb]
    exact find_updateLedgerFields (s.store.db.during fun _ => false) a.record.recordId k e
  have hmatches {rec : SignatureRecord} (hrec : Matches s.store.db.records rec) :
      Matches s'.store.db.records rec :=
    hrec.map (hfind _) fun r => (rowAfter_data r _).2
  refine ⟨?_, ?_, ?_, hexclusive, ?_, ?_⟩
  · intro id r' hr'
    rw [hfind, Option.map_eq_some_iff] at hr'
    obtain ⟨r, hr, rfl⟩ := hr'
    exact clean_of_data (h.clean id r hr) (rowAfter_data r _).1 (rowAfter_data r _).2
  · intro b hb
    rw [hs'] at hb
    rcases List.mem_or_eq_of_mem_set hb with hold | rfl
    · exact hmatches (h.submitted b hold)
    · exact hmatches (hrecord ▸ h.submitted a hmem)
  · rw [hreplaying]
    exact fun rec hrec => hmatches (h.loaded rec hrec)
  · intro b hb e' he'
    rw [hs'] at hb
    rw [hworld]
    rcases List.mem_or_eq_of_mem_set hb with hold | rfl
    · exact h.answers b hold e' he'
    · rw [hanswer] at he'
      cases he'
  · intro id r' hr' hcommitted
    rw [hfind, Option.map_eq_some_iff] at hr'
    obtain ⟨r, hr, rfl⟩ := hr'
    rw [hworld, (rowAfter_data r _).2]
    have hrid : r.id = id := SignatureRepository.id_of_find hr
    by_cases hid : a.record.recordId = id
    · -- The row of the submission has the transaction of the answer now.
      left
      obtain ⟨r₀, hr₀, hevidence⟩ := h.submitted a hmem
      rw [hid] at hr₀
      obtain rfl : r₀ = r := Option.mem_unique hr₀ hr
      have htx : (SignatureRepository.rowAfter mac key r₀
          ⟨.updateLedgerFields a.record.recordId e, fun _ => false⟩).ledgerTxId = e.txId :=
        SignatureRepository.ledgerTxId_rowAfter
          ⟨congrArg (RecordOp.updateLedgerFields · e) (hid.trans hrid.symm), rfl⟩
      rw [htx, ← hevidence, ← hid]
      exact h.answers a hmem e (by rw [hplace]; rfl)
    · have hsame : SignatureRepository.rowAfter mac key r
          ⟨.updateLedgerFields a.record.recordId e, fun _ => false⟩ = r := by
        refine SignatureRepository.rowAfter_of_not_writes fun entry hwrites => hid ?_
        exact (RecordOp.updateLedgerFields.inj hwrites.1).1.trans hrid
      rw [hsame] at hcommitted ⊢
      rcases h.rows id r hr hcommitted with hledger | hanswered
      · exact .inl hledger
      · exact .inr (hanswered.set ha hs' fun heq => absurd heq hid)

/-! ### One step -/

/-- A step of a submission without a word from the ledger, which may have committed its record. -/
theorem Repairable.advance_quiet {out : Option WorkerOutput}
    (hdb : s'.store.db = s.store.callback mac key (fun _ => false) out)
    (hhandles : LedgerWorker.Handles none a out a'.place) : s'.Repairable := by
  have hmem := List.mem_of_getElem? ha
  have hother : ∀ id ≠ a.record.recordId, s'.world id = s.world id := fun id _ => by rw [hworld]
  generalize hplace' : a'.place = place' at hhandles
  cases hhandles with
  | receives retries e hplace hentry => cases hentry
  | publishes e event hplace =>
    have hanswer : a'.place.answer = some e := by rw [hplace']; rfl
    refine h.move ha hs' hrecord ?_ hreplaying hexclusive hother (.inl hworld) ?_ ?_
    · rw [hdb, records_callback rfl]
    · intro e' he'
      obtain rfl := Option.mem_unique hanswer he'
      rw [hworld]
      exact h.answers a hmem e (by rw [hplace]; rfl)
    · intro r hr hcommitted
      right
      rw [← hrecord]
      exact answered_self ha hs' (by rw [hanswer]; simp)
  | passesOn e hplace =>
    exact h.write ha hs' hrecord hreplaying hexclusive hworld hplace (by rw [hplace']; rfl) hdb
  | none _ _ hbefore hafter hout hentry =>
    refine h.move ha hs' hrecord ?_ hreplaying hexclusive hother (.inl hworld) ?_ ?_
    · rw [hdb, records_callback hout]
    · intro e he
      rw [hplace', hafter] at he
      cases he
    · intro r hr hcommitted
      rw [hworld]
      exact (h.rows _ r hr hcommitted).imp_right fun hanswered =>
        hanswered.set ha hs' fun _ => hbefore

end

theorem Repairable.advance (h : s.Repairable) (pool : PoolAnswer) {outcome : SubmitOutcome}
    (now : Int) (hkeeps : s.Keeps (.advance i pool outcome now)) :
    (s.step mac key hsmInstance (.advance i pool outcome now)).2.Repairable := by
  rw [step]
  cases ha : s.store.worker.anchorings[i]? with
  | none => exact h
  | some a =>
    have hexclusive := @LedgerWorker.Exclusive.step hsmInstance _ h.exclusive
      (.advance i pool (s.submitFor a outcome).1 now)
    obtain ⟨a', hs', hrecord, hhandles⟩ :=
      @LedgerWorker.handles_advance hsmInstance _ i a ha pool (s.submitFor a outcome).1 now
    dsimp only
    rw [Anchorage.step]
    simp only [ha]
    rcases s.submitFor_cases a outcome with
      hquiet | ⟨retries, tx, world', hplace, rfl, hlost, hcommits⟩ |
      ⟨retries, tx, e, world', hplace, htx, hreported, hcommits⟩
    · rw [hquiet] at hexclusive hs' hhandles ⊢
      exact h.advance_quiet ha hs' hrecord rfl hexclusive rfl rfl hhandles
    · rw [hlost] at hexclusive hs' hhandles ⊢
      -- The row is not committed, so the ledger may have what it likes.
      have hrow := hkeeps a ha retries hplace
      obtain ⟨hafter, hout⟩ := hhandles.of_attempting hplace
      refine h.move ha hs' hrecord (records_callback hout) rfl hexclusive hcommits.other
        (.inr (by rw [hplace]; rfl)) ?_ ?_
      · intro e he
        cases hafter.symm.trans he
      · intro r hr hcommitted
        exact absurd ⟨r, hr, hcommitted⟩ hrow
    · rw [hreported] at hexclusive hs' hhandles ⊢
      obtain ⟨hafter, hout⟩ := hhandles.of_attempting hplace
      refine h.move ha hs' hrecord (records_callback hout) rfl hexclusive hcommits.other
        (.inr (by rw [hplace]; rfl)) ?_ ?_
      · intro e' he'
        obtain rfl := Option.mem_unique hafter he'
        rw [htx]
        exact hcommits.onLedger
      · -- The row may name an older transaction until the answer is written to it.
        intro r hr hcommitted
        right
        rw [← hrecord]
        exact answered_self ha hs' (by rw [hafter]; simp)

theorem Repairable.submit (h : s.Repairable) (hrec : Matches s.store.db.records rec) :
    ({ s with store := s.store.submit hsmInstance rec } : AnchoredStore).Repairable := by
  have hexclusive := @LedgerWorker.Exclusive.step hsmInstance _ h.exclusive (.submit rec)
  by_cases hrunning : s.store.worker.running = true
  · have hanchorings : (s.store.submit hsmInstance rec).worker.anchorings =
        s.store.worker.anchorings ++ [{ record := rec, place := .checked }] := by
      rw [Anchorage.submit, LedgerWorker.step]
      dsimp only
      rw [if_pos hrunning]
    refine ⟨h.clean, ?_, h.loaded, hexclusive, ?_, ?_⟩
    · intro a ha
      rw [hanchorings, List.mem_append, List.mem_singleton] at ha
      rcases ha with hold | rfl
      · exact h.submitted a hold
      · exact hrec
    · intro a ha e he
      rw [hanchorings, List.mem_append, List.mem_singleton] at ha
      rcases ha with hold | rfl
      · exact h.answers a hold e he
      · cases he
    · intro id r hr hcommitted
      refine (h.rows id r hr hcommitted).imp_right ?_
      rintro ⟨j, a, ha, hid, hanswer⟩
      refine ⟨j, a, ?_, hid, hanswer⟩
      rw [hanchorings, List.getElem?_append_left (List.getElem?_eq_some_iff.mp ha).1]
      exact ha
  · have hsame : s.store.submit hsmInstance rec = s.store := by
      rw [Anchorage.submit, LedgerWorker.step]
      dsimp only
      rw [if_neg hrunning]
    rw [hsame]
    exact h

/-- A new row is pending, so the ledger need not have it. -/
theorem Repairable.insert (h : s.Repairable) {r : SignatureRow}
    (hfind : ∀ k, s'.store.db.records.find k =
      if k = r.id then some r else s.store.db.records.find k)
    (hfresh : s.store.db.records.find r.id = none) (hpending : r.ledgerStatus = .pending)
    (hclean : r.Clean) (hworker : s'.store.worker = s.store.worker)
    (hreplaying : s'.store.replaying = s.store.replaying) (hworld : s'.world = s.world) :
    s'.Repairable := by
  -- A row that was there is found as before.
  have hkept {k : String} {x : SignatureRow} (hx : s.store.db.records.find k = some x) :
      s'.store.db.records.find k = some x := by
    rw [hfind, if_neg, hx]
    rintro rfl
    cases hfresh.symm.trans hx
  have hmatches {rec : SignatureRecord} (hrec : Matches s.store.db.records rec) :
      Matches s'.store.db.records rec := by
    obtain ⟨x, hx, hevidence⟩ := hrec
    exact ⟨x, hkept hx, hevidence⟩
  refine ⟨?_, ?_, ?_, hworker ▸ h.exclusive, ?_, ?_⟩
  · intro k x hx
    rw [hfind] at hx
    split_ifs at hx
    · cases hx
      exact hclean
    · exact h.clean k x hx
  · rw [hworker]
    exact fun a ha => hmatches (h.submitted a ha)
  · rw [hreplaying]
    exact fun rec hrec => hmatches (h.loaded rec hrec)
  · rw [hworker, hworld]
    exact h.answers
  · intro k x hx hcommitted
    rw [hfind] at hx
    split_ifs at hx
    · cases hx
      cases hpending.symm.trans hcommitted
    · rw [hworld, Answered, hworker]
      exact h.rows k x hx hcommitted

theorem Repairable.dispatch (h : s.Repairable) {rnd outboxId : Fin 16 → UInt8} {nowTicks : Int}
    {companion : Option Companion} {input : SignatureDispatchInput}
    (hkeeps : s.Keeps (.dispatch rnd outboxId nowTicks companion input)) :
    (s.step mac key hsmInstance
      (.dispatch rnd outboxId nowTicks companion input)).2.Repairable := by
  rw [step, Anchorage.step]
  dsimp only
  obtain hfalse | ⟨records, outbox, hinsert, -, htrue⟩ :=
    SignatureDispatcher.dispatch_cases mac key true (uuidV4 rnd) (uuidV4 outboxId) nowTicks companion
      input (s.store.db.during fun _ => false)
  · rw [hfalse]
    exact { h with }
  · rw [htrue, if_pos rfl, Option.elim_some]
    have hfind (k : String) := CS.KeyedTable.find_insert (k := k) hinsert
    have hfresh := CS.KeyedTable.find_eq_none_iff.mpr (CS.KeyedTable.insert_eq_some hinsert).1
    have hpending (hmac : String) : ((SignatureDispatcher.row (uuidV4 rnd) companion input).withHmac
      hmac).ledgerStatus = .pending := rfl
    have hinserted : ({ s with store := { s.store with db :=
        { s.store.db.during fun _ => false with records, outbox } } } : AnchoredStore).Repairable :=
      h.insert hfind hfresh (hpending _) hkeeps rfl rfl rfl
    refine hinserted.submit ?_
    exact ⟨_, (hfind _).trans (if_pos rfl), rfl⟩

theorem matches_recordOf (h : s.Repairable) {r : SignatureRow}
    (hr : r ∈ s.store.db.records.rows) : Matches s.store.db.records (recordOf r) := by
  have hfind := CS.KeyedTable.find_eq_some_iff.mpr ⟨hr, rfl⟩
  have hclean := h.clean r.id r hfind
  rw [SignatureRow.Clean] at hclean
  simp only [List.forall_mem_cons] at hclean
  obtain ⟨hid, hfingerprint, hdigest, hsig, -⟩ := hclean
  refine ⟨r, ?_, ?_⟩
  · rw [recordOf, readText_eq_self hid]
    exact hfind
  · rw [SignatureRecord.evidence, recordOf, readText_eq_self hfingerprint, readText_eq_self hdigest,
      readText_eq_self hsig, SignatureRow.evidence]

theorem Repairable.step (h : s.Repairable) (x : AnchoredStep) (hkeeps : s.Keeps x) :
    (s.step mac key hsmInstance x).2.Repairable := by
  cases x with
  | dispatch rnd outboxId nowTicks companion input => exact h.dispatch hkeeps
  | load =>
    refine { h with loaded := fun rec hrec => ?_ }
    rcases List.mem_append.mp hrec with hold | hnew
    · exact h.loaded rec hold
    · obtain ⟨r, hr, rfl⟩ := List.mem_map.mp hnew
      exact matches_recordOf h (List.mem_of_mem_filter hr)
  | replay i =>
    rw [AnchoredStore.step, Anchorage.step]
    cases hrec : s.store.replaying[i]? with
    | none => exact h
    | some rec =>
      have herased : ({ s with store := { s.store with
          replaying := s.store.replaying.eraseIdx i } } : AnchoredStore).Repairable :=
        { h with loaded := fun rec hmem => h.loaded rec (List.mem_of_mem_eraseIdx hmem) }
      exact herased.submit (h.loaded rec (List.mem_of_getElem? hrec))
  | advance i pool outcome now => exact h.advance pool now hkeeps
  | raise i =>
    have hexclusive := @LedgerWorker.Exclusive.step hsmInstance _ h.exclusive (.raise i)
    rw [AnchoredStore.step, Anchorage.step]
    rw [LedgerWorker.step] at hexclusive ⊢
    cases ha : s.store.worker.anchorings[i]? with
    | none => exact h
    | some a =>
      rw [ha, Option.elim_some, LedgerWorker.raiseFrom] at hexclusive
      dsimp only
      rw [Option.elim_some, LedgerWorker.raiseFrom]
      split_ifs at hexclusive ⊢
      · refine h.move ha rfl rfl rfl rfl hexclusive (fun _ _ => rfl) (.inl rfl) ?_ ?_
        · exact h.answers a (List.mem_of_getElem? ha)
        · intro r hr hcommitted
          rcases h.rows _ r hr hcommitted with hledger | ⟨j, b, hb, hid, hanswer⟩
          · exact .inl hledger
          · right
            by_cases hij : i = j
            · -- Only the flag has changed.
              subst hij
              obtain rfl := Option.mem_unique ha hb
              exact @answered_self s _ i a { a with raising := false } ha rfl hanswer
            · exact ⟨j, b, (List.getElem?_set_ne hij).trans hb, hid, hanswer⟩
      · exact h
  | drainAndStop =>
    exact { h with exclusive := @LedgerWorker.Exclusive.step hsmInstance _ h.exclusive .drainAndStop }
  | crash =>
    have hnone {p : Anchoring → Prop} (a : Anchoring) (ha : a ∈ []) : p a := by cases ha
    refine ⟨h.clean, hnone, fun _ hrec => absurd hrec List.not_mem_nil,
      LedgerWorker.exclusive_start 5, hnone, ?_⟩
    intro id r hr hcommitted
    rcases h.rows id r hr hcommitted with hledger | ⟨j, a, ha, rfl, hanswer⟩
    · exact .inl hledger
    · exact absurd ⟨r, hr, hcommitted⟩ (hkeeps a (List.mem_of_getElem? ha) hanswer)

/-! ### Whole runs -/

theorem repairable_start : Repairable { store := { db := { records := .empty } } } where
  clean id r hr := by cases hr
  submitted a ha := by cases ha
  loaded rec hrec := by cases hrec
  exclusive := LedgerWorker.exclusive_start 5
  answers a ha := by cases ha
  rows id r hr := by cases hr

/-- Nothing is under way, so nothing is left to repair. -/
theorem Repairable.agree (h : s.Repairable) (hquiescent : s.store.worker.Quiescent) : s.Agree := by
  intro id r hr hcommitted
  rcases h.rows id r hr hcommitted with hledger | ⟨j, a, ha, -, hanswer⟩
  · exact hledger
  · rw [(hquiescent a (List.mem_of_getElem? ha)).1] at hanswer
    exact absurd rfl hanswer

/-- From an empty table and an empty ledger, rows and ledger agree in every state in which nothing is
under way, as long as no answer for a row that is committed already gets lost. -/
theorem agree_of_keeps {steps : List AnchoredStep}
    (h : CS.Guarded (step mac key hsmInstance) Keeps
      { store := { db := { records := .empty } } } steps) :
    CS.Always (step mac key hsmInstance) (fun s => s.store.worker.Quiescent → s.Agree)
      { store := { db := { records := .empty } } } steps :=
  (h.always (fun _ x hs hx => hs.step x hx) repairable_start).imp fun _ hs => hs.agree

/-- Submission `i` goes on, and does not reach the ledger. -/
def goOn (i : Nat) : AnchoredStep := .advance i .accepted .never 0

/-- A signature is dispatched, and its record handed to the pool. -/
def dispatchFirst : List AnchoredStep :=
  .dispatch (fun _ => 1) (fun _ => 2) 0 none SignatureDispatcher.someInput ::
    List.replicate 3 (goOn 0)

/-- Its task reaches the ledger, and the row is written. -/
def anchorFirst : List AnchoredStep :=
  [goOn 0, .advance 0 .accepted (.reported { id := "t1" } 1) 0, goOn 0, goOn 0, goOn 0, .raise 0]

theorem agree_anchorFirst :
    let s := CS.run (step .toy [1] "") { store := { db := { records := .empty } } }
      (dispatchFirst ++ anchorFirst)
    (s.store.db.records.find (uuidV4 fun _ => 1)).map (·.ledgerStatus) = some .committed ∧
      s.Agree := by
  intro s
  have hquiescent : s.store.worker.Quiescent := by decide +kernel
  have hclean : (SignatureDispatcher.row (uuidV4 fun _ => 1) none SignatureDispatcher.someInput).Clean := by
    unfold SignatureRow.Clean
    decide +kernel
  refine ⟨by decide +kernel, ?_⟩
  have hkeeps : CS.Guarded (step .toy [1] "") Keeps { store := { db := { records := .empty } } }
      (dispatchFirst ++ anchorFirst) :=
    ⟨hclean, trivial, trivial, trivial, trivial, trivial, trivial, trivial, trivial, trivial, trivial⟩
  exact (agree_of_keeps hkeeps).last hquiescent

/-- The record is loaded while its row is pending, and submitted after its row was committed. -/
def lateReplay : List AnchoredStep :=
  dispatchFirst ++ [.load] ++ anchorFirst ++ [.replay 0] ++ List.replicate 4 (goOn 1) ++
    [.advance 1 .accepted (.lost { id := "t2" }) 0] ++ List.replicate 7 (goOn 1) ++ [.raise 1]

/-- Nothing is under way, the row names one transaction and the ledger another. -/
theorem not_agree_lateReplay :
    let s := CS.run (step .toy [1] "") { store := { db := { records := .empty } } } lateReplay
    s.store.worker.Quiescent ∧ ¬ s.Agree := by
  intro s
  refine ⟨by decide +kernel, fun h => ?_⟩
  have hrow : (s.store.db.records.find (uuidV4 fun _ => 1)).map
      (fun r => (r.ledgerStatus, r.ledgerTxId)) = some (.committed, "t1") := by decide +kernel
  have hledger : ((SignatureLedger.getRecord s.world (uuidV4 fun _ => 1)).toOption.map (·.txId)) =
      some "t2" := by decide +kernel
  obtain ⟨r, hr, hfields⟩ := Option.map_eq_some_iff.mp hrow
  simp only [Prod.mk.injEq] at hfields
  obtain ⟨rec, hrec, htx, -⟩ := h _ r hr hfields.1
  rw [hrec] at hledger
  have htx' : rec.txId = "t2" := Option.some.inj hledger
  rw [htx', hfields.2] at htx
  exact absurd htx (by decide)

end AnchoredStore

end VirtualHsm
