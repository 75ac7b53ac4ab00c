import VirtualHsm.Ledger.LedgerWorker
import VirtualHsm.SignatureStore.RowHistory

/-!
# The retry queue

Records whose row is pending are submitted to the ledger again after a restart, and when an
administrator asks for it. A record that the ledger worker has accepted should not be among them: the
worker tells the store as soon as it accepts one, and the store marks the row.

The mark is a status that the table's constraint does not admit. The statement fails, the failure is
ignored, and the row stays pending until the ledger has answered and the answer is written.
-/

namespace VirtualHsm

/-! ### Loading -/

namespace LedgerRetryQueue

/-- A record as it is read back from its row. What the table does not have is left at its default. -/
def recordOf (r : SignatureRow) : SignatureRecord where
  recordId := readText r.id
  createdAt := r.createdAt
  keyFingerprint := readText r.keyFingerprint
  payloadDigest := readText r.payloadDigest
  signatureB64 := readText r.signatureB64

/-- `load_pending_records`: a failed query reads as an empty table. -/
def loadPendingRecords (fails : Bool) (db : Db) : List SignatureRecord :=
  if fails then [] else (db.records.rows.filter (·.ledgerStatus = .pending)).map recordOf

/-- An identifier is loaded. -/
def Loads (db : Db) (id : String) : Prop :=
  ∃ rec ∈ loadPendingRecords false db, rec.recordId = id

instance (db : Db) (id : String) : Decidable (Loads db id) :=
  inferInstanceAs (Decidable (∃ rec ∈ loadPendingRecords false db, rec.recordId = id))

variable {db db' : Db} {id : String}

theorem loads_iff : Loads db id ↔
    ∃ r ∈ db.records.rows, r.ledgerStatus = .pending ∧ readText r.id = id := by
  simp [Loads, loadPendingRecords, recordOf, and_assoc]

theorem Loads.of_find (h : Loads db' id)
    (hfind : ∀ k r', db'.records.find k = some r' →
      ∃ r, db.records.find k = some r ∧ (r'.ledgerStatus = .pending → r.ledgerStatus = .pending)) :
    Loads db id := by
  obtain ⟨r', hr', hpending, hid⟩ := loads_iff.mp h
  obtain ⟨r, hr, hstatus⟩ := hfind r'.id r' (CS.KeyedTable.find_eq_some_iff.mpr ⟨hr', rfl⟩)
  obtain ⟨hmem, hkey⟩ := CS.KeyedTable.find_eq_some_iff.mp hr
  exact loads_iff.mpr ⟨r, hmem, hstatus hpending, hkey ▸ hid⟩

end LedgerRetryQueue

/-! ### The worker and the store -/

/-- The database, the ledger worker of the process, and the records that were loaded to be submitted
again. -/
structure Anchorage where
  db : Db
  worker : LedgerWorker := { running := true }
  replaying : List SignatureRecord := []
  /-- The records that the worker has accepted and whose processing has not ended in failure. -/
  held : Finset String := ∅

inductive AnchorageStep
  /-- A signature is dispatched, with the random bytes that it draws. -/
  | dispatch (fails : Statement → Bool) (id outboxId : Fin 16 → UInt8) (nowTicks : Int)
      (companion : Option Companion) (input : SignatureDispatchInput)
  /-- The pending records are loaded, after a start or for an administrator. -/
  | load (fails : Bool)
  /-- One of them is submitted. -/
  | replay (i : Nat)
  /-- A submission goes on. -/
  | advance (i : Nat) (pool : PoolAnswer) (entry : Option LedgerEntry) (now : Int)
      (fails : Statement → Bool)
  /-- The call that made a submission counts it as pending. -/
  | raise (i : Nat)
  | drainAndStop
  /-- The process dies and is started again. -/
  | crash

namespace Anchorage

open LedgerRetryQueue

variable (mac : Hmac) (key : Bytes) (hsmInstance : String) (s : Anchorage)

/-- The callbacks that the worker is wired to. -/
def callback (fails : Statement → Bool) : Option WorkerOutput → Db
  | some (.processing id) => (SignatureRepository.call mac key s.db ⟨.markProcessing id, fails⟩).2
  | some (.committed record entry) =>
    (SignatureRepository.call mac key s.db ⟨.updateLedgerFields record.recordId entry, fails⟩).2
  | some (.publish _) | none => s.db

/-- The held records after a step of a submission. -/
def heldAfter (a : Anchoring) (pool : PoolAnswer) : Finset String :=
  match a.place, pool with
  | .marked, .accepted => insert a.record.recordId s.held
  | .closing false, _ => s.held.erase a.record.recordId
  | _, _ => s.held

/-- Hand a record to the worker. -/
def submit (record : SignatureRecord) : Anchorage :=
  { s with worker := (s.worker.step hsmInstance (.submit record)).2 }

/-- One step, with whether it went through. -/
def step : AnchorageStep → Bool × Anchorage
  | .dispatch fails id outboxId nowTicks companion input =>
    let out := SignatureDispatcher.dispatch mac key true (uuidV4 id) (uuidV4 outboxId) nowTicks
      companion input (s.db.during fails)
    (out.1, out.2.1.elim { s with db := out.2.2 } ({ s with db := out.2.2 }.submit hsmInstance))
  | .load fails => (true, { s with replaying := s.replaying ++ loadPendingRecords fails s.db })
  | .replay i =>
    match s.replaying[i]? with
    | none => (false, s)
    | some record =>
      (true, { s with replaying := s.replaying.eraseIdx i }.submit hsmInstance record)
  | .advance i pool entry now fails =>
    match s.worker.anchorings[i]? with
    | none => (false, s)
    | some a =>
      let out := s.worker.step hsmInstance (.advance i pool entry now)
      (true, { s with
        db := s.callback mac key fails out.1, worker := out.2, held := s.heldAfter a pool })
  | .raise i => (true, { s with worker := (s.worker.step hsmInstance (.raise i)).2 })
  | .drainAndStop => (true, { s with worker := (s.worker.step hsmInstance .drainAndStop).2 })
  -- What the process knew is gone; what it accepted is not.
  | .crash => (true, { db := s.db, held := s.held })

/-- No record that is held is loaded. -/
def NotReplayed : Prop := ∀ id ∈ s.held, ¬ Loads s.db id

instance : Decidable s.NotReplayed := inferInstanceAs (Decidable (∀ id ∈ s.held, _))

/-- A record is accepted only while its row is not pending, and no row is inserted under the
identifier of a held record. -/
def KeepsApart : AnchorageStep → Prop
  | .dispatch fails id outboxId nowTicks companion input =>
    (s.step mac key hsmInstance (.dispatch fails id outboxId nowTicks companion input)).1 = true →
      uuidV4 id ∉ s.held
  | .advance i pool _ _ _ =>
    ∀ a ∈ s.worker.anchorings[i]?, a.place = .marked → pool = .accepted →
      ¬ Loads s.db a.record.recordId
  | .load _ | .replay _ | .raise _ | .drainAndStop | .crash => True

variable {mac key hsmInstance} {s}

/-! ### One step -/

/-- What the repository leaves of the rows: their status only ever changes to committed. -/
theorem find_of_find_updateLedgerFields {db : Db} {id k : String} {entry : LedgerEntry}
    {r' : SignatureRow}
    (hr' : (SignatureRepository.updateLedgerFields mac key db id entry).2.records.find k = some r') :
    ∃ r, db.records.find k = some r ∧ (r'.ledgerStatus = .pending → r.ledgerStatus = .pending) := by
  unfold SignatureRepository.updateLedgerFields at hr'
  split_ifs at hr' with hfailed
  · exact ⟨r', hr', fun h => h⟩
  by_cases hk : k = id
  · subst hk
    obtain ⟨r, hr⟩ := Option.ne_none_iff_exists'.mp (not_or.mp hfailed).2
    have hwritten : (db.modify k (·.withLedger entry) fun r => r.id_withLedger entry).records.find k =
        some (r.withLedger entry) := by
      rw [Db.find_modify, hr, Option.map_some]
    rw [SignatureRepository.find_recomputeIntegrityHmac hwritten, Option.some.injEq] at hr'
    -- The row has been written, whether or not its hash was.
    have hcommitted : r'.ledgerStatus = .committed := by
      rw [← hr']
      split_ifs <;> rfl
    exact ⟨r, hr, fun hpending => by rw [hcommitted] at hpending; cases hpending⟩
  · rw [SignatureRepository.find_recomputeIntegrityHmac_of_ne hk, Db.find_modify_of_ne hk] at hr'
    exact ⟨r', hr', fun h => h⟩

theorem loads_of_callback {fails : Statement → Bool} {out : Option WorkerOutput} {id : String}
    (h : Loads (s.callback mac key fails out) id) : Loads s.db id := by
  rcases out with _ | (id' | ⟨record, entry⟩ | event)
  · exact h
  · exact h
  · refine h.of_find fun k r' hr' => ?_
    obtain ⟨r, hr, hstatus⟩ := @find_of_find_updateLedgerFields mac key (s.db.during fails)
      record.recordId k entry r' hr'
    exact ⟨r, hr, hstatus⟩
  · exact h

theorem loads_dispatch_iff {fails : Statement → Bool} {rnd outboxId : Fin 16 → UInt8}
    {nowTicks : Int} {companion : Option Companion} {input : SignatureDispatchInput} {db : Db}
    {id : String} :
    let out := SignatureDispatcher.dispatch mac key true (uuidV4 rnd) (uuidV4 outboxId) nowTicks
      companion input (db.during fails)
    Loads out.2.2 id ↔ Loads db id ∨ (out.1 = true ∧ id = uuidV4 rnd) := by
  dsimp only
  obtain hfalse | ⟨records, outbox, hinsert, -, htrue⟩ :=
    SignatureDispatcher.dispatch_cases mac key true (uuidV4 rnd) (uuidV4 outboxId) nowTicks companion
      input (db.during fails)
  · rw [hfalse]
    simp only [Bool.false_eq_true, false_and, or_false]
    exact Iff.rfl
  · rw [htrue]
    have hrows := (CS.KeyedTable.insert_eq_some hinsert).2
    -- The new row is pending, and a query returns its identifier whole.
    rw [loads_iff, loads_iff]
    simp only [hrows, List.mem_append, List.mem_singleton, or_and_right, exists_or, exists_eq_left,
      true_and]
    refine or_congr Iff.rfl ?_
    change (LedgerStatus.pending = .pending ∧ readText (uuidV4 rnd) = id) ↔ _
    rw [readText_eq_self (notMem_uuidV4 rnd)]
    exact ⟨fun h => h.2.symm, fun h => ⟨rfl, h.symm⟩⟩

theorem heldAfter_subset {a : Anchoring} {pool : PoolAnswer}
    (ha : ¬ (a.place = .marked ∧ pool = .accepted)) : s.heldAfter a pool ⊆ s.held := by
  unfold heldAfter
  split
  · next hplace => exact absurd ⟨hplace, rfl⟩ ha
  · exact Finset.erase_subset _ _
  · exact subset_rfl

/-- A step keeps the held records apart from the loaded ones exactly when it inserts no row under a
held identifier and accepts no record whose row is pending. -/
theorem notReplayed_step_iff (h : s.NotReplayed) (a : AnchorageStep) :
    (s.step mac key hsmInstance a).2.NotReplayed ↔ s.KeepsApart mac key hsmInstance a := by
  cases a with
  | dispatch fails rnd outboxId nowTicks companion input =>
    have hnext : (s.step mac key hsmInstance
        (.dispatch fails rnd outboxId nowTicks companion input)).2.NotReplayed ↔
        ∀ id ∈ s.held, ¬ Loads (SignatureDispatcher.dispatch mac key true (uuidV4 rnd)
          (uuidV4 outboxId) nowTicks companion input (s.db.during fails)).2.2 id := by
      rw [step]
      dsimp only
      -- Whether the worker is told changes neither the rows nor what is held.
      cases (SignatureDispatcher.dispatch mac key true (uuidV4 rnd) (uuidV4 outboxId) nowTicks
        companion input (s.db.during fails)).2.1 <;> exact Iff.rfl
    rw [hnext, KeepsApart]
    simp only [loads_dispatch_iff, not_or, not_and]
    constructor
    · intro hall hok hmem
      exact (hall _ hmem).2 hok rfl
    · intro hapart id hid
      exact ⟨h id hid, fun hok heq => hapart hok (heq ▸ hid)⟩
  | load fails | raise i | drainAndStop | crash => exact iff_of_true h trivial
  | replay i =>
    refine iff_of_true ?_ trivial
    rw [step]
    split
    · exact h
    · exact h
  | advance i pool entry now fails =>
    rw [step, KeepsApart]
    cases ha : s.worker.anchorings[i]? with
    | none => exact iff_of_true h fun a hmem => by cases hmem
    | some a =>
      by_cases haccept : a.place = .marked ∧ pool = .accepted
      · obtain ⟨record, place, raising⟩ := a
        obtain ⟨rfl, rfl⟩ := haccept
        -- Nothing is written in this step; the record is held from now on.
        have hout : (s.worker.step hsmInstance (.advance i .accepted entry now)).1 = none := by
          rw [LedgerWorker.step, ha]
          rfl
        dsimp only
        rw [hout]
        change (∀ id ∈ insert record.recordId s.held, ¬ Loads s.db id) ↔ _
        rw [Finset.forall_mem_insert]
        constructor
        · rintro ⟨hrecord, -⟩ b hb - -
          cases hb
          exact hrecord
        · intro hapart
          exact ⟨hapart _ rfl rfl rfl, h⟩
      · refine iff_of_true ?_ ?_
        · intro id hid hloads
          exact h id (heldAfter_subset haccept hid) (loads_of_callback hloads)
        · intro b hb hplace hpool
          cases hb
          exact absurd ⟨hplace, hpool⟩ haccept

/-! ### Whole runs -/

/-- Along a run from any database, no held record is loaded exactly when every record had no pending
row as it was accepted, and none was inserted for it later. -/
theorem notReplayed_always_iff (db : Db) (steps : List AnchorageStep) :
    CS.Always (step mac key hsmInstance) NotReplayed { db } steps ↔
      CS.Guarded (step mac key hsmInstance) (KeepsApart mac key hsmInstance) { db } steps :=
  CS.always_iff_guarded (fun _ a h => notReplayed_step_iff h a)
    fun id hid => absurd hid (Finset.notMem_empty id)

/-- The first submission goes on until the pool has its task; nothing fails. -/
def acceptFirst : List AnchorageStep :=
  List.replicate 3 (.advance 0 .accepted none 0 fun _ => false)

/-- A signature is dispatched and its record accepted. -/
def dispatched : List AnchorageStep :=
  .dispatch (fun _ => false) (fun _ => 1) (fun _ => 2) 0 none SignatureDispatcher.someInput :: acceptFirst

/-- The record is in flight, and is loaded. After a crash it is loaded, submitted and accepted a
second time. -/
theorem not_notReplayed_dispatched :
    ¬ (CS.run (step .toy [1] "") { db := { records := .empty } } dispatched).NotReplayed ∧
    (CS.run (step .toy [1] "") { db := { records := .empty } }
      (dispatched ++ [.crash, .load false, .replay 0] ++ acceptFirst)).worker.anchorings.map
        (fun a => (a.record.recordId, a.place)) = [(uuidV4 fun _ => 1, .queued)] := by
  decide +kernel

end Anchorage

end VirtualHsm
