import Mathlib.Data.Finset.Erase
import Mathlib.Data.Finset.Insert
import VirtualHsm.CS.Run
import VirtualHsm.CS.Threads
import VirtualHsm.Ledger.LedgerClient
import VirtualHsm.Notification.BoundedNotificationBus

/-!
# The ledger worker

Records are anchored on the threads of a pool. The identifiers of the records under way are kept in
a set, and a record whose identifier is in the set is dropped as a duplicate.

The identifier leaves the set when the task that anchors the record ends. A record that the pool does
not take has no such task: its identifier stays in the set, and every later submission of the record
is dropped.

A record is counted as pending only after the pool has its task, which may have ended by then. The
count can be negative in between; it is right again when nothing is under way.
-/

namespace VirtualHsm

/-- What the pool makes of a task. -/
inductive PoolAnswer
  | accepted
  /-- The queue is full. -/
  | refused
  /-- The pool is stopping. -/
  | threw
  deriving DecidableEq, Repr

/-- Where a submission stands, in `submit_record` and then in `process_record`. -/
inductive AnchorPlace
  /-- The worker was running. -/
  | checked
  /-- The identifier is in the set; the store is not told yet. -/
  | inserted
  /-- Before the task is handed to the pool. -/
  | marked
  /-- The task waits in the pool. -/
  | queued
  /-- Before an attempt, after so many retries. -/
  | attempting (retries : Nat)
  /-- The ledger has the record; it is still counted as pending. -/
  | counted (entry : LedgerEntry)
  /-- The ledger has the record; the store is not told yet. -/
  | committed (entry : LedgerEntry)
  /-- The last attempt has failed; that is not counted yet. -/
  | failing
  /-- The end of `process_record` after a commit, and after a failure. -/
  | closing (success : Bool)
  /-- The submission is over. -/
  | ended
  deriving DecidableEq, Repr

/-- The submission is between its duplicate check and the end of its processing. -/
def AnchorPlace.active : AnchorPlace → Bool
  | inserted | marked | queued | attempting _ | counted _ | committed _ | failing | closing _ => true
  | checked | ended => false

/-- The pool has not been asked yet. -/
def AnchorPlace.entering : AnchorPlace → Bool
  | checked | inserted | marked => true
  | queued | attempting _ | counted _ | committed _ | failing | closing _ | ended => false

/-- The submission is in `process_record`. -/
def AnchorPlace.running : AnchorPlace → Bool
  | attempting _ | counted _ | committed _ | failing | closing _ => true
  | checked | inserted | marked | queued | ended => false

/-- The ledger's answer that is being worked off. -/
def AnchorPlace.answer : AnchorPlace → Option LedgerEntry
  | counted e | committed e => some e
  | checked | inserted | marked | queued | attempting _ | failing | closing _ | ended => none

/-- A submission of a record. -/
structure Anchoring where
  record : SignatureRecord
  place : AnchorPlace
  /-- The pool has the task, and the call that submitted it has yet to raise the pending count. -/
  raising : Bool := false
  deriving DecidableEq, Repr

/-- One for the submissions of an identifier that are under way. -/
def Anchoring.activeFor (id : String) (a : Anchoring) : Nat :=
  if a.place.active ∧ a.record.recordId = id then 1 else 0

/-- One until the outcome of the submission is counted. -/
def Anchoring.unsettled (a : Anchoring) : Nat :=
  match a.place with
  | .inserted | .marked | .queued | .attempting _ | .failing => 1
  | .checked | .counted _ | .committed _ | .closing _ | .ended => 0

/-- One while the task is to lower the pending count. -/
def Anchoring.lowering (a : Anchoring) : Nat :=
  match a.place with
  | .queued | .attempting _ | .counted _ => 1
  | .checked | .inserted | .marked | .committed _ | .failing | .closing _ | .ended => 0

structure LedgerWorker where
  running : Bool := false
  maxRetries : Int := 5
  /-- `in_flight_`. -/
  inFlight : Finset String := ∅
  anchorings : List Anchoring := []
  committedCount : Int64 := 0
  failedCount : Int64 := 0
  pendingCount : Int64 := 0

/-- What a step does outside of the worker. -/
inductive WorkerOutput
  /-- The callback for a record that enters the in-flight state. -/
  | processing (recordId : String)
  /-- The callback for a record that the ledger has. -/
  | committed (record : SignatureRecord) (entry : LedgerEntry)
  | publish (event : NotificationEvent)
  deriving DecidableEq, Repr

/-- The step passes a commit on to the store. -/
def WorkerOutput.isCommit : Option WorkerOutput → Bool
  | some (.committed _ _) => true
  | some (.processing _) | some (.publish _) | none => false

inductive WorkerStep
  | start
  | drainAndStop
  /-- A thread calls `submit_record`. -/
  | submit (record : SignatureRecord)
  /-- A submission goes on, with the answers of the pool and the ledger where it asks them. -/
  | advance (i : Nat) (pool : PoolAnswer) (entry : Option LedgerEntry) (now : Int)
  /-- The call that made a submission raises the pending count. -/
  | raise (i : Nat)

namespace LedgerWorker

variable (hsmInstance : String) (s : LedgerWorker)

/-- `publish_committed`. -/
def committedEvent (now : Int) (record : SignatureRecord) (entry : LedgerEntry) :
    NotificationEvent where
  type := .ledgerCommitted
  severity := .info
  timestamp := now
  source := "LedgerWorker"
  actor := "system"
  summary := "Record anchored to ledger: " ++ record.recordId
  detailJson := "\x7b\"record_id\":\"" ++ record.recordId ++ "\",\"ledger_tx_id\":\"" ++ entry.txId ++
    "\",\"ledger_block_num\":" ++ toString entry.blockNumber ++ "\x7d"
  hsmInstance

/-- `publish_failed`. -/
def failedEvent (now : Int) (record : SignatureRecord) : NotificationEvent where
  type := .ledgerCommitFailed
  severity := .warning
  timestamp := now
  source := "LedgerWorker"
  actor := "system"
  summary := "Failed to anchor record: " ++ record.recordId
  detailJson := "\x7b\x7d"
  hsmInstance

/-- Submission `i` moves. -/
def move (i : Nat) (a : Anchoring) (place : AnchorPlace) : LedgerWorker :=
  { s with anchorings := s.anchorings.set i { a with place } }

/-- The next step of a submission. -/
def advanceFrom (i : Nat) (pool : PoolAnswer) (entry : Option LedgerEntry) (now : Int)
    (a : Anchoring) : Option WorkerOutput × LedgerWorker :=
  match a.place with
  | .checked =>
    if a.record.recordId ∈ s.inFlight then (none, s.move i a .ended)
    else
      (none, { s.move i a .inserted with inFlight := insert a.record.recordId s.inFlight })
  | .inserted => (some (.processing a.record.recordId), s.move i a .marked)
  | .marked =>
    match pool with
    -- From here on the task can run; the pending count is raised by another step.
    | .accepted => (none, s.move i { a with raising := true } .queued)
    -- The record is reported as failed, and that is all.
    | .refused | .threw =>
      (some (.publish (failedEvent hsmInstance now a.record)),
        { s.move i a .ended with failedCount := s.failedCount + 1 })
  | .queued => (none, s.move i a (.attempting 0))
  | .attempting retries =>
    match entry with
    | some e =>
      (none, { s.move i a (.counted e) with committedCount := s.committedCount + 1 })
    | none =>
      if s.running = false ∨ s.maxRetries ≤ retries then
        (none, { s.move i a .failing with pendingCount := s.pendingCount - 1 })
      else (none, s.move i a (.attempting (retries + 1)))
  | .counted e =>
    (some (.publish (committedEvent hsmInstance now a.record e)),
      { s.move i a (.committed e) with pendingCount := s.pendingCount - 1 })
  | .committed e => (some (.committed a.record e), s.move i a (.closing true))
  | .failing =>
    (some (.publish (failedEvent hsmInstance now a.record)),
      { s.move i a (.closing false) with failedCount := s.failedCount + 1 })
  | .closing _ =>
    (none, { s.move i a .ended with inFlight := s.inFlight.erase a.record.recordId })
  | .ended => (none, s)

/-- `++pending_count_` in `submit_record`, once for each task that the pool has taken. -/
def raiseFrom (i : Nat) (a : Anchoring) : LedgerWorker :=
  if a.raising then
    { s with
      anchorings := s.anchorings.set i { a with raising := false }
      pendingCount := s.pendingCount + 1 }
  else s

def step : WorkerStep → Option WorkerOutput × LedgerWorker
  | .start => (none, { s with running := true })
  | .drainAndStop => (none, { s with running := false })
  | .submit record =>
    (none,
      if s.running then { s with anchorings := s.anchorings ++ [{ record, place := .checked }] }
      else s)
  | .advance i pool entry now =>
    s.anchorings[i]?.elim (none, s) fun a => s.advanceFrom hsmInstance i pool entry now a
  | .raise i => (none, s.anchorings[i]?.elim s fun a => s.raiseFrom i a)

/-- The number of submissions of an identifier that are under way. -/
def activeCount (id : String) : Nat := CS.total (Anchoring.activeFor id) s.anchorings

/-- The set holds exactly the identifiers of the submissions under way. -/
def Exact : Prop := ∀ id, id ∈ s.inFlight ↔
  ∃ a ∈ s.anchorings, a.place.active = true ∧ a.record.recordId = id

/-- The pool takes the task, if one is handed to it. -/
def Accepts : WorkerStep → Prop
  | .advance i pool _ _ => ∀ a ∈ s.anchorings[i]?, a.place = .marked → pool = .accepted
  | .start | .drainAndStop | .submit _ | .raise _ => True

/-- Of each identifier at most one submission is under way, and only with the identifier in the
set. -/
def Exclusive : Prop := ∀ id, s.activeCount id ≤ 1 ∧ (0 < s.activeCount id → id ∈ s.inFlight)

/-- Nothing is under way: no call of `submit_record`, and no task. -/
def Quiescent : Prop := ∀ a ∈ s.anchorings, a.place = .ended ∧ a.raising = false

instance : Decidable s.Quiescent := inferInstanceAs (Decidable (∀ a ∈ s.anchorings, _))

/-- A submission passes the duplicate check. -/
def passes : WorkerStep → Bool
  | .advance i _ _ _ =>
    s.anchorings[i]?.any fun a => a.place = .checked ∧ a.record.recordId ∉ s.inFlight
  | .start | .drainAndStop | .submit _ | .raise _ => false

/-- After `n` submissions that passed the duplicate check, the counters are what they should be, up to
what the submissions under way have yet to do. -/
structure Tallied (n : Nat) : Prop where
  entering : ∀ a ∈ s.anchorings, a.place.entering = true → a.raising = false
  counts : ∃ (committed failed : Nat) (pending : Int),
    s.committedCount = .ofNat committed ∧ s.failedCount = .ofNat failed ∧
    s.pendingCount = .ofInt pending ∧
    committed + failed + CS.total Anchoring.unsettled s.anchorings = n ∧
    pending + CS.total (·.raising.toNat) s.anchorings = CS.total Anchoring.lowering s.anchorings

variable {hsmInstance s} {s' : LedgerWorker} {i n n' : Nat} {a a' : Anchoring} {id : String}

theorem activeCount_pos_iff : 0 < s.activeCount id ↔
    ∃ a ∈ s.anchorings, a.place.active = true ∧ a.record.recordId = id := by
  rw [activeCount, CS.total_pos_iff]
  refine exists_congr fun a => and_congr_right fun _ => ?_
  unfold Anchoring.activeFor
  split_ifs with h
  · exact iff_of_true Nat.zero_lt_one h
  · exact iff_of_false (Nat.lt_irrefl 0) h

theorem exact_iff : s.Exact ↔ ∀ id, id ∈ s.inFlight ↔ 0 < s.activeCount id :=
  forall_congr' fun _ => iff_congr Iff.rfl activeCount_pos_iff.symm

/-! ### One step -/

theorem activeFor_of_active (hactive : a.place.active = true) (id : String) :
    Anchoring.activeFor id a = if id = a.record.recordId then 1 else 0 := by
  simp only [Anchoring.activeFor, hactive, true_and, eq_comm]

theorem activeFor_of_inactive (hactive : a.place.active = false) (id : String) :
    Anchoring.activeFor id a = 0 := by
  simp [Anchoring.activeFor, hactive]

/-- What a step can do to the set and to the counts while the pool takes every task. -/
inductive SetEffect (s s' : LedgerWorker) : Prop
  /-- Nothing enters or leaves. -/
  | same (hset : s'.inFlight = s.inFlight) (hcount : ∀ id, s'.activeCount id = s.activeCount id)
  /-- A submission passes the duplicate check. -/
  | enters (id : String) (hnew : id ∉ s.inFlight) (hset : s'.inFlight = insert id s.inFlight)
      (hcount : ∀ id', s'.activeCount id' = s.activeCount id' + if id' = id then 1 else 0)
  /-- A submission ends, and its identifier leaves the set. -/
  | leaves (id : String) (hset : s'.inFlight = s.inFlight.erase id)
      (hcount : ∀ id', s'.activeCount id' + (if id' = id then 1 else 0) = s.activeCount id')

theorem setEffect_set (ha : s.anchorings[i]? = some a) (hs' : s'.anchorings = s.anchorings.set i a')
    (hactive : a'.place.active = a.place.active) (hrecord : a'.record = a.record)
    (hset : s'.inFlight = s.inFlight) : SetEffect s s' := by
  refine .same hset fun id => ?_
  have hmove := CS.total_set (Anchoring.activeFor id) ha a'
  simp only [Anchoring.activeFor, hactive, hrecord] at hmove
  rw [activeCount, hs', activeCount]
  exact Nat.add_right_cancel hmove

theorem setEffect_of_accepts {w : WorkerStep} (hw : s.Accepts w) :
    SetEffect s (s.step hsmInstance w).2 := by
  cases w with
  | start | drainAndStop => exact .same rfl fun _ => rfl
  | submit record =>
    rw [step]
    split_ifs
    · -- A new submission is not under way before its duplicate check.
      refine .same rfl fun id => ?_
      change CS.total _ (s.anchorings ++ [_]) = _
      rw [CS.total_concat, activeFor_of_inactive rfl]
      rfl
    · exact .same rfl fun _ => rfl
  | advance i pool entry now =>
    rw [step]
    cases ha : s.anchorings[i]? with
    | none => exact .same rfl fun _ => rfl
    | some a =>
      obtain ⟨record, place, raising⟩ := a
      rw [Option.elim_some]
      unfold advanceFrom
      cases place with
      | checked =>
        dsimp only
        split_ifs with hmem
        · exact setEffect_set ha rfl rfl rfl rfl
        · refine .enters record.recordId hmem rfl fun id => ?_
          have hmove := CS.total_set (Anchoring.activeFor id) ha ⟨record, .inserted, raising⟩
          rw [activeFor_of_inactive rfl, activeFor_of_active rfl] at hmove
          exact hmove
      | inserted | queued | counted e | committed e
      | failing => exact setEffect_set ha rfl rfl rfl rfl
      | marked =>
        obtain rfl : pool = .accepted := hw _ ha rfl
        exact setEffect_set ha rfl rfl rfl rfl
      | attempting retries =>
        dsimp only
        split
        · exact setEffect_set ha rfl rfl rfl rfl
        · split_ifs
          all_goals exact setEffect_set ha rfl rfl rfl rfl
      | closing success =>
        refine .leaves record.recordId rfl fun id => ?_
        have hmove := CS.total_set (Anchoring.activeFor id) ha ⟨record, .ended, raising⟩
        rw [activeFor_of_active rfl, activeFor_of_inactive rfl] at hmove
        exact hmove
      | ended => exact .same rfl fun _ => rfl
  | raise i =>
    rw [step]
    cases ha : s.anchorings[i]? with
    | none => exact .same rfl fun _ => rfl
    | some a =>
      rw [Option.elim_some, raiseFrom]
      split_ifs
      · exact setEffect_set ha rfl rfl rfl rfl
      · exact .same rfl fun _ => rfl

theorem strands_of_not_accepts {w : WorkerStep} (hw : ¬ s.Accepts w) :
    ∃ id, (s.step hsmInstance w).2.inFlight = s.inFlight ∧
      ∀ id', (s.step hsmInstance w).2.activeCount id' + (if id' = id then 1 else 0) =
        s.activeCount id' := by
  cases w with
  | start | drainAndStop | submit record | raise i => exact absurd trivial hw
  | advance i pool entry now =>
    simp only [Accepts, Option.mem_def, not_forall] at hw
    obtain ⟨⟨record, place, raising⟩, ha, rfl, hpool⟩ := hw
    refine ⟨record.recordId, ?_⟩
    rw [step, ha, Option.elim_some]
    unfold advanceFrom
    -- Both answers leave the set as it is.
    cases pool with
    | accepted => exact absurd rfl hpool
    | refused | threw =>
      refine ⟨rfl, fun id => ?_⟩
      have hmove := CS.total_set (Anchoring.activeFor id) ha ⟨record, .ended, raising⟩
      rw [activeFor_of_active rfl, activeFor_of_inactive rfl] at hmove
      exact hmove

/-- Whatever the pool does, submissions of one identifier exclude each other. -/
theorem Exclusive.step (h : s.Exclusive) (w : WorkerStep) : (s.step hsmInstance w).2.Exclusive := by
  intro id
  obtain ⟨hone, hmem⟩ := h id
  by_cases hw : s.Accepts w
  · rcases @setEffect_of_accepts hsmInstance s w hw with
      ⟨hset, hcount⟩ | ⟨new, hnew, hset, hcount⟩ | ⟨old, hset, hcount⟩
    · rw [hset, hcount]
      exact ⟨hone, hmem⟩
    · -- The identifier was not in the set, so nothing was under way for it.
      rw [hset, hcount, Finset.mem_insert]
      split_ifs with heq
      · have hzero : ¬ 0 < s.activeCount id := fun hpos => hnew (heq ▸ hmem hpos)
        exact ⟨by omega, fun _ => .inl heq⟩
      · exact ⟨hone, fun hpos => .inr (hmem hpos)⟩
    · have hold := hcount id
      rw [hset, Finset.mem_erase]
      split_ifs at hold with heq
      · exact ⟨by omega, fun hpos => by omega⟩
      · exact ⟨by omega, fun hpos => ⟨heq, hmem (by omega)⟩⟩
  · obtain ⟨old, hset, hcount⟩ := @strands_of_not_accepts hsmInstance s w hw
    have hold := hcount id
    rw [hset]
    exact ⟨by omega, fun hpos => hmem (by omega)⟩

/-- A step keeps the set exact exactly when the pool takes the task. -/
theorem exact_step_iff (h : s.Exclusive) (hexact : s.Exact) (w : WorkerStep) :
    (s.step hsmInstance w).2.Exact ↔ s.Accepts w := by
  rw [exact_iff] at hexact ⊢
  constructor
  · intro hnext
    by_contra hw
    obtain ⟨old, hset, hcount⟩ := @strands_of_not_accepts hsmInstance s w hw
    have hold := hcount old
    have hone := (h old).1
    rw [if_pos rfl] at hold
    -- The identifier is still in the set, and no submission of it is under way.
    have hmem : old ∈ (s.step hsmInstance w).2.inFlight :=
      hset ▸ (hexact old).mpr (by omega)
    have hpos := (hnext old).mp hmem
    omega
  · intro hw id
    rcases @setEffect_of_accepts hsmInstance s w hw with
      ⟨hset, hcount⟩ | ⟨new, hnew, hset, hcount⟩ | ⟨old, hset, hcount⟩
    · rw [hset, hcount]
      exact hexact id
    · rw [hset, hcount, Finset.mem_insert, hexact id]
      split_ifs with heq
      · exact iff_of_true (.inl heq) (Nat.succ_pos _)
      · simp [heq]
    · have hold := hcount id
      have hone := (h id).1
      rw [hset, Finset.mem_erase, hexact id]
      by_cases heq : id = old
      · rw [if_pos heq] at hold
        refine iff_of_false (fun hmem => hmem.1 heq) ?_
        omega
      · rw [if_neg heq, Nat.add_zero] at hold
        rw [hold]
        exact and_iff_right heq

/-! ### What a step does with the ledger's answer -/

/-- What a step of a submission hands out and where it leads, by what becomes of the ledger's
answer. -/
inductive Handles (entry : Option LedgerEntry) (a : Anchoring) :
    Option WorkerOutput → AnchorPlace → Prop
  | receives (retries : Nat) (e : LedgerEntry) (hplace : a.place = .attempting retries)
      (hentry : entry = some e) : Handles entry a none (.counted e)
  | publishes (e : LedgerEntry) (event : NotificationEvent) (hplace : a.place = .counted e) :
      Handles entry a (some (.publish event)) (.committed e)
  | passesOn (e : LedgerEntry) (hplace : a.place = .committed e) :
      Handles entry a (some (.committed a.record e)) (.closing true)
  /-- There is no answer, before or after. -/
  | none (out : Option WorkerOutput) (place : AnchorPlace) (hbefore : a.place.answer = Option.none)
      (hafter : place.answer = Option.none) (hout : WorkerOutput.isCommit out = false)
      (hentry : ∀ retries, a.place = .attempting retries → entry = Option.none) :
      Handles entry a out place

/-- After an attempt the submission has what the ledger answered, and the store is not told yet. -/
theorem Handles.of_attempting {entry : Option LedgerEntry} {out : Option WorkerOutput}
    {place : AnchorPlace} {retries : Nat} (h : Handles entry a out place)
    (ha : a.place = .attempting retries) :
    place.answer = entry ∧ WorkerOutput.isCommit out = false := by
  cases h with
  | receives retries e hplace hentry => exact ⟨hentry.symm, rfl⟩
  | publishes e event hplace | passesOn e hplace => cases ha.symm.trans hplace
  | none _ _ hbefore hafter hout hentry => exact ⟨hafter.trans (hentry retries ha).symm, hout⟩

/-- A step of a submission moves it and no other one. -/
theorem handles_advance (ha : s.anchorings[i]? = some a) (pool : PoolAnswer)
    (entry : Option LedgerEntry) (now : Int) :
    ∃ a', (s.step hsmInstance (.advance i pool entry now)).2.anchorings = s.anchorings.set i a' ∧
      a'.record = a.record ∧
      Handles entry a (s.step hsmInstance (.advance i pool entry now)).1 a'.place := by
  rw [step, ha, Option.elim_some]
  obtain ⟨record, place, raising⟩ := a
  unfold advanceFrom
  cases place with
  | checked =>
    dsimp only
    split_ifs
    all_goals exact ⟨_, rfl, rfl, .none _ _ rfl rfl rfl nofun⟩
  | inserted | queued | failing
  | closing success => exact ⟨_, rfl, rfl, .none _ _ rfl rfl rfl nofun⟩
  | marked =>
    cases pool with
    | accepted | refused | threw => exact ⟨_, rfl, rfl, .none _ _ rfl rfl rfl nofun⟩
  | attempting retries =>
    cases entry with
    | some e => exact ⟨_, rfl, rfl, .receives retries e rfl rfl⟩
    | none =>
      dsimp only
      split_ifs
      all_goals exact ⟨_, rfl, rfl, .none _ _ rfl rfl rfl fun _ _ => rfl⟩
  | counted e => exact ⟨_, rfl, rfl, .publishes e _ rfl⟩
  | committed e => exact ⟨_, rfl, rfl, .passesOn e rfl⟩
  | ended =>
    refine ⟨⟨record, .ended, raising⟩, ?_, rfl, .none _ _ rfl rfl rfl nofun⟩
    obtain ⟨hi, heq⟩ := List.getElem?_eq_some_iff.mp ha
    change s.anchorings = _
    rw [← heq, List.set_getElem_self]

/-! ### The counters -/

/-- A submission moves, and the counters change as its part in them does. -/
theorem Tallied.set (h : s.Tallied n) (ha : s.anchorings[i]? = some a)
    (hs' : s'.anchorings = s.anchorings.set i a') (dcommitted dfailed : Nat) (dpending : Int)
    (hcommitted : s'.committedCount = s.committedCount + .ofNat dcommitted)
    (hfailed : s'.failedCount = s.failedCount + .ofNat dfailed)
    (hpending : s'.pendingCount = s.pendingCount + .ofInt dpending)
    (hentering : a'.place.entering = true → a'.raising = false)
    (hsettles : dcommitted + dfailed + a'.unsettled + n = n' + a.unsettled)
    (hlowers : dpending + a'.raising.toNat + a.lowering = a.raising.toNat + a'.lowering) :
    s'.Tallied n' := by
  obtain ⟨committed, failed, pending, hc, hf, hp, htotal, hbalance⟩ := h.counts
  have hunsettled := CS.total_set Anchoring.unsettled ha a'
  have hraising := CS.total_set (fun a : Anchoring => a.raising.toNat) ha a'
  have hlowering := CS.total_set Anchoring.lowering ha a'
  constructor
  · intro b hb
    rw [hs'] at hb
    rcases List.mem_or_eq_of_mem_set hb with hold | rfl
    · exact h.entering b hold
    · exact hentering
  refine ⟨committed + dcommitted, failed + dfailed, pending + dpending, ?_, ?_, ?_, ?_, ?_⟩
  · rw [hcommitted, hc, Int64.ofNat_add]
  · rw [hfailed, hf, Int64.ofNat_add]
  · rw [hpending, hp, Int64.ofInt_add]
  · rw [hs']
    omega
  · rw [hs']
    omega

/-- A submission moves without a change of the counters. -/
theorem Tallied.set_same (h : s.Tallied n) (ha : s.anchorings[i]? = some a)
    (hs' : s'.anchorings = s.anchorings.set i a')
    (hcommitted : s'.committedCount = s.committedCount) (hfailed : s'.failedCount = s.failedCount)
    (hpending : s'.pendingCount = s.pendingCount)
    (hentering : a'.place.entering = true → a'.raising = false)
    (hsettles : a'.unsettled + n = n' + a.unsettled)
    (hlowers : a'.raising.toNat + a.lowering = a.raising.toNat + a'.lowering) : s'.Tallied n' :=
  h.set ha hs' 0 0 0 (by simp [hcommitted]) (by simp [hfailed]) (by simp [hpending]) hentering
    (by omega) (by omega)

theorem sub_one_eq (x : Int64) : x - 1 = x + .ofInt (-1) := by
  have hneg : (-1 : Int64) = .ofInt (-1) := by decide
  rw [Int64.sub_eq_add_neg, hneg]

theorem Tallied.advance (h : s.Tallied n) (ha : s.anchorings[i]? = some a) (pool : PoolAnswer)
    (entry : Option LedgerEntry) (now : Int) :
    (s.advanceFrom hsmInstance i pool entry now a).2.Tallied
      (n + (decide (a.place = .checked ∧ a.record.recordId ∉ s.inFlight)).toNat) := by
  have hentering := h.entering a (List.mem_of_getElem? ha)
  obtain ⟨record, place, raising⟩ := a
  unfold advanceFrom
  cases place with
  | checked =>
    by_cases hmem : record.recordId ∈ s.inFlight
    · simp only [hmem, if_true, not_true_eq_false, and_false, decide_false]
      exact h.set_same ha rfl rfl rfl rfl nofun (Nat.add_comm 0 n) rfl
    · simp only [hmem, if_false, not_false_eq_true, and_true, decide_true]
      exact h.set_same ha rfl rfl rfl rfl hentering (Nat.add_comm 1 n) rfl
  | inserted => exact h.set_same ha rfl rfl rfl rfl hentering (Nat.add_comm 1 n) rfl
  | marked =>
    obtain rfl : raising = false := hentering rfl
    cases pool with
    | accepted => exact h.set_same ha rfl rfl rfl rfl nofun (Nat.add_comm 1 n) rfl
    | refused | threw =>
      exact h.set ha rfl 0 1 0 (by simp [move]) rfl (by simp [move]) nofun (Nat.add_comm 1 n) rfl
  | queued => exact h.set_same ha rfl rfl rfl rfl nofun (Nat.add_comm 1 n) rfl
  | attempting retries =>
    dsimp only
    split
    · exact h.set ha rfl 1 0 0 rfl (by simp [move]) (by simp [move]) nofun (Nat.add_comm 1 n)
        (by rw [Int.zero_add]; rfl)
    · split_ifs
      · -- The count is lowered before the failure is counted.
        exact h.set ha rfl 0 0 (-1) (by simp [move]) (by simp [move]) (sub_one_eq _)
          nofun (by simp [Anchoring.unsettled, Nat.add_comm]) (by simp [Anchoring.lowering])
      · exact h.set_same ha rfl rfl rfl rfl nofun (Nat.add_comm 1 n) rfl
  | counted e =>
    exact h.set ha rfl 0 0 (-1) (by simp [move]) (by simp [move]) (sub_one_eq _) nofun
      (by simp [Anchoring.unsettled]) (by simp [Anchoring.lowering])
  | committed e
  | closing success => exact h.set_same ha rfl rfl rfl rfl nofun (Nat.add_comm 0 n) rfl
  | failing =>
    exact h.set ha rfl 0 1 0 (by simp [move]) rfl (by simp [move]) nofun (Nat.add_comm 1 n)
      (by rw [Int.zero_add]; rfl)
  | ended => exact h

theorem Tallied.step (h : s.Tallied n) (w : WorkerStep) :
    (s.step hsmInstance w).2.Tallied (n + (s.passes w).toNat) := by
  cases w with
  | start | drainAndStop => exact ⟨h.entering, h.counts⟩
  | submit record =>
    rw [LedgerWorker.step]
    dsimp only
    split_ifs
    · -- A new submission has nothing to count yet.
      obtain ⟨committed, failed, pending, hc, hf, hp, htotal, hbalance⟩ := h.counts
      refine ⟨?_, committed, failed, pending, hc, hf, hp, ?_, ?_⟩
      · intro b hb
        rcases List.mem_append.mp hb with hold | hnew
        · exact h.entering b hold
        · rw [List.mem_singleton.mp hnew]
          exact fun _ => rfl
      · rw [CS.total_concat]
        exact htotal
      · rw [CS.total_concat, CS.total_concat]
        exact hbalance
    · exact h
  | advance i pool entry now =>
    rw [LedgerWorker.step, passes]
    cases ha : s.anchorings[i]? with
    | none => exact h
    | some a => exact h.advance ha pool entry now
  | raise i =>
    rw [LedgerWorker.step]
    cases ha : s.anchorings[i]? with
    | none => exact h
    | some a =>
      rw [Option.elim_some, raiseFrom]
      dsimp only
      split_ifs with hraising
      · refine h.set ha rfl 0 0 1 (by simp) (by simp) rfl (fun _ => rfl) ?_ ?_
        · change 0 + 0 + a.unsettled + n = n + 0 + a.unsettled
          omega
        · rw [hraising]
          rfl
      · exact h

theorem Tallied.settled (h : s.Tallied n) (hquiet : s.Quiescent) :
    s.pendingCount = 0 ∧ s.committedCount + s.failedCount = .ofNat n ∧
      (n < 2 ^ 63 → s.committedCount.toInt + s.failedCount.toInt = n) := by
  obtain ⟨committed, failed, pending, hc, hf, hp, htotal, hbalance⟩ := h.counts
  have hzero {f : Anchoring → Nat} (hended : ∀ a, a.place = .ended → a.raising = false → f a = 0) :
      CS.total f s.anchorings = 0 := by
    by_contra hne
    obtain ⟨a, ha, hpos⟩ := CS.total_pos_iff.mp (Nat.pos_of_ne_zero hne)
    obtain ⟨hplace, hraising⟩ := hquiet a ha
    exact hpos.ne' (hended a hplace hraising)
  have hunsettled : CS.total Anchoring.unsettled s.anchorings = 0 :=
    hzero fun a hplace _ => by rw [Anchoring.unsettled, hplace]
  have hraising : CS.total (fun a : Anchoring => a.raising.toNat) s.anchorings = 0 :=
    hzero fun a _ hraising => by rw [hraising]; rfl
  have hlowering : CS.total Anchoring.lowering s.anchorings = 0 :=
    hzero fun a hplace _ => by rw [Anchoring.lowering, hplace]
  refine ⟨?_, ?_, fun hlt => ?_⟩
  · have hpending : pending = 0 := by omega
    rw [hp, hpending]
    rfl
  · have hsum : committed + failed = n := by omega
    rw [hc, hf, ← Int64.ofNat_add, hsum]
  · rw [hc, hf, Int64.toInt_ofNat_of_lt (by omega), Int64.toInt_ofNat_of_lt (by omega)]
    omega

theorem tallied_run (maxRetries : Int) (steps : List WorkerStep) :
    (CS.run (LedgerWorker.step hsmInstance) { maxRetries } steps).Tallied
      (CS.occurrences (LedgerWorker.step hsmInstance) passes { maxRetries } steps) := by
  have hstart : Tallied { maxRetries } 0 := ⟨by simp, 0, 0, 0, rfl, rfl, rfl, rfl, rfl⟩
  refine CS.run_history (fun done s => Tallied s
    (CS.occurrences (LedgerWorker.step hsmInstance) passes { maxRetries } done)) ?_ hstart steps
  intro done w h
  rw [CS.occurrences_concat]
  exact h.step w

/-- Two tasks for one record do not run at the same time. -/
theorem Exclusive.eq_of_running (h : s.Exclusive) {j : Nat} {b : Anchoring}
    (ha : s.anchorings[i]? = some a) (hb : s.anchorings[j]? = some b)
    (hrunning : a.place.running = true) (hrunning' : b.place.running = true)
    (hid : a.record.recordId = b.record.recordId) : i = j := by
  have hactive {c : Anchoring} (hc : c.place.running = true)
      (hcid : c.record.recordId = a.record.recordId) :
      0 < Anchoring.activeFor a.record.recordId c := by
    have hplace : c.place.active = true := by
      cases hplace : c.place <;> simp_all [AnchorPlace.running, AnchorPlace.active]
    rw [activeFor_of_active hplace, if_pos hcid.symm]
    exact Nat.zero_lt_one
  exact CS.eq_of_total_le_one (h a.record.recordId).1 ha hb (hactive hrunning rfl)
    (hactive hrunning' hid.symm)

/-! ### Whole runs -/

theorem exclusive_start (maxRetries : Int) : Exclusive { maxRetries } := fun _ =>
  ⟨Nat.zero_le _, fun hpos => absurd hpos (Nat.lt_irrefl 0)⟩

/-- Whenever nothing is under way, no record is pending and every submission that passed the duplicate
check is counted once, as committed or as failed; and at no time do two tasks anchor one record. -/
theorem settled_and_exclusive (maxRetries : Int) (steps : List WorkerStep) :
    let s := CS.run (step hsmInstance) { maxRetries } steps
    let n := CS.occurrences (step hsmInstance) passes { maxRetries } steps
    (s.Quiescent → s.pendingCount = 0 ∧ s.committedCount + s.failedCount = .ofNat n ∧
      (n < 2 ^ 63 → s.committedCount.toInt + s.failedCount.toInt = n)) ∧
    ∀ (i j : Nat) (a b : Anchoring), s.anchorings[i]? = some a → s.anchorings[j]? = some b →
      a.place.running = true → b.place.running = true → a.record.recordId = b.record.recordId →
      i = j := by
  intro s n
  have hreach : CS.Reachable (step hsmInstance) { maxRetries } s := ⟨steps, rfl⟩
  have hexclusive : s.Exclusive :=
    hreach.invariant (fun _ w h => h.step w) (exclusive_start maxRetries)
  refine ⟨(tallied_run maxRetries steps).settled, ?_⟩
  intro i j a b ha hb hrunning hrunning' hid
  exact hexclusive.eq_of_running ha hb hrunning hrunning' hid

/-- A record. -/
def someRecord : SignatureRecord :=
  { recordId := "r", createdAt := 1, keyFingerprint := "f", payloadDigest := "00", signatureB64 := "AQ==" }

/-- A submission of the record up to the pool's answer. -/
def submission (i : Nat) (pool : PoolAnswer) : List WorkerStep :=
  [.submit someRecord, .advance i pool none 0, .advance i pool none 0, .advance i pool none 0]

/-- The task of a record has ended before the call that submitted it counts it as pending. -/
def lateRaise : List WorkerStep :=
  .start :: submission 0 .accepted ++
    List.replicate 5 (.advance 0 .accepted (some ⟨"r", "f", "00", "AQ==", 1, "tx", 7⟩) 0) ++ [.raise 0]

/-- The pending count is below zero in between. -/
theorem settled_lateRaise :
    (CS.run (step "") { maxRetries := 5 } lateRaise.dropLast).pendingCount = -1 ∧
    (CS.run (step "") { maxRetries := 5 } lateRaise).pendingCount = 0 ∧
    (CS.run (step "") { maxRetries := 5 } lateRaise).committedCount +
      (CS.run (step "") { maxRetries := 5 } lateRaise).failedCount = 1 := by
  obtain ⟨hpending, hcounts, -⟩ := (@settled_and_exclusive "" 5 lateRaise).1 (by decide +kernel)
  exact ⟨by decide +kernel, hpending, hcounts⟩

/-- For every number of retries, the set is exact in every state of a run exactly when the pool takes
every task of the run. -/
theorem exact_always_iff (maxRetries : Int) (steps : List WorkerStep) :
    CS.Always (step hsmInstance) Exact { maxRetries } steps ↔
      CS.Guarded (step hsmInstance) Accepts { maxRetries } steps := by
  have hexact : Exact { maxRetries } := fun id =>
    iff_of_false (Finset.notMem_empty id) fun ⟨_, ha, _⟩ => List.not_mem_nil ha
  exact CS.always_iff_guarded_of_invariant (fun _ w h => h.step w)
    (fun _ w h hs => exact_step_iff h hs w) (exclusive_start maxRetries) hexact

/-- Once the set is exact, a record without a submission under way passes the duplicate check. -/
theorem inserted_of_exact (hexact : s.Exact) (ha : s.anchorings[i]? = some a)
    (hchecked : a.place = .checked)
    (hfree : ∀ b ∈ s.anchorings, b.place.active = true → b.record.recordId ≠ a.record.recordId)
    (pool : PoolAnswer) (entry : Option LedgerEntry) (now : Int) :
    (s.step hsmInstance (.advance i pool entry now)).2.anchorings[i]? =
      some { a with place := .inserted } := by
  have hnew : a.record.recordId ∉ s.inFlight := fun hmem => by
    obtain ⟨b, hb, hactive, hid⟩ := (hexact _).mp hmem
    exact hfree b hb hactive hid
  have hi : i < s.anchorings.length := (List.getElem?_eq_some_iff.mp ha).1
  obtain ⟨record, place, raising⟩ := a
  obtain rfl : place = .checked := hchecked
  rw [step, ha, Option.elim_some]
  unfold advanceFrom
  dsimp only
  rw [if_neg hnew]
  exact List.getElem?_set_self hi

/-- The pool is full when the record is submitted. Its identifier stays in the set, and when it is
submitted again it is dropped before the pool is asked. -/
theorem not_exact_refused : let s := CS.run (step "") {} (.start :: submission 0 .refused)
    ¬ s.Exact ∧ (∀ a ∈ s.anchorings, a.place = .ended) ∧
      (CS.run (step "") s (submission 1 .accepted)).anchorings.map (·.place) = [.ended, .ended] ∧
      CS.answers (step "") s (submission 1 .accepted) = [none, none, none, none] := by
  refine ⟨fun hexact => ?_, by decide +kernel, by decide +kernel, by decide +kernel⟩
  obtain ⟨a, ha, hactive, -⟩ := (hexact "r").mp (by decide +kernel)
  revert a
  decide +kernel

end LedgerWorker

end VirtualHsm
