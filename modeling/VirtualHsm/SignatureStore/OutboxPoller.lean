import Mathlib.Data.List.Sort
import VirtualHsm.Notification.BoundedNotificationBus
import VirtualHsm.SignatureStore.RowHistory

/-!
# The outbox

The dispatcher writes an event next to every signature, in the same transaction. A poller reads the
events that wait, marks them as dispatched in one statement, and then publishes them one after the
other on the notification bus.

Marking comes first, so nothing is published twice. What is marked and not yet published is gone
after a crash, a whole batch at a time; and the bus drops what it has no room for.
-/

namespace VirtualHsm

/-! ### The table of events -/

namespace OutboxEvent

/-- The events of a batch are marked in one statement. -/
def markDispatched (ids : List String) (t : CS.KeyedTable OutboxEvent.id) :
    CS.KeyedTable OutboxEvent.id :=
  t.updateWhere (·.id ∈ ids) (fun r => { r with status := .dispatched }) fun _ => rfl

/-- The events to be published next: the oldest 32 that wait. -/
def pendingRows (t : CS.KeyedTable OutboxEvent.id) : List OutboxEvent :=
  ((t.rows.filter (·.status = .pending)).insertionSort fun a b => a.createdAt ≤ b.createdAt).take 32

def dispatchedIds (t : CS.KeyedTable OutboxEvent.id) : List String :=
  (t.rows.filter (·.status = .dispatched)).map (·.id)

variable {t t' : CS.KeyedTable OutboxEvent.id} {ids : List String} {id : String} {r : OutboxEvent}

theorem mem_dispatchedIds :
    id ∈ dispatchedIds t ↔ ∃ r ∈ t.rows, r.status = .dispatched ∧ r.id = id := by
  simp only [dispatchedIds, List.mem_map, List.mem_filter, decide_eq_true_eq, and_assoc]

theorem nodup_dispatchedIds (t : CS.KeyedTable OutboxEvent.id) : (dispatchedIds t).Nodup :=
  t.nodup.sublist (List.filter_sublist.map _)

theorem mem_pendingRows (hr : r ∈ pendingRows t) : r ∈ t.rows ∧ r.status = .pending := by
  have hmem := (List.mem_insertionSort _).mp (List.mem_of_mem_take hr)
  simpa using hmem

theorem nodup_pendingRows (t : CS.KeyedTable OutboxEvent.id) :
    ((pendingRows t).map (·.id)).Nodup := by
  have hfiltered : ((t.rows.filter (·.status = .pending)).map (·.id)).Nodup :=
    t.nodup.sublist (List.filter_sublist.map _)
  have hsorted := ((List.perm_insertionSort (fun a b : OutboxEvent => a.createdAt ≤ b.createdAt)
    (t.rows.filter (·.status = .pending))).map (·.id)).nodup_iff.mpr hfiltered
  exact hsorted.sublist ((List.take_sublist _ _).map _)

theorem dispatchedIds_insert (hinsert : t.insert r = some t') (hr : r.status = .pending) :
    dispatchedIds t' = dispatchedIds t := by
  rw [dispatchedIds, (CS.KeyedTable.insert_eq_some hinsert).2, List.filter_append]
  simp [hr, dispatchedIds]

/-- Marking events that wait adds exactly them to those dispatched. -/
theorem dispatchedIds_markDispatched (hnodup : ids.Nodup)
    (hpending : ∀ id ∈ ids, ∃ r ∈ t.rows, r.id = id ∧ r.status = .pending) :
    (dispatchedIds (markDispatched ids t)).Perm (dispatchedIds t ++ ids) := by
  have hdisjoint : ∀ id ∈ dispatchedIds t, id ∉ ids := by
    intro id hdispatched hid
    obtain ⟨r, hr, hstatus, rfl⟩ := mem_dispatchedIds.mp hdispatched
    obtain ⟨r', hr', heq, hstatus'⟩ := hpending _ hid
    -- One identifier names one row, and its status is not both.
    obtain rfl : r' = r := List.inj_on_of_nodup_map t.nodup hr' hr heq
    rw [hstatus] at hstatus'
    cases hstatus'
  refine (List.perm_ext_iff_of_nodup (nodup_dispatchedIds _) ?_).mpr fun id => ?_
  · refine List.nodup_append.mpr ⟨nodup_dispatchedIds t, hnodup, ?_⟩
    rintro a ha b hb rfl
    exact hdisjoint a ha hb
  rw [List.mem_append, mem_dispatchedIds, mem_dispatchedIds]
  constructor
  · rintro ⟨r', hr', hstatus, rfl⟩
    obtain ⟨r, hr, rfl⟩ := List.mem_map.mp hr'
    split_ifs at hstatus ⊢ with hid
    · exact .inr hid
    · exact .inl ⟨r, hr, hstatus, rfl⟩
  · rintro (⟨r, hr, hstatus, rfl⟩ | hid)
    · -- Marking a second time would change nothing.
      refine ⟨_, List.mem_map_of_mem hr, ?_, ?_⟩ <;> split_ifs <;> first | rfl | exact hstatus
    · obtain ⟨r, hr, rfl, -⟩ := hpending id hid
      exact ⟨_, List.mem_map_of_mem hr, by rw [if_pos hid], by rw [if_pos hid]⟩

end OutboxEvent

/-! ### The poller -/

/-- An event for the bus, with the identifier of its row. -/
structure Pending where
  id : String
  ev : NotificationEvent
  deriving DecidableEq, Repr

/-- Where the poller stands in `poll_once`. -/
inductive Poll
  | idle
  /-- The rows were read and the events built. -/
  | selected (pending : List Pending)
  /-- The rows are marked, and these events are still to be published. -/
  | publishing (pending : List Pending)
  deriving DecidableEq, Repr

/-- The events that are marked and not yet published. -/
def Poll.unpublished : Poll → List Pending
  | .idle | .selected _ => []
  | .publishing pending => pending

/-- The publish loop with these events left. -/
def Poll.publishLoop : List Pending → Poll
  | [] => .idle
  | pending => .publishing pending

theorem Poll.unpublished_publishLoop (pending : List Pending) :
    (Poll.publishLoop pending).unpublished = pending := by
  cases pending <;> rfl

/-- The event built from a row as a query returns it. -/
def Pending.ofRow (hsmInstance : String) (now : Int) (r : OutboxEvent) : Pending where
  id := readText r.id
  ev :=
    { type := if readText r.eventType = "DB_WRITE_FAILED" then .dbWriteFailed else .signCreated
      severity := .info
      timestamp := now
      source := "outbox:" ++ readText r.id
      actor := "system"
      summary := "Outbox replay: " ++ readText r.eventType ++ " " ++ readText r.id
      detailJson := readText r.payload
      hsmInstance }

/-- What the dispatcher publishes when its transaction fails. -/
def SignatureDispatcher.failureEvent (hsmInstance : String) (now : Int)
    (input : SignatureDispatchInput) : NotificationEvent where
  type := .dbWriteFailed
  severity := .critical
  timestamp := now
  source := "slot:" ++ toString input.slotId ++ "/token:" ++ bytesText input.tokenLabel
  actor := input.userLabel.getD "UNKNOWN"
  summary := "Failed to write signature record to DB"
  detailJson := "\x7b\x7d"
  hsmInstance

structure Outbox where
  db : Db
  poll : Poll := .idle
  bus : BoundedNotificationBus
  /-- The poller's calls of `publish` so far, and whether the bus queued the event. -/
  published : List (Pending × Bool) := []
  /-- The number of crashes so far. -/
  crashes : Nat := 0

inductive OutboxStep
  /-- A transaction of the dispatcher, with the random bytes that it draws. -/
  | dispatch (fails worker : Bool) (id outboxId : Fin 16 → UInt8) (nowTicks : Int)
      (companion : Option Companion) (input : SignatureDispatchInput)
  /-- The poller reads the events that wait, each at its time. -/
  | query (fails : Bool) (now : String → Int)
  /-- The poller marks what it has read. -/
  | update (fails : Bool)
  /-- The poller publishes its next event. -/
  | publish
  /-- Another producer publishes an event. -/
  | publishOther (event : NotificationEvent)
  /-- The consumer asks for an event. -/
  | tryPop
  /-- The process dies and is started again. -/
  | crash

namespace Outbox

/-- A new process on a database without events. -/
def start (records : CS.KeyedTable SignatureRow.id) (capacity : Nat) : Outbox where
  db := { records }
  bus := .construct capacity

variable (mac : Hmac) (key : Bytes) (hsmInstance : String)

/-- One step, with whether it went through. A step that is not up is skipped. -/
def step (s : Outbox) : OutboxStep → Bool × Outbox
  | .dispatch fails worker id outboxId nowTicks companion input =>
    let out := SignatureDispatcher.dispatch mac key worker (uuidV4 id) (uuidV4 outboxId) nowTicks
      companion input (s.db.during fun _ => fails)
    let event := SignatureDispatcher.failureEvent hsmInstance nowTicks input
    (out.1, { s with db := out.2.2, bus := if out.1 then s.bus else (s.bus.publish event).2 })
  | .query fails now =>
    match s.poll with
    | .idle =>
      let rows := OutboxEvent.pendingRows s.db.outbox
      -- A query that throws, and one without rows, end the poll.
      if fails ∨ rows = [] then (!fails, s)
      else
        (true, { s with
          poll := .selected (rows.map fun r => .ofRow hsmInstance (now r.id) r) })
    | .selected _ | .publishing _ => (false, s)
  | .update fails =>
    match s.poll with
    | .selected pending =>
      if fails then (false, { s with poll := .idle })
      else
        let outbox := OutboxEvent.markDispatched (pending.map (·.id)) s.db.outbox
        (true, { s with db := { s.db with outbox }, poll := .publishLoop pending })
    | .idle | .publishing _ => (false, s)
  | .publish =>
    match s.poll.unpublished with
    | [] => (false, s)
    | p :: rest =>
      let out := s.bus.publish p.ev
      (out.1, { s with
        bus := out.2
        published := s.published ++ [(p, out.1)]
        poll := .publishLoop rest })
  | .publishOther event => ((s.bus.publish event).1, { s with bus := (s.bus.publish event).2 })
  | .tryPop => (s.bus.tryPop.1.isSome, { s with bus := s.bus.tryPop.2 })
  | .crash =>
    -- The database stays; the poller's batch and the queue are gone.
    (true, { s with poll := .idle, bus := .construct s.bus.capacity, crashes := s.crashes + 1 })

variable (s : Outbox)

def publishedIds : List String := s.published.map (·.1.id)

/-- The events that the bus queued. -/
def acceptedIds : List String := (s.published.filter (·.2)).map (·.1.id)

def unpublishedIds : List String := s.poll.unpublished.map (·.id)

def dispatchedIds : List String := OutboxEvent.dispatchedIds s.db.outbox

/-- The number of rows marked as dispatched whose event the bus never queued. -/
def lost : Nat := (s.dispatchedIds.filter (· ∉ s.acceptedIds)).length

/-- The step commits a transaction that inserts the event with this identifier. -/
def Commits (id : String) (s : Outbox) : OutboxStep → Prop
  | .dispatch fails worker rnd outboxId nowTicks companion input =>
    uuidV4 outboxId = id ∧
      (step mac key hsmInstance s
        (.dispatch fails worker rnd outboxId nowTicks companion input)).1 = true
  | .query .. | .update _ | .publish | .publishOther _ | .tryPop | .crash => False

/-- The events that the step loses in the poller. -/
def abandonedBy : OutboxStep → List String
  | .crash => s.unpublishedIds
  | .dispatch .. | .query .. | .update _ | .publish | .publishOther _ | .tryPop => []

/-- Every event that is marked was published, was lost in a crash, or waits to be published; and a
batch that was read waits in the table. -/
structure Accounted (s : Outbox) (abandoned : List String) : Prop where
  plain : ∀ id ∈ s.db.outbox.rows.map OutboxEvent.id, '\x00' ∉ id.toList
  marked : s.dispatchedIds.Perm (s.publishedIds ++ abandoned ++ s.unpublishedIds)
  selected : ∀ pending, s.poll = .selected pending → (pending.map (·.id)).Nodup ∧
    ∀ id ∈ pending.map (·.id), ∃ r ∈ s.db.outbox.rows, r.id = id ∧ r.status = .pending

variable {mac key hsmInstance} {s} {abandoned : List String} {a : OutboxStep}

/-! ### What a step preserves -/

theorem outbox_dispatch {worker : Bool} {id outboxId : String} {nowTicks : Int}
    {companion : Option Companion} {input : SignatureDispatchInput} {db : Db} :
    let out := SignatureDispatcher.dispatch mac key worker id outboxId nowTicks companion input db
    (out.1 = true ∧ db.outbox.insert (SignatureDispatcher.outboxEvent outboxId id nowTicks input) =
      some out.2.2.outbox) ∨ (out.1 = false ∧ out.2.2 = db) := by
  dsimp only
  obtain hfalse | ⟨records, outbox, -, houtbox, htrue⟩ :=
    SignatureDispatcher.dispatch_cases mac key worker id outboxId nowTicks companion input db
  · rw [hfalse]
    exact .inr ⟨rfl, rfl⟩
  · rw [htrue]
    exact .inl ⟨rfl, houtbox⟩

section

variable (h : Accounted s abandoned)
include h

/-- An event that the dispatcher inserts changes nothing for the others. -/
theorem Accounted.insert {outbox : CS.KeyedTable OutboxEvent.id}
    {r : OutboxEvent} (hinsert : s.db.outbox.insert r = some outbox) (hr : r.status = .pending)
    (hplain : '\x00' ∉ r.id.toList) {db : Db} (hdb : db.outbox = outbox)
    {bus : BoundedNotificationBus} : Accounted { s with db, bus } abandoned := by
  subst hdb
  have hrows := (CS.KeyedTable.insert_eq_some hinsert).2
  refine ⟨?_, ?_, ?_⟩
  · intro id hid
    rw [hrows, List.map_append, List.mem_append, List.map_singleton, List.mem_singleton] at hid
    rcases hid with hold | rfl
    · exact h.plain id hold
    · exact hplain
  · change (OutboxEvent.dispatchedIds db.outbox).Perm _
    rw [OutboxEvent.dispatchedIds_insert hinsert hr]
    exact h.marked
  · intro pending hpoll
    obtain ⟨hnodup, hwaiting⟩ := h.selected pending hpoll
    refine ⟨hnodup, fun id hid => ?_⟩
    obtain ⟨r', hr', hrest⟩ := hwaiting id hid
    exact ⟨r', hrows ▸ List.mem_append_left _ hr', hrest⟩

theorem Accounted.query (now : String → Int) :
    let ids := ((OutboxEvent.pendingRows s.db.outbox).map
      fun r => Pending.ofRow hsmInstance (now r.id) r).map (·.id)
    ids.Nodup ∧ ∀ id ∈ ids, ∃ r ∈ s.db.outbox.rows, r.id = id ∧ r.status = .pending := by
  have hids : ((OutboxEvent.pendingRows s.db.outbox).map
      fun r => Pending.ofRow hsmInstance (now r.id) r).map (·.id) =
        (OutboxEvent.pendingRows s.db.outbox).map (·.id) := by
    rw [List.map_map]
    -- Identifiers have no null character, so a query returns them whole.
    exact List.map_congr_left fun r hr =>
      readText_eq_self (h.plain r.id (List.mem_map_of_mem (OutboxEvent.mem_pendingRows hr).1))
  dsimp only
  rw [hids]
  refine ⟨OutboxEvent.nodup_pendingRows _, fun id hid => ?_⟩
  obtain ⟨r, hr, rfl⟩ := List.mem_map.mp hid
  exact ⟨r, (OutboxEvent.mem_pendingRows hr).1, rfl, (OutboxEvent.mem_pendingRows hr).2⟩

theorem Accounted.update {pending : List Pending}
    (hpoll : s.poll = .selected pending) :
    Accounted { s with
      db := { s.db with outbox := OutboxEvent.markDispatched (pending.map (·.id)) s.db.outbox }
      poll := .publishLoop pending } abandoned := by
  obtain ⟨hnodup, hwaiting⟩ := h.selected pending hpoll
  refine ⟨?_, ?_, ?_⟩
  · intro id hid
    rw [OutboxEvent.markDispatched, CS.KeyedTable.map_key_updateWhere] at hid
    exact h.plain id hid
  · have hmarked := h.marked
    rw [unpublishedIds, hpoll] at hmarked
    rw [unpublishedIds, Poll.unpublished_publishLoop]
    refine (OutboxEvent.dispatchedIds_markDispatched hnodup hwaiting).trans ?_
    exact (hmarked.trans (by simp [Poll.unpublished, publishedIds])).append_right _
  · intro pending' hpoll'
    cases pending <;> cases hpoll'

theorem Accounted.publish {p : Pending} {rest : List Pending}
    (hpoll : s.poll.unpublished = p :: rest) (bus : BoundedNotificationBus) (accepted : Bool) :
    Accounted { s with
      bus, published := s.published ++ [(p, accepted)], poll := .publishLoop rest } abandoned := by
  refine ⟨h.plain, ?_, ?_⟩
  · have hmarked := h.marked
    rw [unpublishedIds, hpoll, List.map_cons] at hmarked
    rw [unpublishedIds, Poll.unpublished_publishLoop, publishedIds, List.map_append]
    refine hmarked.trans ?_
    -- The identifier moves from the front of those waiting to the end of those published.
    simp only [publishedIds, List.map_singleton, List.append_assoc, List.singleton_append]
    exact List.Perm.append_left _ List.perm_middle
  · intro pending' hpoll'
    cases rest <;> cases hpoll'

theorem Accounted.crash (bus : BoundedNotificationBus) (crashes : Nat) :
    Accounted { s with poll := .idle, bus, crashes } (abandoned ++ s.unpublishedIds) := by
  refine ⟨h.plain, ?_, ?_⟩
  · change s.dispatchedIds.Perm (s.publishedIds ++ (abandoned ++ s.unpublishedIds) ++ [])
    rw [List.append_nil, ← List.append_assoc]
    exact h.marked
  · exact nofun

theorem Accounted.step (a : OutboxStep) :
    Accounted (s.step mac key hsmInstance a).2 (abandoned ++ s.abandonedBy a) := by
  cases a with
  | dispatch fails worker id outboxId nowTicks companion input =>
    rw [abandonedBy, List.append_nil]
    rcases @outbox_dispatch mac key worker (uuidV4 id) (uuidV4 outboxId) nowTicks companion input
      (s.db.during fun _ => fails) with ⟨-, hinsert⟩ | ⟨-, hdb⟩
    · exact h.insert hinsert rfl (notMem_uuidV4 outboxId) rfl
    · rw [Outbox.step, hdb]
      exact { h with }
  | query fails now =>
    rw [abandonedBy, List.append_nil, Outbox.step]
    split
    · next hpoll =>
      dsimp only
      split_ifs
      · exact h
      · refine ⟨h.plain, ?_, ?_⟩
        · have hmarked := h.marked
          rw [unpublishedIds, hpoll] at hmarked
          exact hmarked
        · intro pending hpending
          cases hpending
          exact h.query now
    · exact h
    · exact h
  | update fails =>
    rw [abandonedBy, List.append_nil, Outbox.step]
    split
    · next pending hpoll =>
      split_ifs
      · refine ⟨h.plain, ?_, fun pending' hpoll' => by cases hpoll'⟩
        have hmarked := h.marked
        rw [unpublishedIds, hpoll] at hmarked
        exact hmarked
      · exact h.update hpoll
    · exact h
    · exact h
  | publish =>
    rw [abandonedBy, List.append_nil, Outbox.step]
    split
    · exact h
    · next p rest hpoll => exact h.publish hpoll _ _
  | publishOther event | tryPop =>
    rw [abandonedBy, List.append_nil]
    exact { h with }
  | crash => exact h.crash _ _

end

theorem accounted_start (records : CS.KeyedTable SignatureRow.id) (capacity : Nat) :
    Accounted (start records capacity) [] :=
  ⟨fun _ hr => (List.not_mem_nil hr).elim, .refl _, fun _ hpoll => by cases hpoll⟩

/-! ### What is published -/

theorem commits_of_mem_step {id : String}
    (hid : id ∈ (s.step mac key hsmInstance a).2.db.outbox.rows.map OutboxEvent.id) :
    id ∈ s.db.outbox.rows.map OutboxEvent.id ∨ Commits mac key hsmInstance id s a := by
  cases a with
  | dispatch fails worker rnd outboxId nowTicks companion input =>
    rcases @outbox_dispatch mac key worker (uuidV4 rnd) (uuidV4 outboxId) nowTicks companion input
      (s.db.during fun _ => fails) with ⟨hok, hinsert⟩ | ⟨-, hdb⟩
    · rw [Outbox.step, (CS.KeyedTable.insert_eq_some hinsert).2, List.map_append, List.mem_append,
        List.map_singleton, List.mem_singleton] at hid
      exact hid.imp_right fun heq => ⟨heq.symm, hok⟩
    · rw [Outbox.step, hdb] at hid
      exact .inl hid
  | query fails now =>
    rw [Outbox.step] at hid
    split at hid
    · dsimp only at hid
      split_ifs at hid
      · exact .inl hid
      · exact .inl hid
    · exact .inl hid
    · exact .inl hid
  | update fails =>
    rw [Outbox.step] at hid
    split at hid
    · split_ifs at hid
      · exact .inl hid
      · dsimp only at hid
        rw [OutboxEvent.markDispatched, CS.KeyedTable.map_key_updateWhere] at hid
        exact .inl hid
    · exact .inl hid
    · exact .inl hid
  | publish =>
    rw [Outbox.step] at hid
    split at hid
    · exact .inl hid
    · exact .inl hid
  | publishOther event | tryPop | crash => exact .inl hid

theorem accounted_run (records : CS.KeyedTable SignatureRow.id) (capacity : Nat)
    (steps : List OutboxStep) :
    ∃ abandoned, Accounted (CS.run (step mac key hsmInstance) (start records capacity) steps)
      abandoned := by
  have hstep : ∀ s a, (∃ abandoned, Accounted s abandoned) →
      ∃ abandoned, Accounted (s.step mac key hsmInstance a).2 abandoned :=
    fun _ a ⟨_, h⟩ => ⟨_, h.step a⟩
  exact CS.Reachable.invariant hstep ⟨steps, rfl⟩ ⟨[], accounted_start records capacity⟩

/-- Whatever fails and whenever the process crashes, the poller publishes the event of a row at most
once, and only after the transaction that inserts the row has committed. -/
theorem count_publishedIds_le_one (records : CS.KeyedTable SignatureRow.id) (capacity : Nat)
    (steps : List OutboxStep) (id : String) :
    (CS.run (step mac key hsmInstance) (start records capacity) steps).publishedIds.count id ≤ 1 ∧
      (id ∈ (CS.run (step mac key hsmInstance) (start records capacity) steps).publishedIds →
        CS.Occurs (step mac key hsmInstance) (Commits mac key hsmInstance id)
          (start records capacity) steps) := by
  obtain ⟨abandoned, h⟩ := @accounted_run mac key hsmInstance records capacity steps
  constructor
  · have hnodup := h.marked.nodup_iff.mp (OutboxEvent.nodup_dispatchedIds _)
    exact List.nodup_iff_count_le_one.mp hnodup.of_append_left.of_append_left id
  · intro hid
    -- A published event is marked, so its row is in the table.
    have hmarked : id ∈ OutboxEvent.dispatchedIds _ :=
      h.marked.mem_iff.mpr (List.mem_append_left _ (List.mem_append_left _ hid))
    obtain ⟨r, hr, -, rfl⟩ := OutboxEvent.mem_dispatchedIds.mp hmarked
    -- Rows come from commits: the table was empty, and no other step adds a row.
    exact CS.occurs_of_run (P := fun s => r.id ∈ s.db.outbox.rows.map OutboxEvent.id)
      (fun _ _ => commits_of_mem_step) (List.mem_map_of_mem hr) List.not_mem_nil

/-! ### What is lost -/

/-- The bus has room for what the poller publishes, and a crash finds at most one event that is
marked and not published. -/
def Delivers (s : Outbox) : OutboxStep → Prop
  | .publish => s.unpublishedIds ≠ [] → s.bus.queue.length < s.bus.capacity
  | .crash => s.unpublishedIds.length ≤ 1
  | .dispatch .. | .query .. | .update _ | .publishOther _ | .tryPop => True

instance (s : Outbox) : (a : OutboxStep) → Decidable (s.Delivers a)
  | .publish => inferInstanceAs (Decidable (_ → _))
  | .crash => inferInstanceAs (Decidable (_ ≤ _))
  | .dispatch .. | .query .. | .update _ | .publishOther _ | .tryPop =>
    inferInstanceAs (Decidable True)

theorem history_step (s : Outbox) (a : OutboxStep) : let s' := (s.step mac key hsmInstance a).2
    (a = .crash ∧ s'.published = s.published ∧ s'.crashes = s.crashes + 1) ∨
    (∃ p rest, a = .publish ∧ s.poll.unpublished = p :: rest ∧
      s'.published = s.published ++ [(p, (s.bus.publish p.ev).1)] ∧ s'.crashes = s.crashes) ∨
    (s.abandonedBy a = [] ∧ s'.published = s.published ∧ s'.crashes = s.crashes) := by
  cases a with
  | dispatch fails worker id outboxId nowTicks companion input
  | publishOther event | tryPop => exact .inr (.inr ⟨rfl, rfl, rfl⟩)
  | query | update =>
    refine .inr (.inr ⟨rfl, ?_⟩)
    simp only [Outbox.step]
    split
    · split_ifs <;> exact ⟨rfl, rfl⟩
    · exact ⟨rfl, rfl⟩
    · exact ⟨rfl, rfl⟩
  | publish =>
    rw [Outbox.step]
    split
    · exact .inr (.inr ⟨rfl, rfl, rfl⟩)
    · next p rest hpoll => exact .inr (.inl ⟨p, rest, rfl, hpoll, rfl, rfl⟩)
  | crash => exact .inl ⟨rfl, rfl, rfl⟩

/-- The bus queued everything that was published, and there is a crash for every abandoned event. -/
structure Delivered (s : Outbox) (abandoned : List String) : Prop extends Accounted s abandoned where
  queued : ∀ p ∈ s.published, p.2 = true
  few : abandoned.length ≤ s.crashes

theorem Delivered.step (h : Delivered s abandoned) (ha : s.Delivers a) :
    Delivered (s.step mac key hsmInstance a).2 (abandoned ++ s.abandonedBy a) := by
  have hfew := h.few
  refine ⟨h.toAccounted.step a, ?_, ?_⟩
  · rcases @history_step mac key hsmInstance s a with
      ⟨-, hpublished, -⟩ | ⟨p, rest, rfl, hpoll, hpublished, -⟩ | ⟨-, hpublished, -⟩
    · exact hpublished ▸ h.queued
    · have hroom : s.bus.queue.length < s.bus.capacity := ha (by simp [unpublishedIds, hpoll])
      intro q hq
      rw [hpublished, List.mem_append, List.mem_singleton] at hq
      rcases hq with hold | rfl
      · exact h.queued q hold
      · exact BoundedNotificationBus.publish_fst.mpr hroom
    · exact hpublished ▸ h.queued
  · rw [List.length_append]
    rcases @history_step mac key hsmInstance s a with
      ⟨rfl, -, hcrashes⟩ | ⟨p, rest, rfl, -, -, hcrashes⟩ | ⟨hnone, -, hcrashes⟩
    · have hone : s.unpublishedIds.length ≤ 1 := ha
      rw [hcrashes, abandonedBy]
      omega
    · rw [hcrashes, abandonedBy]
      exact hfew
    · rw [hcrashes, hnone]
      exact hfew

theorem Delivered.lost_le (h : Delivered s abandoned) :
    s.lost ≤ s.crashes + s.unpublishedIds.length := by
  have haccepted : s.acceptedIds = s.publishedIds := by
    rw [acceptedIds, publishedIds, List.filter_eq_self.mpr h.queued]
  have hfilter : s.publishedIds.filter (· ∉ s.publishedIds) = [] :=
    List.filter_eq_nil_iff.mpr fun id hid => by simpa using hid
  calc s.lost
      = ((s.publishedIds ++ abandoned ++ s.unpublishedIds).filter (· ∉ s.publishedIds)).length := by
        rw [lost, haccepted]
        exact (h.marked.filter _).length_eq
    _ = ((abandoned ++ s.unpublishedIds).filter (· ∉ s.publishedIds)).length := by
        rw [List.append_assoc, List.filter_append, hfilter, List.nil_append]
    _ ≤ (abandoned ++ s.unpublishedIds).length := List.length_filter_le _ _
    _ ≤ s.crashes + s.unpublishedIds.length := by
        rw [List.length_append]
        exact Nat.add_le_add_right h.few _

/-- The transaction of a signature, with identifiers made of one byte. -/
def someDispatch (b : UInt8) : OutboxStep :=
  .dispatch false false (fun _ => b) (fun _ => b) 0 none SignatureDispatcher.someInput

/-- A poll that goes through up to the publish loop. -/
def somePoll : List OutboxStep := [.query false fun _ => 0, .update false]

/-- One event is published, and another is lost in a crash. -/
def oneLost : List OutboxStep :=
  [someDispatch 1] ++ somePoll ++ [.publish, someDispatch 2] ++ somePoll ++ [.crash]

end Outbox

end VirtualHsm
