import Mathlib.Data.List.Nodup
import VirtualHsm.CS.Run
import VirtualHsm.CS.Threads

/-!
# The thread pool

Threads hand tasks to a pool of workers through two bounded queues, one for each tier. The queues
have a mutex each; the counters and the stop flag are atomic variables outside of them; a third
mutex and a condition variable put idle workers to sleep.

The model has a step for every access to shared state, so that calls and workers can be interrupted
between any two of them. What is done under a queue's mutex is one step.
-/

namespace VirtualHsm

inductive PrivilegeTier
  | low
  | high
  deriving DecidableEq, Repr

/-- The right to hand over tasks. Only `grant` makes a valid one. -/
structure CapabilityToken where
  tier : PrivilegeTier := .low
  valid : Bool := false
  deriving DecidableEq, Repr

def CapabilityToken.grant (tier : PrivilegeTier) : CapabilityToken := ⟨tier, true⟩

/-- Tasks are numbered in the order in which they are handed over. -/
abbrev Task := Nat

/-! ### Workers -/

/-- Where a worker stands in `worker_thread`. -/
inductive Worker
  /-- Before locking the state mutex. -/
  | start
  /-- Holds the mutex, and evaluates the condition to wait for. -/
  | locked
  /-- Holds the mutex; the condition was false. -/
  | refused
  /-- Blocked, with the mutex released. -/
  | waiting
  /-- Woken, before locking the mutex again. -/
  | notified
  /-- Holds the mutex; the condition was true. -/
  | passed
  | exited
  | popHigh
  | popLow
  /-- Has a task, which the counter of queued tasks still counts. -/
  | popped (t : Task)
  | counted (t : Task)
  /-- The task is about to be executed. -/
  | running (t : Task)
  | ran
  | finished
  deriving DecidableEq, Repr

namespace Worker

/-- The state mutex is held. -/
def holds : Worker → Bool
  | locked | refused | passed => true
  | start | waiting | notified | exited | popHigh | popLow | popped _ | counted _ | running _ | ran
  | finished => false

/-- What a notification does. -/
def notify : Worker → Worker
  | waiting => notified
  | w => w

/-- One for the workers at this place. -/
def isAt (place w : Worker) : Nat := if w = place then 1 else 0

/-- The task that the worker took and has not executed. -/
def task : Worker → List Task
  | popped t | counted t | running t => [t]
  | start | locked | refused | waiting | notified | passed | exited | popHigh | popLow | ran
  | finished => []

/-- The worker has taken a task that still counts as queued. -/
def uncredited : Worker → Nat
  | popped _ => 1
  | start | locked | refused | waiting | notified | passed | exited | popHigh | popLow | counted _
  | running _ | ran | finished => 0

/-- The worker counts as running. -/
def busy : Worker → Nat
  | running _ | ran => 1
  | start | locked | refused | waiting | notified | passed | exited | popHigh | popLow | popped _
  | counted _ | finished => 0

/-- The worker has executed a task that does not count as executed yet. -/
def unrecorded : Worker → Nat
  | ran | finished => 1
  | start | locked | refused | waiting | notified | passed | exited | popHigh | popLow | popped _
  | counted _ | running _ => 0

variable {place w : Worker}

theorem isAt_le_one (place w : Worker) : isAt place w ≤ 1 := by
  unfold isAt
  split_ifs <;> omega

theorem isAt_self (w : Worker) : isAt w w = 1 := if_pos rfl

theorem eq_of_isAt_pos (h : 0 < isAt place w) : w = place := by
  unfold isAt at h
  split_ifs at h with heq
  · exact heq
  · cases h

theorem uncredited_le_one (w : Worker) : w.uncredited ≤ 1 := by
  cases w <;> simp [uncredited]

end Worker

/-! ### Calls -/

inductive CallKind
  | submit
  | enqueue
  | enqueueBatch
  deriving DecidableEq, Repr

/-- Where a call that hands over tasks stands. -/
inductive CallPlace
  /-- Before reading the stop flag. -/
  | check
  /-- Before the next task, or before the notification when there is none. -/
  | next
  /-- A task is in its queue, and no counter counts it. -/
  | pushed
  /-- The task counts as queued, and not yet as enqueued. -/
  | counted
  | notify
  | returned
  | threw
  deriving DecidableEq, Repr

def CallPlace.uncounted : CallPlace → Nat
  | pushed => 1
  | check | next | counted | notify | returned | threw => 0

def CallPlace.untallied : CallPlace → Nat
  | pushed | counted => 1
  | check | next | notify | returned | threw => 0

/-- The call has found the stop flag unset, and has tasks to hand over or to count. -/
def CallPlace.busy : CallPlace → Nat
  | next | pushed | counted => 1
  | check | notify | returned | threw => 0

/-- The call is past its check of the stop flag and has not notified the workers. -/
def CallPlace.unnotified : CallPlace → Bool
  | next | pushed | counted | notify => true
  | check | returned | threw => false

/-- A call of `submit`, `enqueue` or `enqueue_batch`. The first two hand over one task. -/
structure Submission where
  kind : CallKind
  tier : PrivilegeTier
  place : CallPlace
  remaining : List Task
  /-- The tasks that found room in the queue. -/
  accepted : List Task := []
  refused : List Task := []
  deriving DecidableEq, Repr

namespace Submission

variable (c : Submission)

/-- The call has put a task into a queue without counting it. -/
def uncounted : Nat := c.place.uncounted

/-- The call has put a task into a queue that does not count as enqueued. -/
def untallied : Nat := c.place.untallied

def busy : Nat := c.place.busy

/-- The call has tasks in the queues for which it will notify workers. -/
def owes : Nat := if c.place.unnotified ∧ c.accepted ≠ [] then 1 else 0

/-- One for calls that cannot occur: a task was pushed, and none is accepted. -/
def hollow : Nat := if 0 < c.untallied ∧ c.accepted = [] then 1 else 0

/-- All tasks of the call. -/
def tasks : List Task := c.accepted ++ c.refused ++ c.remaining

/-- The tasks that the call reports as accepted. -/
def reported : List Task := if c.place = .returned then c.accepted else []

/-- The tasks of a call that is over which are not accepted. -/
def rejected : List Task :=
  if c.place = .returned ∨ c.place = .threw then c.refused ++ c.remaining else []

end Submission

/-! ### The pool -/

/-- Where `shutdown` stands. -/
inductive Shutdown
  | notCalled
  /-- The stop flag is set. -/
  | stopped
  /-- All workers are notified; waits for the pool to drain, for a bounded time. -/
  | draining
  /-- Joins the workers. -/
  | joining
  | returned
  deriving DecidableEq, Repr

structure PoolConfig where
  workerCount : Nat := 0
  queueCapacity : Nat := 1024

structure ThreadPool where
  /-- No capacity means no bound. -/
  queueCapacity : Nat
  workers : List Worker
  calls : List Submission := []
  shutdown : Shutdown := .notCalled
  high : List Task := []
  low : List Task := []
  stopping : Bool := false
  queued : BitVec 64 := 0
  running : BitVec 64 := 0
  enqueued : BitVec 64 := 0
  executed : BitVec 64 := 0
  dropped : BitVec 64 := 0
  /-- The tasks executed so far. -/
  doneTasks : List Task := []
  /-- The number of the next task that is handed over. -/
  nextTask : Nat := 0

inductive PoolStep
  /-- A thread calls, with this many tasks for a batch. -/
  | call (kind : CallKind) (token : CapabilityToken) (count : Nat)
  /-- A call goes on. Where it notifies one worker, the one to wake is chosen. -/
  | advance (c pick : Nat)
  /-- A worker goes on. -/
  | work (i : Nat)
  /-- A worker wakes up without a notification. -/
  | wake (i : Nat)
  /-- The shutdown goes on. -/
  | shutdown
  deriving DecidableEq, Repr

namespace ThreadPool

/-- `resolve_worker_count`, with the number of processors. -/
def resolveWorkerCount (requested hardware : Nat) : Nat :=
  if requested ≠ 0 then requested else if hardware = 0 then 1 else hardware

def construct (config : PoolConfig) (hardware : Nat) : ThreadPool where
  queueCapacity := config.queueCapacity
  workers := .replicate (resolveWorkerCount config.workerCount hardware) .start

variable (p : ThreadPool)

/-- Nobody holds the state mutex. -/
def mutexFree : Bool := p.workers.all (!·.holds)

def move (i : Nat) (w : Worker) : ThreadPool := { p with workers := p.workers.set i w }

def put (c : Nat) (call : Submission) : ThreadPool := { p with calls := p.calls.set c call }

/-- `notify_one` wakes one of the workers that are blocked, if there is any. -/
def notifyOne (pick : Nat) : ThreadPool :=
  p.move (if p.workers[pick]? = some .waiting then pick else p.workers.idxOf .waiting) .notified

def notifyAll : ThreadPool := { p with workers := p.workers.map Worker.notify }

/-- What `enqueue` and `enqueue_batch` do about the workers when so many tasks were accepted. -/
def notifyAccepted (accepted pick : Nat) : ThreadPool :=
  if accepted = 1 then p.notifyOne pick else if 1 < accepted then p.notifyAll else p

def queue : PrivilegeTier → List Task
  | .high => p.high
  | .low => p.low

def push (t : Task) : PrivilegeTier → ThreadPool
  | .high => { p with high := p.high ++ [t] }
  | .low => { p with low := p.low ++ [t] }

/-- A queue takes no more tasks. -/
def full (tier : PrivilegeTier) : Prop :=
  0 < p.queueCapacity ∧ p.queueCapacity ≤ (p.queue tier).length

instance (tier : PrivilegeTier) : Decidable (p.full tier) := inferInstanceAs (Decidable (_ ∧ _))

/-- The next step of a worker, by where it stands. -/
def workFrom (i : Nat) : Worker → ThreadPool
  | .start | .notified => if p.mutexFree then p.move i .locked else p
  | .locked => p.move i (if p.stopping ∨ p.queued ≠ 0 then .passed else .refused)
  | .refused => p.move i .waiting
  | .waiting | .exited => p
  | .passed => p.move i (if p.stopping ∧ p.queued = 0 then .exited else .popHigh)
  | .popHigh =>
    match p.high with
    | [] => p.move i .popLow
    | t :: rest => { p.move i (.popped t) with high := rest }
  | .popLow =>
    match p.low with
    -- Another worker took the task: back to waiting.
    | [] => p.move i .start
    | t :: rest => { p.move i (.popped t) with low := rest }
  | .popped t => { p.move i (.counted t) with queued := p.queued - 1 }
  | .counted t => { p.move i (.running t) with running := p.running + 1 }
  | .running t => { p.move i .ran with doneTasks := p.doneTasks ++ [t] }
  | .ran => { p.move i .finished with running := p.running - 1 }
  | .finished => { p.move i .start with executed := p.executed + 1 }

/-- The next step of a call. -/
def advanceFrom (i pick : Nat) (c : Submission) : ThreadPool :=
  match c.place with
  | .check => p.put i { c with place := if p.stopping then .threw else .next }
  | .next =>
    match c.remaining with
    | [] => p.put i { c with place := .notify }
    | t :: rest =>
      if p.full c.tier then
        { p.put i { c with remaining := rest, refused := c.refused ++ [t] } with
          dropped := p.dropped + 1 }
      else
        (p.push t c.tier).put i
          { c with place := .pushed, remaining := rest, accepted := c.accepted ++ [t] }
  | .pushed => { p.put i { c with place := .counted } with queued := p.queued + 1 }
  | .counted => { p.put i { c with place := .next } with enqueued := p.enqueued + 1 }
  | .notify =>
    -- Only `submit` reports a refusal as an exception.
    (p.notifyAccepted c.accepted.length pick).put i
      { c with place := if c.kind = .submit ∧ c.accepted = [] then .threw else .returned }
  | .returned | .threw => p

/-- The next step of `shutdown`. -/
def shutdownFrom : Shutdown → ThreadPool
  | .notCalled => if p.mutexFree then { p with stopping := true, shutdown := .stopped } else p
  | .stopped => { p.notifyAll with shutdown := .draining }
  -- Drained, or the time is up.
  | .draining => { p with shutdown := .joining }
  | .joining => if p.workers.all (· = .exited) then { p with shutdown := .returned } else p
  | .returned => p

/-- A new call: a token that is not valid is refused at once. -/
def startCall (kind : CallKind) (token : CapabilityToken) (count : Nat) : ThreadPool :=
  let n := if kind = .enqueueBatch then count else 1
  { p with
    calls := p.calls ++
      [{ kind, tier := token.tier, place := if token.valid then .check else .threw
         remaining := List.range' p.nextTask n }]
    nextTask := p.nextTask + n }

/-- One step of the schedule. A step of nobody, and one that is not up, change nothing. -/
def next : PoolStep → ThreadPool
  | .call kind token count => p.startCall kind token count
  | .advance i pick => p.calls[i]?.elim p fun c => p.advanceFrom i pick c
  | .work i => p.workers[i]?.elim p fun w => p.workFrom i w
  | .wake i => p.workers[i]?.elim p fun w => p.move i w.notify
  | .shutdown => p.shutdownFrom p.shutdown

def step (a : PoolStep) : Unit × ThreadPool := ((), p.next a)

/-- The tasks that calls have reported as accepted. -/
def accepted : List Task := p.calls.flatMap Submission.reported

def rejected : List Task := p.calls.flatMap Submission.rejected

/-- The number of tasks in the queues. -/
def waitingTasks : Nat := p.high.length + p.low.length

/-- Fewer tasks wait than the counter can count, with one in the hands of every worker. -/
def Fits : Prop := p.waitingTasks + p.workers.length < 2 ^ 64

instance : Decidable p.Fits := inferInstanceAs (Decidable (_ < _))

/-! ### Where the tasks are -/

/-- Every accepted task is in one of the queues, in a worker's hands, or done; tasks have different
numbers; and the counters count what they are named for, up to the steps that are under way. -/
structure Accounted : Prop where
  tasks : ∀ t, CS.total (·.accepted.count t) p.calls =
    p.high.count t + p.low.count t + CS.total (·.task.count t) p.workers + p.doneTasks.count t
  fresh : ∀ t : Nat, CS.total (·.tasks.count t) p.calls ≤ if t < p.nextTask then 1 else 0
  queued : (p.queued.toNat + CS.total Submission.uncounted p.calls) % 2 ^ 64 =
    (p.waitingTasks + CS.total Worker.uncredited p.workers) % 2 ^ 64
  running : p.running.toNat = CS.total Worker.busy p.workers % 2 ^ 64
  enqueued : (p.enqueued.toNat + CS.total Submission.untallied p.calls) % 2 ^ 64 =
    CS.total (·.accepted.length) p.calls % 2 ^ 64
  executed : (p.executed.toNat + CS.total Worker.unrecorded p.workers) % 2 ^ 64 =
    p.doneTasks.length % 2 ^ 64

variable {p} {p' : ThreadPool} {i pick : Nat} {w : Worker} {c c' : Submission}

/-- `notify_one` finds a worker that is blocked, or there is none. -/
theorem notifyOne_cases (p : ThreadPool) (pick : Nat) :
    (∃ i, p.workers[i]? = some .waiting ∧ p.notifyOne pick = p.move i .notified) ∨
      (Worker.waiting ∉ p.workers ∧ p.notifyOne pick = p) := by
  unfold notifyOne
  by_cases hpick : p.workers[pick]? = some .waiting
  · exact .inl ⟨pick, hpick, by rw [if_pos hpick]⟩
  rw [if_neg hpick]
  by_cases hmem : Worker.waiting ∈ p.workers
  · exact .inl ⟨_, List.getElem?_idxOf hmem, rfl⟩
  · refine .inr ⟨hmem, ?_⟩
    rw [move, List.idxOf_eq_length hmem, List.set_eq_of_length_le le_rfl]

theorem total_map_notify {f : Worker → Nat} (hf : f .notified = f .waiting) (workers : List Worker) :
    CS.total f (workers.map Worker.notify) = CS.total f workers :=
  CS.total_map (fun w => by cases w <;> first | exact hf | rfl) workers

/-- A notification moves workers only from waiting to notified. -/
theorem notifyAccepted_cases (p : ThreadPool) (accepted pick : Nat) :
    ∃ workers, p.notifyAccepted accepted pick = { p with workers } ∧
      workers.length = p.workers.length ∧
      ∀ f : Worker → Nat, f .notified = f .waiting → CS.total f workers = CS.total f p.workers := by
  unfold notifyAccepted
  split_ifs
  · rcases p.notifyOne_cases pick with ⟨i, hi, heq⟩ | ⟨-, heq⟩
    · refine ⟨p.workers.set i .notified, heq, List.length_set, fun f hf => ?_⟩
      have hset := CS.total_set f hi .notified
      omega
    · exact ⟨p.workers, heq, rfl, fun _ _ => rfl⟩
  · exact ⟨p.workers.map Worker.notify, rfl, List.length_map _, fun f hf => total_map_notify hf _⟩
  · exact ⟨p.workers, rfl, rfl, fun _ _ => rfl⟩

/-- Pushing adds one task to one of the queues. -/
theorem push_cases (p : ThreadPool) (t : Task) (tier : PrivilegeTier) :
    ∃ high low, p.push t tier = { p with high, low } ∧
      high.length + low.length = p.waitingTasks + 1 ∧
      ∀ t', high.count t' + low.count t' = p.high.count t' + p.low.count t' + [t].count t' := by
  cases tier with
  | high | low =>
    refine ⟨_, _, rfl, ?_, fun t' => ?_⟩
    · rw [List.length_append, List.length_singleton, waitingTasks]
      omega
    · rw [List.count_append]
      omega

/-! ### What a step can do -/

/-- What a step of a worker can do, as far as other threads see it. -/
structure WorkStep (p p' : ThreadPool) (w w' : Worker) : Prop where
  calls : p'.calls = p.calls
  stopping : p'.stopping = p.stopping
  shutdown : p'.shutdown = p.shutdown
  waitingTasks_le : p'.waitingTasks ≤ p.waitingTasks
  -- A task that is taken from a queue is counted until the counter is brought up to date.
  balance_le : p'.waitingTasks + w'.uncredited ≤ p.waitingTasks + w.uncredited
  exits : w' = .exited → w = .exited ∨ (p.stopping = true ∧ p.queued = 0)
  stays : w = .exited → w' = .exited
  refuses : w' = .refused → w = .refused ∨ p.queued = 0
  waits : w' = .waiting → w = .waiting ∨ w = .refused

section

variable {w' : Worker} {p' : ThreadPool} (hcalls : p'.calls = p.calls)
  (hstopping : p'.stopping = p.stopping) (hshutdown : p'.shutdown = p.shutdown)
  (hhigh : p'.high = p.high) (hlow : p'.low = p.low) (huncredited : w'.uncredited ≤ w.uncredited)
include hcalls hstopping hshutdown hhigh hlow huncredited

/-- A worker that moves without touching a queue. -/
theorem workStep_move (hexits : w' = .exited → w = .exited ∨ (p.stopping = true ∧ p.queued = 0))
    (hstays : w = .exited → w' = .exited) (hrefuses : w' = .refused → w = .refused ∨ p.queued = 0)
    (hwaits : w' = .waiting → w = .waiting ∨ w = .refused) : WorkStep p p' w w' := by
  have htasks : p'.waitingTasks = p.waitingTasks := by
    rw [waitingTasks, hhigh, hlow, waitingTasks]
  refine ⟨hcalls, hstopping, hshutdown, htasks.le, ?_, hexits, hstays, hrefuses, hwaits⟩
  omega

/-- A worker that moves inside its loop, without touching a queue: it neither leaves nor waits. -/
theorem workStep_loop (hw : w ≠ .exited)
    (hloop : w' ∉ [.exited, .refused, .waiting]) :
    WorkStep p p' w w' := by
  simp only [List.mem_cons, List.not_mem_nil, or_false, not_or] at hloop
  obtain ⟨hexited, hrefused, hwaiting⟩ := hloop
  exact workStep_move hcalls hstopping hshutdown hhigh hlow huncredited
    (fun heq => absurd heq hexited) (fun heq => absurd heq hw) (fun heq => absurd heq hrefused)
    fun heq => absurd heq hwaiting

end

theorem exists_workStep (hw : p.workers[i]? = some w) :
    ∃ w', (p.workFrom i w).workers = p.workers.set i w' ∧ WorkStep p (p.workFrom i w) w w' := by
  have hself : p.workers = p.workers.set i w := by
    obtain ⟨hi, rfl⟩ := List.getElem?_eq_some_iff.mp hw
    exact (List.set_getElem_self hi).symm
  have hstay : ∃ w', p.workers = p.workers.set i w' ∧ WorkStep p p w w' :=
    ⟨w, hself, workStep_move rfl rfl rfl rfl rfl le_rfl .inl id .inl .inl⟩
  cases w with
  | start | notified =>
    rw [ThreadPool.workFrom]
    split_ifs
    · exact ⟨.locked, rfl, workStep_loop rfl rfl rfl rfl rfl le_rfl nofun (by simp)⟩
    · exact hstay
  | locked =>
    rw [ThreadPool.workFrom]
    refine ⟨_, rfl, workStep_move rfl rfl rfl rfl rfl ?_ ?_ (by simp) ?_ ?_⟩
    · split_ifs <;> exact le_rfl
    · split_ifs <;> simp
    · split_ifs with hcond
      · simp
      · exact fun _ => .inr (not_not.mp (not_or.mp hcond).2)
    · split_ifs <;> simp
  | refused =>
    exact ⟨.waiting, rfl, workStep_move rfl rfl rfl rfl rfl le_rfl (by simp) (by simp) (by simp)
      (by simp)⟩
  | waiting | exited => exact hstay
  | passed =>
    rw [ThreadPool.workFrom]
    refine ⟨_, rfl, workStep_move rfl rfl rfl rfl rfl ?_ ?_ (by simp) ?_ ?_⟩
    · split_ifs <;> exact le_rfl
    · split_ifs with hcond
      · exact fun _ => .inr hcond
      · simp
    · split_ifs <;> simp
    · split_ifs <;> simp
  | popHigh | popLow =>
    rw [ThreadPool.workFrom]
    split
    · exact ⟨_, rfl, workStep_loop rfl rfl rfl rfl rfl le_rfl nofun (by simp)⟩
    · next t rest hqueue =>
      refine ⟨.popped t, rfl, rfl, rfl, rfl, ?_, ?_, by simp, by simp, by simp, by simp⟩
      · simp only [waitingTasks, hqueue, move, List.length_cons]
        omega
      · simp only [waitingTasks, hqueue, move, List.length_cons, Worker.uncredited]
        omega
  | popped t | counted t | running t | ran | finished =>
    exact ⟨_, rfl, workStep_loop rfl rfl rfl rfl rfl (Nat.zero_le _) nofun (by simp)⟩

/-- A worker that wakes up, whatever the reason. -/
theorem workStep_notify (w : Worker) : WorkStep p (p.move i w.notify) w w.notify := by
  cases w <;> exact workStep_move rfl rfl rfl rfl rfl le_rfl (by simp [Worker.notify])
    (by simp [Worker.notify]) (by simp [Worker.notify]) (by simp [Worker.notify])

/-- What a step of a call can do, as far as other threads see it. -/
structure CallStep (p p' : ThreadPool) (c c' : Submission) : Prop where
  stopping : p'.stopping = p.stopping
  shutdown : p'.shutdown = p.shutdown
  length_workers : p'.workers.length = p.workers.length
  workers : ∀ f : Worker → Nat, f .notified = f .waiting →
    CS.total f p'.workers = CS.total f p.workers
  waitingTasks_le : p'.waitingTasks ≤ p.waitingTasks + c.busy
  busy_le : p.stopping = true → c'.busy ≤ c.busy
  -- A task that is pushed is owed to the counter until it is counted.
  balance : c.place ≠ .pushed → p'.waitingTasks + c.uncounted = p.waitingTasks + c'.uncounted
  hollow_le : c'.hollow ≤ c.hollow
  owes_le : c.place ≠ .notify → c.owes ≤ c'.owes
  pushes : p.waitingTasks < p'.waitingTasks → 0 < c'.owes
  waiting_le : CS.total (Worker.isAt .waiting) p'.workers ≤
    CS.total (Worker.isAt .waiting) p.workers
  wakes : c.place = .notify → 0 < c.owes → 0 < CS.total (Worker.isAt .waiting) p.workers →
    CS.total (Worker.isAt .waiting) p'.workers < CS.total (Worker.isAt .waiting) p.workers

/-- A step of a call that touches neither the queues nor the workers, and does not notify. -/
theorem callStep_put (hplace : c.place ≠ .notify) (hstopping : p'.stopping = p.stopping)
    (hshutdown : p'.shutdown = p.shutdown) (hworkers : p'.workers = p.workers)
    (hhigh : p'.high = p.high) (hlow : p'.low = p.low)
    (hbusy : p.stopping = true → c'.busy ≤ c.busy)
    (hbalance : c.place ≠ .pushed → c.uncounted = c'.uncounted) (hhollow : c'.hollow ≤ c.hollow)
    (howes : c.owes ≤ c'.owes) : CallStep p p' c c' := by
  have htasks : p'.waitingTasks = p.waitingTasks := by
    rw [waitingTasks, hhigh, hlow, waitingTasks]
  refine ⟨hstopping, hshutdown, by rw [hworkers], fun f _ => by rw [hworkers], by omega, hbusy,
    fun hpushed => ?_, hhollow, fun _ => howes, fun hlt => by omega, by rw [hworkers],
    fun heq => absurd heq hplace⟩
  rw [htasks, hbalance hpushed]

/-- After `notify_all` nobody is blocked. -/
theorem total_waiting_notifyAll (p : ThreadPool) :
    CS.total (Worker.isAt .waiting) p.notifyAll.workers = 0 := by
  by_contra hpos
  obtain ⟨w', hw', hat⟩ := CS.total_pos_iff.mp (Nat.pos_of_ne_zero hpos)
  obtain ⟨w, -, rfl⟩ := List.mem_map.mp hw'
  have hwaiting := Worker.eq_of_isAt_pos hat
  cases w <;> cases hwaiting

/-- A call that notifies wakes a worker if one is blocked and tasks were accepted. -/
theorem total_waiting_notifyAccepted (p : ThreadPool) (accepted pick : Nat) :
    CS.total (Worker.isAt .waiting) (p.notifyAccepted accepted pick).workers ≤
      CS.total (Worker.isAt .waiting) p.workers ∧
    (0 < accepted → 0 < CS.total (Worker.isAt .waiting) p.workers →
      CS.total (Worker.isAt .waiting) (p.notifyAccepted accepted pick).workers <
        CS.total (Worker.isAt .waiting) p.workers) := by
  unfold notifyAccepted
  split_ifs with hone hmany
  · rcases p.notifyOne_cases pick with ⟨i, hi, heq⟩ | ⟨hnone, heq⟩
    · have hset : CS.total (Worker.isAt .waiting) (p.workers.set i .notified) + 1 =
          CS.total (Worker.isAt .waiting) p.workers + 0 := CS.total_set _ hi .notified
      rw [heq]
      change CS.total _ (p.workers.set i .notified) ≤ _ ∧
        (_ → _ → CS.total _ (p.workers.set i .notified) < _)
      omega
    · rw [heq]
      refine ⟨le_rfl, fun _ hpos => ?_⟩
      obtain ⟨w, hw, hat⟩ := CS.total_pos_iff.mp hpos
      exact absurd (Worker.eq_of_isAt_pos hat ▸ hw) hnone
  · rw [total_waiting_notifyAll]
    exact ⟨Nat.zero_le _, fun _ hpos => hpos⟩
  · exact ⟨le_rfl, fun hpos => by omega⟩

theorem exists_callStep (p : ThreadPool) (i pick : Nat) (c : Submission) :
    p.advanceFrom i pick c = p ∨
    ∃ c', (p.advanceFrom i pick c).calls = p.calls.set i c' ∧
      CallStep p (p.advanceFrom i pick c) c c' := by
  obtain ⟨kind, tier, place, remaining, accepted, refused⟩ := c
  cases place with
  | check =>
    refine .inr ⟨_, rfl, callStep_put (by simp) rfl rfl rfl rfl rfl ?_ ?_ ?_ ?_⟩
    · intro hstopping
      simp only [hstopping, if_true]
      exact le_rfl
    · intro _
      dsimp only
      split_ifs <;> rfl
    · dsimp only
      split_ifs <;> exact le_rfl
    · exact Nat.zero_le _
  | next =>
    cases remaining with
    | nil =>
      exact .inr ⟨_, rfl, callStep_put (by simp) rfl rfl rfl rfl rfl (fun _ => Nat.zero_le _)
        (fun _ => rfl) le_rfl le_rfl⟩
    | cons t rest =>
      unfold ThreadPool.advanceFrom
      dsimp only
      split_ifs
      · exact .inr ⟨_, rfl, callStep_put (by simp) rfl rfl rfl rfl rfl (fun _ => le_rfl)
          (fun _ => rfl) le_rfl le_rfl⟩
      · obtain ⟨high, low, hpush, hlength, -⟩ := p.push_cases t tier
        rw [hpush]
        have howes : Submission.owes
            ⟨kind, tier, .pushed, rest, accepted ++ [t], refused⟩ = 1 := by
          simp [Submission.owes, CallPlace.unnotified]
        refine .inr ⟨_, rfl, rfl, rfl, rfl, fun _ _ => rfl, hlength.le, fun _ => le_rfl,
          fun _ => hlength, ?_, fun _ => ?_, fun _ => ?_, le_rfl, by simp⟩
        · simp [Submission.hollow]
        · rw [howes]
          unfold Submission.owes
          split_ifs <;> omega
        · rw [howes]
          exact Nat.zero_lt_one
  | pushed =>
    exact .inr ⟨_, rfl, callStep_put (by simp) rfl rfl rfl rfl rfl (fun _ => le_rfl)
      (fun hpushed => absurd rfl hpushed) le_rfl le_rfl⟩
  | counted =>
    exact .inr ⟨_, rfl, callStep_put (by simp) rfl rfl rfl rfl rfl (fun _ => le_rfl)
      (fun _ => rfl) (Nat.zero_le _) le_rfl⟩
  | notify =>
    obtain ⟨workers, hnotify, hlength, htotal⟩ := p.notifyAccepted_cases accepted.length pick
    have hwaiting := p.total_waiting_notifyAccepted accepted.length pick
    unfold ThreadPool.advanceFrom
    dsimp only
    rw [hnotify] at hwaiting ⊢
    refine .inr ⟨_, rfl, rfl, rfl, hlength, htotal, le_rfl, fun _ => ?_, fun _ => ?_, ?_,
      fun hne => absurd rfl hne, fun hlt => absurd hlt (Nat.lt_irrefl _), hwaiting.1, ?_⟩
    · split_ifs <;> exact le_rfl
    · split_ifs <;> rfl
    · split_ifs <;> exact Nat.zero_le _
    · intro _ howes hpos
      refine hwaiting.2 (List.length_pos_iff.mpr ?_) hpos
      unfold Submission.owes at howes
      split_ifs at howes with hcond
      · exact hcond.2
      · cases howes
  | returned | threw => exact .inl rfl

/-! ### What a step preserves -/

/-- A step of a worker that balances what the worker holds against what it changes. -/
theorem Accounted.of_work (h : p.Accounted) (hw : p.workers[i]? = some w) {w' : Worker}
    {p' : ThreadPool} (hworkers : p'.workers = p.workers.set i w') (hcalls : p'.calls = p.calls)
    (hnext : p'.nextTask = p.nextTask) (henqueued : p'.enqueued = p.enqueued)
    (htasks : ∀ t, p'.high.count t + p'.low.count t + w'.task.count t + p'.doneTasks.count t =
      p.high.count t + p.low.count t + w.task.count t + p.doneTasks.count t)
    (hqueued : (p'.queued.toNat + w.uncredited + p.waitingTasks) % 2 ^ 64 =
      (p.queued.toNat + w'.uncredited + p'.waitingTasks) % 2 ^ 64)
    (hrunning : (p'.running.toNat + w.busy) % 2 ^ 64 = (p.running.toNat + w'.busy) % 2 ^ 64)
    (hexecuted : (p'.executed.toNat + w'.unrecorded + p.doneTasks.length) % 2 ^ 64 =
      (p.executed.toNat + w.unrecorded + p'.doneTasks.length) % 2 ^ 64) : p'.Accounted := by
  have hset (f : Worker → Nat) : CS.total f p'.workers + f w = CS.total f p.workers + f w' :=
    hworkers ▸ CS.total_set f hw w'
  constructor
  · intro t
    have hold := h.tasks t
    have hlocal := htasks t
    have hmoved := hset (·.task.count t)
    rw [hcalls]
    omega
  · intro t
    rw [hcalls, hnext]
    exact h.fresh t
  · have hold := h.queued
    have hmoved := hset Worker.uncredited
    rw [hcalls]
    omega
  · have hold := h.running
    have hmoved := hset Worker.busy
    have hlt := p'.running.isLt
    omega
  · rw [hcalls, henqueued]
    exact h.enqueued
  · have hold := h.executed
    have hmoved := hset Worker.unrecorded
    omega

/-- A step of a call that balances what the call has done against what it changes. It may notify
workers. -/
theorem Accounted.of_advance (h : p.Accounted) (hc : p.calls[i]? = some c) {c' : Submission}
    {p' : ThreadPool} (hcalls : p'.calls = p.calls.set i c')
    (hworkers : ∀ f : Worker → Nat, f .notified = f .waiting →
      CS.total f p'.workers = CS.total f p.workers)
    (hnext : p'.nextTask = p.nextTask) (hrunning : p'.running = p.running)
    (hexecuted : p'.executed = p.executed) (hdone : p'.doneTasks = p.doneTasks)
    (htasks : ∀ t, c'.accepted.count t + p.high.count t + p.low.count t =
      c.accepted.count t + p'.high.count t + p'.low.count t)
    (hfresh : ∀ t, c'.tasks.count t = c.tasks.count t)
    (hqueued : (p'.queued.toNat + c'.uncounted + p.waitingTasks) % 2 ^ 64 =
      (p.queued.toNat + c.uncounted + p'.waitingTasks) % 2 ^ 64)
    (henqueued : (p'.enqueued.toNat + c'.untallied + c.accepted.length) % 2 ^ 64 =
      (p.enqueued.toNat + c.untallied + c'.accepted.length) % 2 ^ 64) : p'.Accounted := by
  have hset (f : Submission → Nat) : CS.total f p'.calls + f c = CS.total f p.calls + f c' :=
    hcalls ▸ CS.total_set f hc c'
  constructor
  · intro t
    have hold := h.tasks t
    have hlocal := htasks t
    have hmoved := hset (·.accepted.count t)
    rw [hworkers _ rfl, hdone]
    omega
  · intro t
    have hold := h.fresh t
    have hlocal := hfresh t
    have hmoved := hset (·.tasks.count t)
    rw [hnext]
    omega
  · have hold := h.queued
    have hmoved := hset Submission.uncounted
    rw [hworkers _ rfl]
    omega
  · rw [hworkers _ rfl, hrunning]
    exact h.running
  · have hold := h.enqueued
    have hmoved := hset Submission.untallied
    have hlength := hset (·.accepted.length)
    omega
  · rw [hworkers _ rfl, hexecuted, hdone]
    exact h.executed

/-- A worker that moves without touching a task or a counter. -/
theorem Accounted.move (h : p.Accounted) (hw : p.workers[i]? = some w) {w' : Worker}
    (htask : w'.task = w.task) (huncredited : w'.uncredited = w.uncredited)
    (hbusy : w'.busy = w.busy) (hunrecorded : w'.unrecorded = w.unrecorded) :
    (p.move i w').Accounted := by
  refine h.of_work hw rfl rfl rfl rfl (fun t => ?_) ?_ ?_ ?_
  · rw [htask]
    rfl
  · rw [huncredited]
    rfl
  · rw [hbusy]
    rfl
  · rw [hunrecorded]
    rfl

theorem Accounted.workFrom (h : p.Accounted) (hw : p.workers[i]? = some w) :
    (p.workFrom i w).Accounted := by
  -- A case for each place; what is not a pure move balances one task or one counter.
  cases w with
  | start | notified =>
    rw [ThreadPool.workFrom]
    split_ifs
    · exact h.move hw rfl rfl rfl rfl
    · exact h
  | locked | passed =>
    rw [ThreadPool.workFrom]
    split_ifs <;> exact h.move hw rfl rfl rfl rfl
  | refused => exact h.move hw rfl rfl rfl rfl
  | waiting | exited => exact h
  | popHigh | popLow =>
    rw [ThreadPool.workFrom]
    split
    · exact h.move hw rfl rfl rfl rfl
    · next t rest hqueue =>
      refine h.of_work hw rfl rfl rfl rfl (fun t' => ?_) ?_ rfl rfl
      · simp only [hqueue, Worker.task, ThreadPool.move, List.count_cons, List.count_nil]
        omega
      · simp only [hqueue, waitingTasks, Worker.uncredited, ThreadPool.move, List.length_cons]
        omega
  | popped t =>
    refine h.of_work hw rfl rfl rfl rfl (fun _ => rfl) ?_ rfl rfl
    simp only [ThreadPool.workFrom, waitingTasks, Worker.uncredited, ThreadPool.move]
    bv_omega
  | counted t | ran =>
    refine h.of_work hw rfl rfl rfl rfl (fun _ => rfl) rfl ?_ rfl
    simp only [ThreadPool.workFrom, Worker.busy, ThreadPool.move]
    bv_omega
  | running t =>
    refine h.of_work hw rfl rfl rfl rfl (fun t' => ?_) rfl rfl ?_
    · simp only [ThreadPool.workFrom, Worker.task, ThreadPool.move, List.count_append, List.count_nil]
      omega
    · simp only [ThreadPool.workFrom, Worker.unrecorded, ThreadPool.move, List.length_append,
        List.length_singleton]
      omega
  | finished =>
    refine h.of_work hw rfl rfl rfl rfl (fun _ => rfl) rfl rfl ?_
    simp only [ThreadPool.workFrom, Worker.unrecorded, ThreadPool.move]
    bv_omega

theorem Accounted.advanceFrom (h : p.Accounted) (hc : p.calls[i]? = some c) :
    (p.advanceFrom i pick c).Accounted := by
  have hsame : ∀ f : Worker → Nat, f .notified = f .waiting →
      CS.total f p.workers = CS.total f p.workers := fun _ _ => rfl
  obtain ⟨kind, tier, place, remaining, accepted, refused⟩ := c
  cases place with
  | check =>
    unfold ThreadPool.advanceFrom
    dsimp only
    split_ifs
    all_goals exact h.of_advance hc rfl hsame rfl rfl rfl rfl (fun _ => rfl) (fun _ => rfl) rfl rfl
  | next =>
    cases remaining with
    | nil => exact h.of_advance hc rfl hsame rfl rfl rfl rfl (fun _ => rfl) (fun _ => rfl) rfl rfl
    | cons t rest =>
      unfold ThreadPool.advanceFrom
      dsimp only
      split_ifs
      · refine h.of_advance hc rfl hsame rfl rfl rfl rfl (fun _ => rfl) (fun t' => ?_) rfl rfl
        simp only [Submission.tasks, List.append_assoc, List.singleton_append]
      · obtain ⟨high, low, hpush, hlength, hcount⟩ := p.push_cases t tier
        rw [hpush]
        refine h.of_advance hc rfl hsame rfl rfl rfl rfl (fun t' => ?_) (fun t' => ?_) ?_ ?_
        · have hcount' := hcount t'
          simp only [ThreadPool.put, List.count_append]
          omega
        · -- The task moves from those remaining to those accepted.
          simp only [Submission.tasks, List.count_append, List.count_cons, List.count_nil]
          omega
        · change (p.queued.toNat + 1 + p.waitingTasks) % 2 ^ 64 =
            (p.queued.toNat + 0 + (high.length + low.length)) % 2 ^ 64
          omega
        · change (p.enqueued.toNat + 1 + accepted.length) % 2 ^ 64 =
            (p.enqueued.toNat + 0 + (accepted ++ [t]).length) % 2 ^ 64
          rw [List.length_append, List.length_singleton]
          omega
  | pushed =>
    refine h.of_advance hc rfl hsame rfl rfl rfl rfl (fun _ => rfl) (fun _ => rfl) ?_ rfl
    change ((p.queued + 1).toNat + 0 + p.waitingTasks) % 2 ^ 64 =
      (p.queued.toNat + 1 + p.waitingTasks) % 2 ^ 64
    bv_omega
  | counted =>
    refine h.of_advance hc rfl hsame rfl rfl rfl rfl (fun _ => rfl) (fun _ => rfl) rfl ?_
    change ((p.enqueued + 1).toNat + 0 + accepted.length) % 2 ^ 64 =
      (p.enqueued.toNat + 1 + accepted.length) % 2 ^ 64
    bv_omega
  | notify =>
    unfold ThreadPool.advanceFrom
    dsimp only
    obtain ⟨workers, hnotify, -, htotal⟩ := p.notifyAccepted_cases accepted.length pick
    rw [hnotify]
    split_ifs
    all_goals exact h.of_advance hc rfl htotal rfl rfl rfl rfl (fun _ => rfl) (fun _ => rfl) rfl rfl
  | returned | threw => exact h

theorem count_range'_le (m n t : Nat) :
    (List.range' m n).count t ≤ if m ≤ t ∧ t < m + n then 1 else 0 := by
  split_ifs with ht
  · exact List.nodup_iff_count_le_one.mp List.nodup_range' t
  · rw [Nat.le_zero, List.count_eq_zero, List.mem_range'_1]
    exact ht

theorem Accounted.startCall (h : p.Accounted) (kind : CallKind) (token : CapabilityToken)
    (count : Nat) : (p.startCall kind token count).Accounted := by
  have hplace : ∀ f : CallPlace → Nat, f .check = 0 → f .threw = 0 →
      f (if token.valid then .check else .threw) = 0 := by
    intro f hcheck hthrew
    split_ifs <;> assumption
  constructor
  · intro t
    change CS.total (·.accepted.count t) (p.calls ++ [_]) = _
    rw [CS.total_concat]
    exact h.tasks t
  · intro t
    have hold := h.fresh t
    have hnew := count_range'_le p.nextTask (if kind = .enqueueBatch then count else 1) t
    change CS.total (·.tasks.count t) (p.calls ++ [_]) ≤ if t < p.nextTask + _ then 1 else 0
    rw [CS.total_concat]
    change CS.total _ p.calls + (List.range' p.nextTask _).count t ≤ _
    generalize (if kind = .enqueueBatch then count else 1) = n at hnew ⊢
    -- Old numbers are below the new ones, so a task is counted on one side only.
    by_cases hlt : t < p.nextTask
    · rw [if_neg (by omega)] at hnew
      rw [if_pos hlt] at hold
      rw [if_pos (by omega)]
      omega
    · rw [if_neg hlt] at hold
      have hiff : (p.nextTask ≤ t ∧ t < p.nextTask + n) ↔ t < p.nextTask + n := by omega
      simp only [hiff] at hnew
      omega
  · change (p.queued.toNat + CS.total Submission.uncounted (p.calls ++ [_])) % 2 ^ 64 = _
    rw [CS.total_concat, Submission.uncounted, hplace CallPlace.uncounted rfl rfl]
    exact h.queued
  · exact h.running
  · change (p.enqueued.toNat + CS.total Submission.untallied (p.calls ++ [_])) % 2 ^ 64 =
      CS.total (·.accepted.length) (p.calls ++ [_]) % 2 ^ 64
    rw [CS.total_concat, CS.total_concat, Submission.untallied,
      hplace CallPlace.untallied rfl rfl]
    exact h.enqueued
  · exact h.executed

theorem Accounted.notifyAll (h : p.Accounted) : p.notifyAll.Accounted := by
  refine ⟨fun t => ?_, h.fresh, ?_, ?_, h.enqueued, ?_⟩
  · exact (@total_map_notify (·.task.count t) rfl p.workers).symm ▸ h.tasks t
  · exact (@total_map_notify Worker.uncredited rfl p.workers).symm ▸ h.queued
  · exact (@total_map_notify Worker.busy rfl p.workers).symm ▸ h.running
  · exact (@total_map_notify Worker.unrecorded rfl p.workers).symm ▸ h.executed

theorem Accounted.step (h : p.Accounted) (a : PoolStep) : (p.step a).2.Accounted := by
  change (p.next a).Accounted
  cases a with
  | call kind token count => exact h.startCall kind token count
  | advance i pick =>
    rw [next]
    cases hc : p.calls[i]? with
    | none => exact h
    | some c => exact h.advanceFrom hc
  | work i =>
    rw [next]
    cases hw : p.workers[i]? with
    | none => exact h
    | some w => exact h.workFrom hw
  | wake i =>
    rw [next]
    cases hw : p.workers[i]? with
    | none => exact h
    | some w => cases w <;> exact h.move hw rfl rfl rfl rfl
  | shutdown =>
    rw [next]
    cases hshutdown : p.shutdown with
    | notCalled | joining =>
      rw [shutdownFrom]
      split_ifs
      · exact { h with }
      · exact h
    | stopped =>
      have hall := h.notifyAll
      exact { hall with }
    | draining => exact { h with }
    | returned => exact h

theorem Accounted.waitingTasks_le (h : p.Accounted) (hfits : p.Fits) (hqueued : p.queued = 0) :
    p.waitingTasks + CS.total Worker.uncredited p.workers ≤
      CS.total Submission.uncounted p.calls := by
  have huncredited := CS.total_le_length Worker.uncredited_le_one p.workers
  have hcount := h.queued
  rw [hqueued] at hcount
  change (0 + _) % 2 ^ 64 = _ at hcount
  unfold Fits at hfits
  omega

/-- What a step of the schedule can do. -/
theorem next_cases (p : ThreadPool) (a : PoolStep) :
    p.next a = p ∨
    (∃ kind token count, p.next a = p.startCall kind token count) ∨
    (∃ i pick c c', a = .advance i pick ∧ p.calls[i]? = some c ∧
      (p.next a).calls = p.calls.set i c' ∧ CallStep p (p.next a) c c') ∨
    (∃ (i : Nat) (w w' : Worker), p.workers[i]? = some w ∧
      (p.next a).workers = p.workers.set i w' ∧ WorkStep p (p.next a) w w') ∨
    (a = .shutdown ∧ p.next a = p.shutdownFrom p.shutdown) := by
  cases a with
  | call kind token count => exact .inr (.inl ⟨kind, token, count, rfl⟩)
  | advance i pick =>
    rw [next]
    cases hc : p.calls[i]? with
    | none => exact .inl rfl
    | some c =>
      rw [Option.elim_some]
      rcases p.exists_callStep i pick c with heq | ⟨c', hcalls, hstep⟩
      · exact .inl heq
      · exact .inr (.inr (.inl ⟨i, pick, c, c', rfl, hc, hcalls, hstep⟩))
  | work i =>
    rw [next]
    cases hw : p.workers[i]? with
    | none => exact .inl rfl
    | some w =>
      obtain ⟨w', hworkers, hstep⟩ := exists_workStep hw
      exact .inr (.inr (.inr (.inl ⟨i, w, w', hw, hworkers, hstep⟩)))
  | wake i =>
    rw [next]
    cases hw : p.workers[i]? with
    | none => exact .inl rfl
    | some w =>
      exact .inr (.inr (.inr (.inl ⟨i, w, w.notify, hw, rfl, workStep_notify w⟩)))
  | shutdown => exact .inr (.inr (.inr (.inr ⟨rfl, rfl⟩)))

theorem total_replicate {f : Worker → Nat} {w : Worker} (hf : f w = 0) (n : Nat) :
    CS.total f (List.replicate n w) = 0 := by
  induction n with
  | zero => rfl
  | succ n ih => rw [List.replicate_succ, CS.total_cons, ih, hf]

theorem accounted_construct (config : PoolConfig) (hardware : Nat) :
    (construct config hardware).Accounted := by
  have hzero (f : Worker → Nat) (hf : f .start = 0) :
      CS.total f (construct config hardware).workers = 0 := total_replicate hf _
  constructor
  · intro t
    rw [hzero (·.task.count t) rfl]
    rfl
  · exact fun t => Nat.zero_le _
  · rw [hzero _ rfl]
    rfl
  · rw [hzero _ rfl]
    rfl
  · rfl
  · rw [hzero _ rfl]
    rfl

theorem workers_construct_pos (config : PoolConfig) (hardware : Nat) :
    0 < (construct config hardware).workers.length := by
  rw [construct, List.length_replicate, resolveWorkerCount]
  split_ifs <;> omega

end ThreadPool

end VirtualHsm
