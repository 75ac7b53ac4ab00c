import VirtualHsm.CS.Run
import VirtualHsm.Notification.BoundedNotificationBus

/-!
# The notification bus under any interleaving

Every method of the bus takes its lock for the whole call, `pop_timeout` apart, which gives the
lock up while it waits and looks at the queue again under the lock when it wakes. So an
interleaving of calls is a list of steps of threads, and a thread that waits takes no other step
than to wake: when it is notified, when its time is up, or for no reason at all.
-/

namespace VirtualHsm

/-- What a thread does with the bus. -/
inductive BusCall
  | publish (event : NotificationEvent)
  | tryPop
  | popTimeout
  /-- The thread wakes inside `wait_for`, with its time up or not. -/
  | wake (timeUp : Bool)
  deriving DecidableEq, Repr

structure BusStep where
  thread : Nat
  call : BusCall
  deriving DecidableEq, Repr

inductive BusAnswer
  | queued
  | dropped
  | popped (event : NotificationEvent)
  /-- The call returns false. -/
  | empty
  | waits
  /-- The step is not up for the thread. -/
  | skipped
  deriving DecidableEq, Repr

structure BusThreads where
  bus : BoundedNotificationBus
  /-- The threads inside `wait_for`. -/
  waiting : Nat → Bool := fun _ => false

namespace BusThreads

def start (capacity : Nat) : BusThreads where
  bus := .construct capacity

/-- Pop an event for the thread, which then waits no more; without one, go on otherwise. -/
def popOr (s : BusThreads) (thread : Nat) (otherwise : BusAnswer × BusThreads) :
    BusAnswer × BusThreads :=
  match s.bus.tryPop with
  | (some event, bus) => (.popped event, ⟨bus, Function.update s.waiting thread false⟩)
  | (none, _) => otherwise

/-- A step under the lock. -/
def step (s : BusThreads) (x : BusStep) : BusAnswer × BusThreads :=
  match s.waiting x.thread, x.call with
  | false, .publish event =>
    let out := s.bus.publish event
    (if out.1 then .queued else .dropped, { s with bus := out.2 })
  | false, .tryPop => s.popOr x.thread (.empty, s)
  | false, .popTimeout =>
    s.popOr x.thread (.waits, { s with waiting := Function.update s.waiting x.thread true })
  | true, .wake timeUp =>
    -- The predicate is asked once more when the time is up.
    s.popOr x.thread
      (if timeUp then (.empty, { s with waiting := Function.update s.waiting x.thread false })
        else (.waits, s))
  | _, _ => (.skipped, s)

end BusThreads

/-! ### Histories -/

/-- The event of a publishing call. -/
def BusCall.event : BusCall → Option NotificationEvent
  | .publish event => some event
  | .tryPop | .popTimeout | .wake _ => none

/-- The events of publishing calls, dropped or not. -/
def publishedEvents (log : List (BusStep × BusAnswer)) : List NotificationEvent :=
  log.filterMap fun x => if x.2 = .queued ∨ x.2 = .dropped then x.1.call.event else none

/-- The events that were accepted, in the order in which they were published. -/
def queuedEvents (log : List (BusStep × BusAnswer)) : List NotificationEvent :=
  log.filterMap fun x => if x.2 = .queued then x.1.call.event else none

/-- The event that a call has handed to a consumer. -/
def BusAnswer.event : BusAnswer → Option NotificationEvent
  | .popped event => some event
  | .queued | .dropped | .empty | .waits | .skipped => none

/-- The events that consumers got, in this order. -/
def poppedEvents (log : List (BusStep × BusAnswer)) : List NotificationEvent :=
  log.filterMap fun x => x.2.event

private theorem filterMap_concat {α β : Type} (f : α → Option β) (l : List α) (a : α) :
    (l ++ [a]).filterMap f = l.filterMap f ++ (f a).toList := by
  cases h : f a <;> simp [h]

section Concat

variable (log : List (BusStep × BusAnswer)) (x : BusStep × BusAnswer)

theorem publishedEvents_concat :
    publishedEvents (log ++ [x]) = publishedEvents log ++
      (if x.2 = .queued ∨ x.2 = .dropped then x.1.call.event else none).toList :=
  filterMap_concat _ log x

theorem queuedEvents_concat :
    queuedEvents (log ++ [x]) = queuedEvents log ++
      (if x.2 = .queued then x.1.call.event else none).toList :=
  filterMap_concat _ log x

theorem poppedEvents_concat : poppedEvents (log ++ [x]) = poppedEvents log ++ x.2.event.toList :=
  filterMap_concat _ log x

end Concat

namespace BusThreads

/-! ### Steps -/

/-- What a step does: an event is put at the end of a queue that is not full, or dropped from a full
one, or taken from its front, or the bus is left alone. -/
inductive Moves (s s' : BusThreads) : BusCall → BusAnswer → Prop
  | queued (event : NotificationEvent) (hroom : s.bus.queue.length < s.bus.capacity)
      (hqueue : s'.bus.queue = s.bus.queue ++ [event]) (hdropped : s'.bus.dropped = s.bus.dropped) :
      Moves s s' (.publish event) .queued
  | dropped (event : NotificationEvent) (hfull : s.bus.queue.length = s.bus.capacity)
      (hqueue : s'.bus.queue = s.bus.queue) (hdropped : s'.bus.dropped = s.bus.dropped + 1) :
      Moves s s' (.publish event) .dropped
  | popped (call : BusCall) (event : NotificationEvent)
      (hqueue : s.bus.queue = event :: s'.bus.queue) (hdropped : s'.bus.dropped = s.bus.dropped) :
      Moves s s' call (.popped event)
  | alone (call : BusCall) (answer : BusAnswer) (hanswer : answer ∈ [.empty, .waits, .skipped])
      (hbus : s'.bus = s.bus) : Moves s s' call answer

variable {s : BusThreads}

theorem moves_popOr {thread : Nat} {call : BusCall} {otherwise : BusAnswer × BusThreads}
    (hanswer : otherwise.1 ∈ [.empty, .waits, .skipped]) (hbus : otherwise.2.bus = s.bus) :
    Moves s (s.popOr thread otherwise).2 call (s.popOr thread otherwise).1 := by
  obtain ⟨hhead, htail, hdropped⟩ := s.bus.tryPop_eq
  unfold popOr
  generalize s.bus.tryPop = out at hhead htail hdropped
  obtain ⟨found, bus⟩ := out
  cases found with
  | none => exact .alone call _ hanswer hbus
  | some event =>
    refine .popped call event ?_ hdropped
    change s.bus.queue = event :: bus.queue
    rw [htail]
    exact (List.cons_head?_tail hhead.symm).symm

theorem step_cases (s : BusThreads) (x : BusStep) : Moves s (s.step x).2 x.call (s.step x).1 := by
  obtain ⟨thread, call⟩ := x
  unfold step
  split
  · next event _ hcall =>
    -- The answer of `publish` says whether there was room.
    subst hcall
    obtain ⟨hqueue, hdropped⟩ := s.bus.publish_snd event
    have hroom : (s.bus.publish event).1 = true ↔ _ := BoundedNotificationBus.publish_fst
    cases hout : (s.bus.publish event).1 with
    | true =>
      rw [hout] at hqueue hdropped hroom
      simp only [hout, if_true]
      exact .queued event (hroom.mp rfl) hqueue hdropped
    | false =>
      rw [hout] at hqueue hdropped hroom
      have hfull := Nat.not_lt.mp fun h => Bool.false_ne_true (hroom.mpr h)
      simp only [hout, Bool.false_eq_true, if_false]
      exact .dropped event (Nat.le_antisymm s.bus.length_le hfull) hqueue hdropped
  · next hcall =>
    subst hcall
    exact moves_popOr (by simp) rfl
  · next hcall =>
    subst hcall
    exact moves_popOr (by simp) rfl
  · next timeUp _ hcall =>
    subst hcall
    cases timeUp with
    | true | false => exact moves_popOr (by simp) rfl
  · exact .alone call .skipped (by simp) rfl

theorem capacity_step (s : BusThreads) (x : BusStep) :
    (s.step x).2.bus.capacity = s.bus.capacity := by
  have hpop (thread : Nat) (otherwise : BusAnswer × BusThreads)
      (hbus : otherwise.2.bus = s.bus) :
      (s.popOr thread otherwise).2.bus.capacity = s.bus.capacity := by
    have hcapacity := s.bus.capacity_tryPop
    unfold popOr
    generalize s.bus.tryPop = out at hcapacity
    obtain ⟨found, bus⟩ := out
    cases found with
    | none => exact congrArg _ hbus
    | some event => exact hcapacity
  unfold step
  split
  · exact s.bus.capacity_publish _
  · exact hpop _ _ rfl
  · exact hpop _ _ rfl
  · refine hpop _ _ ?_
    split_ifs <;> rfl
  · rfl

/-! ### Whole interleavings -/

theorem capacity_run (capacity : Nat) (steps : List BusStep) :
    (CS.run step (start capacity) steps).bus.capacity = max capacity 1 := by
  refine CS.run_history (fun _ (s : BusThreads) => s.bus.capacity = max capacity 1)
    (fun done x h => ?_) ?_ steps
  · exact (capacity_step _ x).trans h
  · exact BoundedNotificationBus.capacity_construct capacity

/-- What the steps so far have found, against the bus that they have led to. -/
structure Accounted (log : List (BusStep × BusAnswer)) (s : BusThreads) : Prop where
  /-- First in, first out. -/
  fifo : poppedEvents log ++ s.bus.queue = queuedEvents log
  /-- Nothing is lost without being counted. -/
  count : (publishedEvents log).length =
    (poppedEvents log).length + s.bus.queue.length + s.bus.dropped

theorem Accounted.step {log : List (BusStep × BusAnswer)} (h : Accounted log s) (x : BusStep) :
    Accounted (log ++ [(x, (s.step x).1)]) (s.step x).2 := by
  obtain ⟨hfifo, hcount⟩ := h
  obtain ⟨thread, call⟩ := x
  have hmoves := s.step_cases ⟨thread, call⟩
  generalize s.step ⟨thread, call⟩ = out at hmoves
  obtain ⟨answer, s'⟩ := out
  dsimp only at hmoves ⊢
  cases hmoves with
  | queued event _ hqueue hdropped | dropped event _ hqueue hdropped =>
    -- Neither order knows of an event that is dropped; it is in the count only.
    constructor
    · rw [poppedEvents_concat, queuedEvents_concat, hqueue, ← hfifo]
      simp [BusAnswer.event, BusCall.event]
    · rw [publishedEvents_concat, poppedEvents_concat, hqueue, hdropped]
      simp [BusAnswer.event, BusCall.event, hcount]
      omega
  | popped call event hqueue hdropped =>
    -- The event goes from the front of the queue to the end of what was popped.
    rw [hqueue] at hfifo hcount
    constructor
    · rw [poppedEvents_concat, queuedEvents_concat, ← hfifo]
      simp [BusAnswer.event]
    · rw [publishedEvents_concat, poppedEvents_concat, hdropped]
      simp [BusAnswer.event, hcount]
      omega
  | alone call answer hanswer hbus =>
    simp only [List.mem_cons, List.not_mem_nil, or_false] at hanswer
    constructor
    · rw [poppedEvents_concat, queuedEvents_concat, hbus, ← hfifo]
      rcases hanswer with rfl | rfl | rfl <;> simp [BusAnswer.event]
    · rw [publishedEvents_concat, poppedEvents_concat, hbus]
      rcases hanswer with rfl | rfl | rfl <;> simp [BusAnswer.event, hcount]

end BusThreads

end VirtualHsm
