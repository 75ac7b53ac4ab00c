import Mathlib.Data.List.Basic

/-!
# The notification bus

Producers put events on a queue of bounded length and never wait: an event that finds the queue full
is dropped.
-/

namespace VirtualHsm

/-- What happened. -/
inductive NotificationEvent.EventType
  | signCreated
  | dbWriteFailed
  | ledgerCommitFailed
  | ledgerCommitted
  | ledgerVerifyFailed
  | verifyCompleted
  | verifyFailed
  | encryptCompleted
  | decryptCompleted
  | wrapKeyCompleted
  | unwrapKeyCompleted
  | keyRotated
  | keyDestroyed
  | integrityAlert
  | adminLogin
  | pinLockout
  deriving DecidableEq, Repr

inductive NotificationEvent.Severity
  | info
  | warning
  | critical
  deriving DecidableEq, Repr

structure NotificationEvent where
  type : NotificationEvent.EventType
  severity : NotificationEvent.Severity
  /-- Milliseconds since the epoch. -/
  timestamp : Int
  source : String
  actor : String
  summary : String
  detailJson : String
  hsmInstance : String
  deriving DecidableEq, Repr

/-- The queue is never longer than the capacity, and there is room for one event at least. -/
structure BoundedNotificationBus where
  capacity : Nat
  queue : List NotificationEvent := []
  /-- The number of events that found the queue full. -/
  dropped : Nat := 0
  capacity_pos : 0 < capacity
  length_le : queue.length ≤ capacity

namespace BoundedNotificationBus

/-- The constructor: no capacity counts as one. -/
def construct (capacity : Nat) : BoundedNotificationBus where
  capacity := if 0 < capacity then capacity else 1
  capacity_pos := by split_ifs <;> omega
  length_le := Nat.zero_le _

/-- `publish`, with whether the event was queued. -/
def publish (bus : BoundedNotificationBus) (event : NotificationEvent) :
    Bool × BoundedNotificationBus :=
  if h : bus.capacity ≤ bus.queue.length then
    -- Full: the newest event is the one that goes.
    (false, { bus with dropped := bus.dropped + 1 })
  else
    (true,
      { bus with
        queue := bus.queue ++ [event]
        length_le := by rw [List.length_append]; exact Nat.not_le.mp h })

/-- `try_pop`; `pop_timeout` is this when the time is up or an event is there. -/
def tryPop (bus : BoundedNotificationBus) : Option NotificationEvent × BoundedNotificationBus :=
  match h : bus.queue with
  | [] => (none, bus)
  | event :: rest =>
    (some event,
      { bus with
        queue := rest
        length_le := by
          have hle := bus.length_le
          rw [h, List.length_cons] at hle
          exact Nat.le_of_succ_le hle })

/-- An event is queued exactly when there is room. -/
theorem publish_fst {bus : BoundedNotificationBus} {event : NotificationEvent} :
    (bus.publish event).1 = true ↔ bus.queue.length < bus.capacity := by
  unfold publish
  split_ifs with hfull
  · exact iff_of_false not_false (Nat.not_lt.mpr hfull)
  · exact iff_of_true rfl (Nat.not_le.mp hfull)

section Fields

variable (bus : BoundedNotificationBus) (event : NotificationEvent)

@[simp] theorem capacity_construct (capacity : Nat) :
    (construct capacity).capacity = max capacity 1 := by
  change (if 0 < capacity then capacity else 1) = max capacity 1
  split_ifs <;> omega

@[simp] theorem capacity_publish : (bus.publish event).2.capacity = bus.capacity := by
  unfold publish
  split_ifs <;> rfl

@[simp] theorem capacity_tryPop : bus.tryPop.2.capacity = bus.capacity := by
  unfold tryPop
  split <;> rfl

/-- The newest event goes to the end of the queue, or is only counted. -/
theorem publish_snd :
    ((bus.publish event).2.queue =
        if (bus.publish event).1 then bus.queue ++ [event] else bus.queue) ∧
      (bus.publish event).2.dropped =
        if (bus.publish event).1 then bus.dropped else bus.dropped + 1 := by
  unfold publish
  by_cases hfull : bus.capacity ≤ bus.queue.length
  · simp [hfull]
  · simp [hfull]

theorem tryPop_eq :
    bus.tryPop.1 = bus.queue.head? ∧ bus.tryPop.2.queue = bus.queue.tail ∧
      bus.tryPop.2.dropped = bus.dropped := by
  unfold tryPop
  split
  · next h => simp [h]
  · next h => simp [h]

end Fields

end BoundedNotificationBus

end VirtualHsm
