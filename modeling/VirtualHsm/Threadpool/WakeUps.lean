import VirtualHsm.Threadpool.ThreadPool

/-!
# Wake-ups

A worker evaluates the condition it waits for while it holds the state mutex. A call that hands over
a task changes the counter in that condition without the mutex. Between the evaluation and the
moment at which the worker is blocked, the task can be counted and the notification sent; it finds
nobody to wake, and the worker blocks with the task in the queue.

When no task is counted in that window, a worker that finds the counter at zero finds every task in
the queues still owed to the counter, and the call that owes it has yet to notify.
-/

namespace VirtualHsm

namespace ThreadPool

/-- An accepted task is in a queue, every worker is blocked without having been notified, and every
call is over. -/
def Stuck (p : ThreadPool) : Prop :=
  (∃ t ∈ p.accepted, t ∈ p.high ∨ t ∈ p.low) ∧ (∀ w ∈ p.workers, w = .waiting) ∧
    ∀ c ∈ p.calls, c.place = .returned ∨ c.place = .threw

instance (p : ThreadPool) : Decidable p.Stuck := inferInstanceAs (Decidable (_ ∧ _ ∧ _))

/-- No call counts a task while a worker has found the condition false and is not yet blocked. -/
def BlocksFirst (p : ThreadPool) : PoolStep → Prop
  | .advance i _ =>
    p.Fits ∧ ∀ c ∈ p.calls[i]?, c.place = .pushed → Worker.refused ∉ p.workers
  | .call .. | .work _ | .wake _ | .shutdown => p.Fits

instance (p : ThreadPool) : (a : PoolStep) → Decidable (p.BlocksFirst a)
  | .advance _ _ => inferInstanceAs (Decidable (_ ∧ _))
  | .call .. | .work _ | .wake _ | .shutdown => inferInstanceAs (Decidable p.Fits)

/-- While a worker is about to block, every task that waits is owed to the counter; and while all
workers are blocked, a task that waits is owed a notification. -/
structure Awake (p : ThreadPool) : Prop where
  accounted : p.Accounted
  workers_pos : 0 < p.workers.length
  hollow : CS.total Submission.hollow p.calls = 0
  refused : 0 < CS.total (Worker.isAt .refused) p.workers →
    p.waitingTasks + CS.total Worker.uncredited p.workers ≤ CS.total Submission.uncounted p.calls
  blocked : CS.total (Worker.isAt .waiting) p.workers = p.workers.length → 0 < p.waitingTasks →
    0 < CS.total Submission.owes p.calls

variable {p p' : ThreadPool} {i pick : Nat} {w w' : Worker} {c c' : Submission} {a : PoolStep}

theorem BlocksFirst.fits (ha : p.BlocksFirst a) : p.Fits := by
  cases a with
  | advance i pick => exact ha.1
  | call kind token count | work i | wake i | shutdown => exact ha

theorem uncounted_le_owes (c : Submission) : c.uncounted ≤ c.owes + c.hollow := by
  obtain ⟨kind, tier, place, remaining, accepted, refused⟩ := c
  cases place with
  | pushed =>
    by_cases hnil : accepted = []
    · simp [hnil, Submission.uncounted, Submission.hollow, Submission.untallied,
        CallPlace.uncounted, CallPlace.untallied]
    · simp [hnil, Submission.uncounted, Submission.owes, CallPlace.uncounted,
        CallPlace.unnotified]
  | check | next | counted | notify | returned | threw => exact Nat.zero_le _

theorem Awake.uncounted_le_owes (h : p.Awake) :
    CS.total Submission.uncounted p.calls ≤ CS.total Submission.owes p.calls := by
  have hle := CS.total_le_total ThreadPool.uncounted_le_owes p.calls
  have hsum : CS.total (fun c : Submission => c.owes + c.hollow) p.calls =
      CS.total Submission.owes p.calls + CS.total Submission.hollow p.calls := List.sum_map_add
  have hhollow := h.hollow
  omega

/-! ### One step -/

theorem Awake.of_workStep (h : p.Awake) (hfits : p.Fits) (hw : p.workers[i]? = some w)
    (hworkers : p'.workers = p.workers.set i w') (hstep : WorkStep p p' w w')
    (haccounted : p'.Accounted) : p'.Awake := by
  have hset (f : Worker → Nat) : CS.total f p'.workers + f w = CS.total f p.workers + f w' :=
    hworkers ▸ CS.total_set f hw w'
  have hlength : p'.workers.length = p.workers.length := by rw [hworkers, List.length_set]
  have hmem : w ∈ p.workers := List.mem_of_getElem? hw
  -- Taking a task out of a queue does not change what the counter should say.
  have hbalance : p'.waitingTasks + CS.total Worker.uncredited p'.workers ≤
      p.waitingTasks + CS.total Worker.uncredited p.workers := by
    have hlocal := hstep.balance_le
    have hmoved := hset Worker.uncredited
    omega
  refine ⟨haccounted, hlength ▸ h.workers_pos, ?_, fun hpos => ?_, fun hall hwaiting => ?_⟩
  · rw [hstep.calls]
    exact h.hollow
  · rw [hstep.calls]
    have hmoved := hset (Worker.isAt .refused)
    by_cases hbefore : 0 < CS.total (Worker.isAt .refused) p.workers
    · exact hbalance.trans (h.refused hbefore)
    · -- This worker has just read the counter.
      obtain rfl : w' = .refused := Worker.eq_of_isAt_pos (by omega)
      rcases hstep.refuses rfl with rfl | hqueued
      · have hself := Worker.isAt_self .refused
        omega
      · exact hbalance.trans (h.accounted.waitingTasks_le hfits hqueued)
  · rw [hstep.calls]
    have hle := hstep.waitingTasks_le
    have hmoved := hset (Worker.isAt .waiting)
    have hi : i < p.workers.length := (List.getElem?_eq_some_iff.mp hw).1
    have hmem' : w' ∈ p'.workers := hworkers ▸ List.mem_set hi w'
    have hone := CS.eq_one_of_total_eq_length (Worker.isAt_le_one .waiting) hall hmem'
    obtain rfl : w' = .waiting := Worker.eq_of_isAt_pos (by omega)
    rcases hstep.waits rfl with rfl | rfl
    · exact h.blocked (by omega) (by omega)
    · -- The last worker blocks: it found the tasks owed to the counter.
      have hrefused := CS.le_total (Worker.isAt .refused) hmem
      rw [Worker.isAt_self] at hrefused
      have howed := h.refused (by omega)
      have hcalls := h.uncounted_le_owes
      omega

theorem Awake.of_callStep (h : p.Awake) (hc : p.calls[i]? = some c)
    (hguard : c.place = .pushed → Worker.refused ∉ p.workers) (hcalls : p'.calls = p.calls.set i c')
    (hstep : CallStep p p' c c') (haccounted : p'.Accounted) : p'.Awake := by
  have hset (f : Submission → Nat) : CS.total f p'.calls + f c = CS.total f p.calls + f c' :=
    hcalls ▸ CS.total_set f hc c'
  have hmem : c ∈ p.calls := List.mem_of_getElem? hc
  have howes := hset Submission.owes
  have howesMem := CS.le_total Submission.owes hmem
  refine ⟨haccounted, hstep.length_workers ▸ h.workers_pos, ?_, fun hpos => ?_,
    fun hall hwaiting => ?_⟩
  · have hhollow := hset Submission.hollow
    have hhollowMem := CS.le_total Submission.hollow hmem
    have hle := hstep.hollow_le
    have hzero := h.hollow
    omega
  · rw [hstep.workers (Worker.isAt .refused) rfl] at hpos
    obtain ⟨w, hw, hat⟩ := CS.total_pos_iff.mp hpos
    have hplace : c.place ≠ .pushed := fun hpushed =>
      hguard hpushed (Worker.eq_of_isAt_pos hat ▸ hw)
    have hbalance := hstep.balance hplace
    have hmoved := hset Submission.uncounted
    have howed := h.refused hpos
    rw [hstep.workers Worker.uncredited rfl]
    omega
  · have hwaitingLe := hstep.waiting_le
    have hlength := hstep.length_workers
    have hbound := CS.total_le_length (Worker.isAt_le_one .waiting) p.workers
    have hblocked := h.blocked (by omega)
    by_cases hplace : c.place = .notify
    · -- A call that owes a notification would have woken somebody.
      have hbusy : c.busy = 0 := by rw [Submission.busy, hplace]; rfl
      have hle := hstep.waitingTasks_le
      have hwakes := hstep.wakes hplace
      have hworkers := h.workers_pos
      have howed := hblocked (by omega)
      omega
    · have hle := hstep.owes_le hplace
      by_cases hbefore : 0 < p.waitingTasks
      · have howed := hblocked hbefore
        omega
      · have hpushed := hstep.pushes (by omega)
        omega

theorem Awake.startCall (h : p.Awake) (kind : CallKind) (token : CapabilityToken) (count : Nat) :
    (p.startCall kind token count).Awake := by
  -- A new call has handed over nothing, so it contributes to no total.
  have hsame (f : Submission → Nat) (hf : ∀ tier place remaining, place = .check ∨ place = .threw →
      f { kind, tier, place, remaining } = 0) :
      CS.total f (p.startCall kind token count).calls = CS.total f p.calls := by
    change CS.total f (p.calls ++ [_]) = _
    rw [CS.total_concat, hf, Nat.add_zero]
    split_ifs <;> simp
  refine ⟨h.accounted.startCall kind token count, h.workers_pos, ?_, fun hpos => ?_,
    fun hall hwaiting => ?_⟩
  · rw [hsame]
    · exact h.hollow
    · rintro tier place remaining (rfl | rfl) <;> rfl
  · rw [hsame]
    · exact h.refused hpos
    · rintro tier place remaining (rfl | rfl) <;> rfl
  · rw [hsame]
    · exact h.blocked hall hwaiting
    · rintro tier place remaining (rfl | rfl) <;> rfl

theorem Awake.shutdown (h : p.Awake) : (p.shutdownFrom p.shutdown).Awake := by
  have haccounted : (p.shutdownFrom p.shutdown).Accounted := h.accounted.step .shutdown
  cases hshutdown : p.shutdown with
  | notCalled | joining =>
    rw [hshutdown, shutdownFrom] at haccounted
    rw [shutdownFrom]
    split_ifs at haccounted ⊢
    · exact { h with accounted := haccounted }
    · exact h
  | stopped =>
    rw [hshutdown, shutdownFrom] at haccounted
    refine ⟨haccounted, ?_, h.hollow, fun hpos => ?_, fun hall => ?_⟩
    · rw [shutdownFrom, notifyAll, List.length_map]
      exact h.workers_pos
    · change 0 < CS.total (Worker.isAt .refused) (p.workers.map Worker.notify) at hpos
      change p.waitingTasks + CS.total Worker.uncredited (p.workers.map Worker.notify) ≤ _
      rw [total_map_notify rfl] at hpos ⊢
      exact h.refused hpos
    · -- Nobody is blocked any more.
      have hzero := p.total_waiting_notifyAll
      have hpos := h.workers_pos
      rw [shutdownFrom, hzero, notifyAll, List.length_map] at hall
      omega
  | draining =>
    rw [hshutdown, shutdownFrom] at haccounted
    exact { h with accounted := haccounted }
  | returned => exact h

theorem Awake.step (h : p.Awake) (ha : p.BlocksFirst a) : (p.step a).2.Awake := by
  have haccounted : (p.next a).Accounted := h.accounted.step a
  change (p.next a).Awake
  rcases p.next_cases a with heq | ⟨kind, token, count, heq⟩ |
    ⟨i, pick, c, c', rfl, hc, hcalls, hstep⟩ | ⟨i, w, w', hw, hworkers, hstep⟩ | ⟨-, heq⟩
  · rw [heq]
    exact h
  · rw [heq]
    exact h.startCall kind token count
  · exact h.of_callStep hc (ha.2 c hc) hcalls hstep haccounted
  · exact h.of_workStep ha.fits hw hworkers hstep haccounted
  · rw [heq]
    exact h.shutdown

/-! ### Whole runs -/

theorem awake_construct (config : PoolConfig) (hardware : Nat) :
    (construct config hardware).Awake := by
  refine ⟨accounted_construct config hardware, workers_construct_pos config hardware, rfl,
    fun _ => ?_, fun _ hpos => absurd hpos (Nat.lt_irrefl 0)⟩
  rw [construct, total_replicate rfl]
  exact le_rfl

theorem Awake.not_stuck (h : p.Awake) : ¬ p.Stuck := by
  rintro ⟨⟨t, -, hqueue⟩, hworkers, hcalls⟩
  have hwaiting : 0 < p.waitingTasks := by
    unfold waitingTasks
    rcases hqueue with hhigh | hlow
    · have hpos := List.length_pos_of_mem hhigh
      omega
    · have hpos := List.length_pos_of_mem hlow
      omega
  have hall : CS.total (Worker.isAt .waiting) p.workers = p.workers.length :=
    CS.total_eq_length fun w hw => by rw [hworkers w hw, Worker.isAt_self]
  -- Some call owes a notification, although it is over.
  obtain ⟨c, hc, howes⟩ := CS.total_pos_iff.mp (h.blocked hall hwaiting)
  unfold Submission.owes at howes
  rcases hcalls c hc with hplace | hplace
  all_goals
    rw [hplace] at howes
    cases howes

/-- When no task is counted while a worker is about to block, no schedule leaves an accepted task
behind with all workers blocked. -/
theorem not_stuck_of_blocksFirst (config : PoolConfig) (hardware : Nat) {steps : List PoolStep}
    (hsteps : CS.Guarded step BlocksFirst (construct config hardware) steps) :
    CS.Always step (fun p => ¬ p.Stuck) (construct config hardware) steps :=
  (hsteps.always (fun _ _ h ha => h.step ha) (awake_construct config hardware)).imp
    fun _ h => h.not_stuck

/-- The only worker blocks, a task is handed over, and the worker is woken and executes it. -/
def wokenWorker : List PoolStep :=
  List.replicate 3 (.work 0) ++ [.call .enqueue (.grant .low) 1] ++
    List.replicate 6 (.advance 0 0) ++ List.replicate 8 (.work 0)

theorem not_stuck_wokenWorker :
    (CS.run step (construct ⟨1, 1024⟩ 4) wokenWorker).doneTasks = [0] ∧
    CS.Always step (fun p => ¬ p.Stuck) (construct ⟨1, 1024⟩ 4) wokenWorker :=
  ⟨by decide +kernel, not_stuck_of_blocksFirst ⟨1, 1024⟩ 4 (by decide +kernel)⟩

/-- The only worker finds nothing to do; a task is handed over, and the notification finds nobody
blocked; then the worker blocks. -/
def missedWakeUp : List PoolStep :=
  List.replicate 2 (.work 0) ++ [.call .enqueue (.grant .low) 1] ++
    List.replicate 6 (.advance 0 0) ++ [.work 0]

theorem stuck_missedWakeUp : (CS.run step (construct ⟨1, 1024⟩ 4) missedWakeUp).Stuck := by
  decide +kernel

end ThreadPool

end VirtualHsm
