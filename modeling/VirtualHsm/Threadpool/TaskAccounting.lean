import VirtualHsm.Threadpool.ThreadPool

/-!
# Every accepted task runs once

A call reads the stop flag once, before it hands over its tasks. When the shutdown sets the flag
after that, the workers may be gone before the tasks are in the queue: the call reports them as
accepted, and nobody executes them.

When no call is under way as the flag is set, a worker leaves only with the queues empty, and every
task that was accepted is done when the last one has left.
-/

namespace VirtualHsm

namespace ThreadPool

/-- No task is executed twice, a rejected one never, and after the shutdown every accepted task was
executed and the counters agree. -/
def RunsOnce (p : ThreadPool) : Prop :=
  (∀ t, p.doneTasks.count t ≤ 1) ∧ (∀ t ∈ p.rejected, t ∉ p.doneTasks) ∧
    (p.shutdown = .returned → (∀ t ∈ p.accepted, p.doneTasks.count t = 1) ∧
      p.enqueued = p.executed ∧ p.queued = 0 ∧ p.running = 0)

/-- The stop flag is set while no call is between its check of the flag and its last counter. -/
def Orderly (p : ThreadPool) (a : PoolStep) : Prop :=
  p.Fits ∧ (a = .shutdown → p.shutdown = .notCalled → ∀ c ∈ p.calls, c.busy = 0)

instance (p : ThreadPool) (a : PoolStep) : Decidable (p.Orderly a) :=
  inferInstanceAs (Decidable (_ ∧ (_ → _ → _)))

/-- After the flag is set no call hands over tasks, and a worker that has left saw empty queues. -/
structure Drained (p : ThreadPool) : Prop where
  accounted : p.Accounted
  workers_pos : 0 < p.workers.length
  stopped : p.stopping = true → CS.total Submission.busy p.calls = 0
  exited : 0 < CS.total (Worker.isAt .exited) p.workers → p.stopping = true ∧ p.waitingTasks = 0
  returned : p.shutdown = .returned →
    CS.total (Worker.isAt .exited) p.workers = p.workers.length

variable {p p' : ThreadPool} {i pick : Nat} {w w' : Worker} {c c' : Submission} {a : PoolStep}

theorem uncounted_le_busy (c : Submission) : c.uncounted ≤ c.busy := by
  unfold Submission.uncounted Submission.busy
  cases c.place <;> decide

theorem untallied_le_busy (c : Submission) : c.untallied ≤ c.busy := by
  unfold Submission.untallied Submission.busy
  cases c.place <;> decide

/-! ### One step -/

theorem Drained.waitingTasks_eq_zero (h : p.Drained) (hfits : p.Fits)
    (hstopping : p.stopping = true) (hqueued : p.queued = 0) : p.waitingTasks = 0 := by
  have hbusy := h.stopped hstopping
  have huncounted := CS.total_le_total uncounted_le_busy p.calls
  have hle := h.accounted.waitingTasks_le hfits hqueued
  omega

theorem Drained.of_workStep (h : p.Drained) (hfits : p.Fits) (hw : p.workers[i]? = some w)
    (hworkers : p'.workers = p.workers.set i w') (hstep : WorkStep p p' w w')
    (haccounted : p'.Accounted) : p'.Drained := by
  have htotal : CS.total (Worker.isAt .exited) p'.workers + Worker.isAt .exited w =
      CS.total (Worker.isAt .exited) p.workers + Worker.isAt .exited w' :=
    hworkers ▸ CS.total_set _ hw w'
  have hlength : p'.workers.length = p.workers.length := by rw [hworkers, List.length_set]
  have hmem : w ∈ p.workers := List.mem_of_getElem? hw
  refine ⟨haccounted, hlength ▸ h.workers_pos, ?_, fun hpos => ?_, fun hreturned => ?_⟩
  · rw [hstep.stopping, hstep.calls]
    exact h.stopped
  · -- Some worker had left before, or this one leaves now.
    have hle := hstep.waitingTasks_le
    by_cases hbefore : 0 < CS.total (Worker.isAt .exited) p.workers
    · obtain ⟨hstopping, hempty⟩ := h.exited hbefore
      exact ⟨hstep.stopping.trans hstopping, by omega⟩
    · obtain rfl : w' = .exited := Worker.eq_of_isAt_pos (by omega)
      rcases hstep.exits rfl with rfl | ⟨hstopping, hqueued⟩
      · have hself := Worker.isAt_self .exited
        omega
      · have hempty := h.waitingTasks_eq_zero hfits hstopping hqueued
        exact ⟨hstep.stopping.trans hstopping, by omega⟩
  · have hall := h.returned (hstep.shutdown ▸ hreturned)
    have hone := CS.eq_one_of_total_eq_length (Worker.isAt_le_one .exited) hall hmem
    obtain rfl : w = .exited := Worker.eq_of_isAt_pos (by omega)
    obtain rfl := hstep.stays rfl
    omega

theorem Drained.of_callStep (h : p.Drained) (hc : p.calls[i]? = some c)
    (hcalls : p'.calls = p.calls.set i c') (hstep : CallStep p p' c c')
    (haccounted : p'.Accounted) : p'.Drained := by
  have hbusy : CS.total Submission.busy p'.calls + c.busy = CS.total Submission.busy p.calls + c'.busy :=
    hcalls ▸ CS.total_set _ hc c'
  have hexited := hstep.workers (Worker.isAt .exited) rfl
  have hmem := CS.le_total Submission.busy (List.mem_of_getElem? hc)
  refine ⟨haccounted, hstep.length_workers ▸ h.workers_pos, fun hstopping => ?_, fun hpos => ?_, ?_⟩
  · rw [hstep.stopping] at hstopping
    have hnone := h.stopped hstopping
    have hle := hstep.busy_le hstopping
    omega
  · obtain ⟨hstopping, hempty⟩ := h.exited (hexited ▸ hpos)
    have hnone := h.stopped hstopping
    have hle := hstep.waitingTasks_le
    exact ⟨hstep.stopping.trans hstopping, by omega⟩
  · rw [hstep.shutdown, hexited, hstep.length_workers]
    exact h.returned

theorem Drained.startCall (h : p.Drained) (kind : CallKind) (token : CapabilityToken)
    (count : Nat) : (p.startCall kind token count).Drained := by
  refine ⟨h.accounted.startCall kind token count, h.workers_pos, fun hstopping => ?_, h.exited,
    h.returned⟩
  change CS.total Submission.busy (p.calls ++ [_]) = 0
  rw [CS.total_concat, h.stopped hstopping, Nat.zero_add]
  -- A new call has not read the flag.
  change (if token.valid then CallPlace.check else .threw).busy = 0
  split_ifs <;> rfl

theorem Drained.shutdown (h : p.Drained) (ha : p.Orderly .shutdown) :
    (p.shutdownFrom p.shutdown).Drained := by
  have haccounted : (p.shutdownFrom p.shutdown).Accounted := h.accounted.step .shutdown
  cases hshutdown : p.shutdown with
  | notCalled =>
    rw [hshutdown, shutdownFrom] at haccounted
    rw [shutdownFrom]
    split_ifs at haccounted ⊢
    · refine ⟨haccounted, h.workers_pos, fun _ => ?_, fun hpos => ⟨rfl, (h.exited hpos).2⟩, ?_⟩
      · by_contra hbusy
        obtain ⟨c, hc, hpos⟩ := CS.total_pos_iff.mp (Nat.pos_of_ne_zero hbusy)
        have hnone := ha.2 rfl hshutdown c hc
        omega
      · rintro ⟨⟩
    · exact h
  | stopped =>
    rw [hshutdown, shutdownFrom] at haccounted
    have htotal := @total_map_notify (Worker.isAt .exited) rfl p.workers
    refine ⟨haccounted, ?_, h.stopped, fun hpos => h.exited (htotal ▸ hpos), ?_⟩
    · rw [shutdownFrom, notifyAll, List.length_map]
      exact h.workers_pos
    · rintro ⟨⟩
  | draining =>
    rw [hshutdown, shutdownFrom] at haccounted
    exact ⟨haccounted, h.workers_pos, h.stopped, h.exited, by rintro ⟨⟩⟩
  | joining =>
    rw [hshutdown, shutdownFrom] at haccounted
    rw [shutdownFrom]
    split_ifs at haccounted ⊢ with hall
    · refine ⟨haccounted, h.workers_pos, h.stopped, h.exited, fun _ => ?_⟩
      -- The shutdown has joined every worker.
      refine CS.total_eq_length fun w hw => ?_
      rw [of_decide_eq_true (List.all_eq_true.mp hall w hw), Worker.isAt_self]
    · exact h
  | returned => exact h

theorem Drained.step (h : p.Drained) (ha : p.Orderly a) : (p.step a).2.Drained := by
  have haccounted : (p.next a).Accounted := h.accounted.step a
  change (p.next a).Drained
  rcases p.next_cases a with heq | ⟨kind, token, count, heq⟩ |
    ⟨i, pick, c, c', -, hc, hcalls, hstep⟩ | ⟨i, w, w', hw, hworkers, hstep⟩ | ⟨rfl, heq⟩
  · rw [heq]
    exact h
  · rw [heq]
    exact h.startCall kind token count
  · exact h.of_callStep hc hcalls hstep haccounted
  · exact h.of_workStep ha.1 hw hworkers hstep haccounted
  · rw [heq]
    exact h.shutdown ha

theorem drained_construct (config : PoolConfig) (hardware : Nat) :
    (construct config hardware).Drained := by
  refine ⟨accounted_construct config hardware, workers_construct_pos config hardware,
    fun hstopping => absurd hstopping Bool.false_ne_true, fun hpos => ?_,
    fun hreturned => by rw [construct] at hreturned; cases hreturned⟩
  rw [construct, total_replicate rfl] at hpos
  exact absurd hpos (Nat.lt_irrefl 0)

/-! ### Whole runs -/

theorem Accounted.count_doneTasks_le (h : p.Accounted) (t : Task) :
    p.doneTasks.count t ≤ CS.total (·.accepted.count t) p.calls := by
  have htasks := h.tasks t
  omega

theorem count_tasks (c : Submission) (t : Task) :
    c.tasks.count t = c.accepted.count t + (c.refused ++ c.remaining).count t := by
  rw [Submission.tasks, List.append_assoc, List.count_append]

theorem Accounted.total_accepted_le_one (h : p.Accounted) (t : Task) :
    CS.total (·.accepted.count t) p.calls ≤ 1 := by
  have hfresh := h.fresh t
  have hle := CS.total_le_total (f := (·.accepted.count t)) (g := (·.tasks.count t))
    (fun c => by rw [count_tasks]; exact Nat.le_add_right _ _) p.calls
  split_ifs at hfresh <;> omega

theorem Accounted.notMem_doneTasks (h : p.Accounted) {t : Task} (ht : t ∈ p.rejected) :
    t ∉ p.doneTasks := by
  obtain ⟨c, hc, hrejected⟩ := List.mem_flatMap.mp ht
  have hcount : 0 < (c.refused ++ c.remaining).count t := by
    unfold Submission.rejected at hrejected
    split_ifs at hrejected
    · exact List.count_pos_iff.mpr hrejected
    · cases hrejected
  -- The number of the task is used once, and that was for the rejection.
  have hsum : CS.total (·.tasks.count t) p.calls = CS.total (·.accepted.count t) p.calls +
      CS.total (fun c => (c.refused ++ c.remaining).count t) p.calls := by
    rw [CS.total, CS.total, CS.total, ← List.sum_map_add]
    exact congrArg List.sum (List.map_congr_left fun c _ => count_tasks c t)
  have hmem := CS.le_total (fun c : Submission => (c.refused ++ c.remaining).count t) hc
  have hfresh := h.fresh t
  have hdone := h.count_doneTasks_le t
  rw [← List.count_eq_zero]
  split_ifs at hfresh <;> omega

theorem Drained.done (h : p.Drained) (hreturned : p.shutdown = .returned) :
    (∀ t, p.doneTasks.count t = CS.total (·.accepted.count t) p.calls) ∧
      p.enqueued = p.executed ∧ p.queued = 0 ∧ p.running = 0 := by
  have hall := h.returned hreturned
  have hworkers (f : Worker → Nat) (hf : f .exited = 0) : CS.total f p.workers = 0 := by
    by_contra hpos
    obtain ⟨w, hw, hfw⟩ := CS.total_pos_iff.mp (Nat.pos_of_ne_zero hpos)
    have hone := CS.eq_one_of_total_eq_length (Worker.isAt_le_one .exited) hall hw
    obtain rfl : w = .exited := Worker.eq_of_isAt_pos (by omega)
    omega
  obtain ⟨hstopping, hempty⟩ := h.exited (hall ▸ h.workers_pos)
  have hbusy := h.stopped hstopping
  have huncounted := CS.total_le_total uncounted_le_busy p.calls
  have huntallied := CS.total_le_total untallied_le_busy p.calls
  have hhigh : p.high = [] := List.length_eq_zero_iff.mp (by unfold waitingTasks at hempty; omega)
  have hlow : p.low = [] := List.length_eq_zero_iff.mp (by unfold waitingTasks at hempty; omega)
  have hcount (t : Task) : p.doneTasks.count t = CS.total (·.accepted.count t) p.calls := by
    rw [h.accounted.tasks t, hhigh, hlow, hworkers (·.task.count t) rfl, List.count_nil]
    omega
  refine ⟨hcount, ?_, ?_, ?_⟩
  · -- Both counters count the tasks that were accepted, which are those that are done.
    have hperm : (p.calls.flatMap Submission.accepted).Perm p.doneTasks := by
      refine List.perm_iff_count.mpr fun t => ?_
      rw [List.count_flatMap, hcount t]
      rfl
    have hlength : CS.total (·.accepted.length) p.calls = p.doneTasks.length := by
      rw [← hperm.length_eq, List.length_flatMap]
      rfl
    have henqueued := h.accounted.enqueued
    have hexecuted := h.accounted.executed
    rw [hworkers _ rfl] at hexecuted
    exact BitVec.eq_of_toNat_eq (by omega)
  · have hqueued := h.accounted.queued
    rw [hempty, hworkers _ rfl] at hqueued
    have hlt := p.queued.isLt
    exact BitVec.eq_of_toNat_eq (by change _ = 0; omega)
  · have hrunning := h.accounted.running
    rw [hworkers _ rfl] at hrunning
    exact BitVec.eq_of_toNat_eq hrunning

theorem Drained.runsOnce (h : p.Drained) : p.RunsOnce := by
  refine ⟨fun t => ?_, fun t => h.accounted.notMem_doneTasks, fun hreturned => ?_⟩
  · exact (h.accounted.count_doneTasks_le t).trans (h.accounted.total_accepted_le_one t)
  · obtain ⟨hdone, hcounters⟩ := h.done hreturned
    refine ⟨fun t ht => ?_, hcounters⟩
    obtain ⟨c, hc, hreported⟩ := List.mem_flatMap.mp ht
    have hcount : 0 < c.accepted.count t := by
      unfold Submission.reported at hreported
      split_ifs at hreported
      · exact List.count_pos_iff.mpr hreported
      · cases hreported
    have hmem := CS.le_total (fun c : Submission => c.accepted.count t) hc
    have hone := h.accounted.total_accepted_le_one t
    have hall := hdone t
    omega

/-- When the stop flag is set while no call is handing over tasks, the pool keeps its promise: in
every state of every schedule, for any number of workers and any capacity. -/
theorem runsOnce_of_orderly (config : PoolConfig) (hardware : Nat) {steps : List PoolStep}
    (hsteps : CS.Guarded step Orderly (construct config hardware) steps) :
    CS.Always step RunsOnce (construct config hardware) steps :=
  (hsteps.always (fun _ _ h ha => h.step ha) (drained_construct config hardware)).imp
    fun _ h => h.runsOnce

/-- One thread hands over one task. -/
def oneCall : PoolStep := .call .enqueue (.grant .high) 1

/-- The call is completed, a worker executes the task, and the pool is shut down. -/
def oneTask : List PoolStep :=
  [oneCall] ++ List.replicate 6 (.advance 0 0) ++ List.replicate 9 (.work 0) ++
    List.replicate 2 .shutdown ++ List.replicate 3 (.work 0) ++ List.replicate 2 .shutdown

theorem runsOnce_oneTask : (let p := CS.run step (construct ⟨1, 1024⟩ 4) oneTask
    p.shutdown = .returned ∧ p.accepted = [0] ∧ p.doneTasks = [0]) ∧
    CS.Always step RunsOnce (construct ⟨1, 1024⟩ 4) oneTask :=
  ⟨by decide +kernel, runsOnce_of_orderly ⟨1, 1024⟩ 4 (by decide +kernel)⟩

/-- The call reads the flag; then the pool is shut down, and its only worker leaves; then the call
goes on. -/
def lateTask : List PoolStep :=
  [oneCall, .advance 0 0] ++ List.replicate 2 .shutdown ++ List.replicate 3 (.work 0) ++
    List.replicate 2 .shutdown ++ List.replicate 5 (.advance 0 0)

/-- The task is reported as accepted after the shutdown has returned, and is never executed. -/
theorem not_runsOnce_lateTask : let p := CS.run step (construct ⟨1, 1024⟩ 4) lateTask
    p.shutdown = .returned ∧ p.accepted = [0] ∧ p.doneTasks = [] ∧ p.enqueued ≠ p.executed ∧
      ¬ p.RunsOnce := by
  have hrun : let p := CS.run step (construct ⟨1, 1024⟩ 4) lateTask
      p.shutdown = .returned ∧ p.accepted = [0] ∧ p.doneTasks = [] ∧ p.enqueued ≠ p.executed := by
    decide +kernel
  exact ⟨hrun.1, hrun.2.1, hrun.2.2.1, hrun.2.2.2, fun h => hrun.2.2.2 (h.2.2 hrun.1).2.1⟩

end ThreadPool

end VirtualHsm
