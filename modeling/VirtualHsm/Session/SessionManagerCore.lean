import VirtualHsm.CS.KeyedTable
import VirtualHsm.Session.Session

/-!
# Session handles

The core of the session manager numbers the sessions from one on and keeps the open ones in a list.
A session is found by its handle, closed by its handle, and closed with all others of its slot.

Between these calls the sessions themselves change: whoever has been given one logs in through it,
stores objects in it and runs its operation. The handle and the slot stay.

As long as the counter has not wrapped around, a handle says what became of its session: it is found
exactly until it is closed.
-/

namespace VirtualHsm

/-- A call of the core, or a change that someone makes to a session they were given. -/
inductive ManagerStep
  | openSession (slotId flags : CkUlong)
  | closeSession (handle : CkUlong)
  | closeAllSessions (slotId : CkUlong)
  | write (handle : CkUlong) (f : Session → Session)

/-- A session opens. -/
def ManagerStep.isOpen : ManagerStep → Bool
  | openSession _ _ => true
  | closeSession _ | closeAllSessions _ | write _ _ => false

/-- A change leaves the handle and the slot. -/
def Session.written (s : Session) (f : Session → Session) : Session :=
  { f s with handle := s.handle, slotId := s.slotId }

namespace SessionManager

variable (m : SessionManager)

/-! ### The core -/

/-- `v_open_session`. -/
def vOpenSession (slotId flags : CkUlong) : CkUlong × SessionManager :=
  let first := m.nextSessionId
  let next := m.nextSessionId + 1
  -- A handle of zero is skipped.
  let (handle, next) := if first = 0 then (next, next + 1) else (first, next)
  (handle,
    { sessions := m.sessions ++ [Session.opened handle slotId flags], nextSessionId := next })

/-- The loop of `v_close_session`: the first session with the handle is erased. -/
def closeLoop (handle : CkUlong) : List Session → Option (List Session)
  | [] => none
  | s :: rest => if s.handle = handle then some rest else (closeLoop handle rest).map (s :: ·)

def vCloseSession (handle : CkUlong) : CkRv × SessionManager :=
  match closeLoop handle m.sessions with
  | some sessions => (.ok, { m with sessions })
  | none => (.sessionHandleInvalid, m)

/-- The loop of `v_close_all_sessions`: it goes on from where the erased session was. -/
def closeAllLoop (slotId : CkUlong) : List Session → List Session
  | [] => []
  | s :: rest => if s.slotId = slotId then closeAllLoop slotId rest else s :: closeAllLoop slotId rest

def vCloseAllSessions (slotId : CkUlong) : CkRv × SessionManager :=
  (.ok, { m with sessions := closeAllLoop slotId m.sessions })

def managerStep : ManagerStep → (CkRv × Option CkUlong) × SessionManager
  | .openSession slotId flags =>
    let out := m.vOpenSession slotId flags
    ((.ok, some out.1), out.2)
  | .closeSession handle =>
    let out := m.vCloseSession handle
    ((out.1, none), out.2)
  | .closeAllSessions slotId =>
    let out := m.vCloseAllSessions slotId
    ((out.1, none), out.2)
  | .write handle f =>
    ((.ok, none), (m.getSession handle).elim m fun s => m.setSession (s.written f))

/-- The slot of the session with the handle. -/
def slotOf (handle : CkUlong) : Option CkUlong := (m.getSession handle).map (·.slotId)

/-- The call opens a session of the slot and gives it the handle. -/
def Issues (handle slotId : CkUlong) (m : SessionManager) (x : ManagerStep) : Prop :=
  ∃ flags, x = .openSession slotId flags ∧ (m.managerStep x).1.2 = some handle

/-- The call closes the handle or its slot. -/
def Closes (handle slotId : CkUlong) (_ : SessionManager) (x : ManagerStep) : Prop :=
  x = .closeSession handle ∨ x = .closeAllSessions slotId

/-- After `n` sessions were opened, the counter has not wrapped around and the open sessions have
different numbers up to `n`. -/
structure Numbered (n : Nat) : Prop where
  next : m.nextSessionId.toNat = n + 1
  nodup : (m.sessions.map (·.handle)).Nodup
  range : ∀ s ∈ m.sessions, 0 < s.handle.toNat ∧ s.handle.toNat ≤ n

variable {m} {handle slotId : CkUlong} {s : Session} {n : Nat}

/-! ### The facade -/

/-- The facade checks the flags and calls the core. -/
theorem openSession_eq (slotId flags : CkUlong) : m.openSession slotId flags =
    if flags &&& ~~~(ckfRwSession ||| ckfSerialSession) ≠ 0 then ((.argumentsBad, none), m)
    else ((.ok, some (m.vOpenSession slotId flags).1), (m.vOpenSession slotId flags).2) := by
  unfold openSession vOpenSession
  by_cases hzero : m.nextSessionId = 0
  · simp only [hzero, if_true]
  · simp only [hzero, if_false]

theorem closeLoop_eq (handle : CkUlong) (l : List Session) :
    closeLoop handle l =
      if (l.find? fun s => s.handle = handle).isSome then
        some (l.eraseP fun s => s.handle = handle)
      else none := by
  induction l with
  | nil => rfl
  | cons s l ih =>
    by_cases hs : s.handle = handle
    · simp [closeLoop, hs]
    · rw [closeLoop, if_neg hs, ih, List.find?_cons_of_neg (by simpa using hs),
        List.eraseP_cons_of_neg (by simpa using hs)]
      split_ifs <;> rfl

theorem closeSession_eq (handle : CkUlong) : m.closeSession handle = m.vCloseSession handle := by
  rw [closeSession, vCloseSession, closeLoop_eq, getSession]
  split_ifs <;> rfl

theorem closeAllLoop_eq (slotId : CkUlong) (l : List Session) :
    closeAllLoop slotId l = l.filter fun s => s.slotId ≠ slotId := by
  induction l with
  | nil => rfl
  | cons s l ih =>
    by_cases hs : s.slotId = slotId
    · simp [closeAllLoop, hs, ih]
    · simp [closeAllLoop, hs, ih]

theorem closeAllSessions_eq (slotId : CkUlong) :
    m.closeAllSessions slotId = m.vCloseAllSessions slotId := by
  rw [closeAllSessions, vCloseAllSessions, closeAllLoop_eq]

/-! ### Finding a session -/

theorem getSession_eq_none_iff :
    m.getSession handle = none ↔ ∀ s ∈ m.sessions, s.handle ≠ handle := by
  simp [getSession]

/-- Sessions with different handles are a table. -/
def table (m : SessionManager) (hnodup : (m.sessions.map (·.handle)).Nodup) :
    CS.KeyedTable Session.handle := ⟨m.sessions, hnodup⟩

/-! ### What a step does to the list -/

theorem sessions_vCloseSession (handle : CkUlong) :
    (m.vCloseSession handle).2.sessions = m.sessions.eraseP fun s => s.handle = handle := by
  rw [vCloseSession, closeLoop_eq]
  split_ifs with hfound
  · rfl
  · refine (List.eraseP_of_forall_not ?_).symm
    simpa using hfound

theorem nextSessionId_vCloseSession (handle : CkUlong) :
    (m.vCloseSession handle).2.nextSessionId = m.nextSessionId := by
  rw [vCloseSession]
  split <;> rfl

theorem map_handle_setSession (s' : Session) :
    (m.setSession s').sessions.map (·.handle) = m.sessions.map (·.handle) := by
  rw [setSession]
  induction m.sessions with
  | nil => rfl
  | cons s l ih =>
    by_cases hs : s.handle = s'.handle
    · simp [List.replaceF, hs]
    · simp [List.replaceF, hs, ih]

theorem map_handle_write (handle : CkUlong) (f : Session → Session) :
    (m.managerStep (.write handle f)).2.sessions.map (·.handle) = m.sessions.map (·.handle) := by
  rw [managerStep]
  cases m.getSession handle with
  | none => rfl
  | some s => exact map_handle_setSession _

theorem nextSessionId_write (handle : CkUlong) (f : Session → Session) :
    (m.managerStep (.write handle f)).2.nextSessionId = m.nextSessionId := by
  rw [managerStep]
  cases m.getSession handle <;> rfl

/-! ### The numbers -/

/-- The counter has not wrapped around, so its value is the handle. -/
theorem Numbered.vOpenSession_eq (h : m.Numbered n) (slotId flags : CkUlong) :
    m.vOpenSession slotId flags =
      (m.nextSessionId,
        { sessions := m.sessions ++ [Session.opened m.nextSessionId slotId flags]
          nextSessionId := m.nextSessionId + 1 }) := by
  have hne : m.nextSessionId ≠ 0 := by
    intro hzero
    have := h.next
    rw [hzero] at this
    cases this
  rw [vOpenSession, if_neg hne]

theorem Numbered.getSession_next (h : m.Numbered n) : m.getSession m.nextSessionId = none := by
  rw [getSession_eq_none_iff]
  intro s hs heq
  have hrange := (h.range s hs).2
  rw [heq, h.next] at hrange
  omega

theorem Numbered.of_sublist {m' : SessionManager} (h : m.Numbered n)
    (hsub : m'.sessions.Sublist m.sessions) (hnext : m'.nextSessionId = m.nextSessionId) :
    m'.Numbered n where
  next := hnext ▸ h.next
  nodup := h.nodup.sublist (hsub.map _)
  range s hs := h.range s (hsub.subset hs)

theorem Numbered.managerStep (h : m.Numbered n) (x : ManagerStep)
    (hlt : n + x.isOpen.toNat < 2 ^ 64 - 1) :
    (m.managerStep x).2.Numbered (n + x.isOpen.toNat) := by
  cases x with
  | openSession slotId flags =>
    change n + 1 < 2 ^ 64 - 1 at hlt
    change (m.vOpenSession slotId flags).2.Numbered (n + 1)
    have hnew := getSession_eq_none_iff.mp h.getSession_next
    rw [h.vOpenSession_eq]
    constructor
    · rw [UInt64.toNat_add, h.next]
      exact Nat.mod_eq_of_lt (by change n + 1 + 1 < _; omega)
    · rw [List.map_append, List.nodup_append]
      refine ⟨h.nodup, List.nodup_singleton _, ?_⟩
      intro k hk k' hk' heq
      obtain ⟨s, hs, rfl⟩ := List.mem_map.mp hk
      obtain rfl := List.mem_singleton.mp hk'
      exact hnew s hs heq
    · intro s hs
      rcases List.mem_append.mp hs with hold | hlast
      · have := h.range s hold
        omega
      · obtain rfl := List.mem_singleton.mp hlast
        change 0 < m.nextSessionId.toNat ∧ m.nextSessionId.toNat ≤ n + 1
        rw [h.next]
        omega
  | closeSession handle =>
    refine h.of_sublist ?_ (nextSessionId_vCloseSession handle)
    change (m.vCloseSession handle).2.sessions.Sublist m.sessions
    rw [sessions_vCloseSession]
    exact List.eraseP_sublist
  | closeAllSessions slotId =>
    refine h.of_sublist ?_ rfl
    change (closeAllLoop slotId m.sessions).Sublist m.sessions
    rw [closeAllLoop_eq]
    exact List.filter_sublist
  | write handle f =>
    have hmap := @map_handle_write m handle f
    refine ⟨(nextSessionId_write handle f).symm ▸ h.next, hmap ▸ h.nodup, ?_⟩
    intro s hs
    -- Some session had the handle before.
    have hmem := List.mem_map_of_mem (f := (·.handle)) hs
    rw [hmap] at hmem
    obtain ⟨s', hs', heq⟩ := List.mem_map.mp hmem
    exact heq ▸ h.range s' hs'

/-! ### What a step does to a handle -/

theorem getSession_vOpenSession (h : m.Numbered n) (slotId flags k : CkUlong) :
    (m.vOpenSession slotId flags).2.getSession k =
      if k = m.nextSessionId then some (Session.opened m.nextSessionId slotId flags)
      else m.getSession k := by
  rw [h.vOpenSession_eq, getSession, List.find?_append]
  split_ifs with hk
  · subst hk
    have hnone : (m.sessions.find? fun s => s.handle = m.nextSessionId) = none := h.getSession_next
    rw [hnone, Option.none_or]
    simp [Session.opened]
  · have hlast : ([Session.opened m.nextSessionId slotId flags].find? fun s => s.handle = k) = none := by
      simp [Session.opened, Ne.symm hk]
    rw [hlast, Option.or_none]
    rfl

theorem getSession_vCloseSession (hnodup : (m.sessions.map (·.handle)).Nodup) (handle k : CkUlong) :
    (m.vCloseSession handle).2.getSession k = if k = handle then none else m.getSession k := by
  have hrows : (m.vCloseSession handle).2.sessions = ((m.table hnodup).erase handle).rows := by
    rw [sessions_vCloseSession]
    exact CS.KeyedTable.eraseP_rows (t := m.table hnodup)
  rw [getSession, hrows]
  exact CS.KeyedTable.find_erase (t := m.table hnodup)

theorem getSession_vCloseAllSessions (hnodup : (m.sessions.map (·.handle)).Nodup)
    (slotId k : CkUlong) :
    (m.vCloseAllSessions slotId).2.getSession k =
      (m.getSession k).filter fun s => s.slotId ≠ slotId := by
  have hrows : (m.vCloseAllSessions slotId).2.sessions =
      ((m.table hnodup).filter fun s => s.slotId ≠ slotId).rows :=
    closeAllLoop_eq slotId m.sessions
  rw [getSession, hrows]
  exact CS.KeyedTable.find_filter (t := m.table hnodup) _

/-- A change of a session shows under its own handle only. -/
theorem getSession_write (handle k : CkUlong) (f : Session → Session) :
    (m.managerStep (.write handle f)).2.getSession k =
      (m.getSession k).map fun s => if k = handle then s.written f else s := by
  rw [managerStep]
  cases hs : m.getSession handle with
  | none =>
    dsimp only [Option.elim_none]
    by_cases hk : k = handle
    · rw [hk, hs, Option.map_none]
    · simp only [hk, if_false, Option.map_id']
  | some s =>
    dsimp only [Option.elim_some]
    have hhandle : (s.written f).handle = handle :=
      show s.handle = handle from handle_of_getSession hs
    rw [getSession_setSession hs hhandle]
    by_cases hk : k = handle
    · rw [if_pos hk, hk, hs]
      simp only [if_true, Option.map_some]
    · simp only [hk, if_false, Option.map_id']

/-- The handles and their slots after a step: a new handle, one less, those of a slot less, or the
same. -/
theorem slotOf_managerStep (h : m.Numbered n) (x : ManagerStep) (k : CkUlong) :
    (m.managerStep x).2.slotOf k =
      match x with
      | .openSession slotId _ => if k = m.nextSessionId then some slotId else m.slotOf k
      | .closeSession handle => if k = handle then none else m.slotOf k
      | .closeAllSessions slotId => (m.slotOf k).filter (· ≠ slotId)
      | .write _ _ => m.slotOf k := by
  cases x with
  | openSession slotId flags =>
    change ((m.vOpenSession slotId flags).2.getSession k).map _ = _
    rw [getSession_vOpenSession h]
    split_ifs <;> rfl
  | closeSession handle =>
    change ((m.vCloseSession handle).2.getSession k).map _ = _
    rw [getSession_vCloseSession h.nodup]
    dsimp only
    split_ifs <;> rfl
  | closeAllSessions slotId =>
    change ((m.vCloseAllSessions slotId).2.getSession k).map _ = _
    rw [getSession_vCloseAllSessions h.nodup, slotOf]
    cases m.getSession k with
    | none => rfl
    | some s =>
      dsimp only [Option.map_some]
      by_cases hs : s.slotId = slotId
      · simp [hs, Option.filter]
      · simp [hs, Option.filter]
  | write handle f =>
    rw [slotOf, getSession_write, Option.map_map, slotOf]
    congr 1
    funext s
    change (if k = handle then s.written f else s).slotId = s.slotId
    split_ifs <;> rfl

/-! ### Whole runs -/

theorem numbered_start : ({} : SessionManager).Numbered 0 where
  next := rfl
  nodup := List.nodup_nil
  range s hs := by cases hs

/-- The number of sessions that a run opens. -/
def opens (steps : List ManagerStep) : Nat := steps.countP ManagerStep.isOpen

theorem opens_concat (steps : List ManagerStep) (x : ManagerStep) :
    opens (steps ++ [x]) = opens steps + x.isOpen.toNat := by
  rw [opens, List.countP_append, opens]
  cases hx : x.isOpen <;> simp [hx]

variable {steps : List ManagerStep}

theorem numbered_run (hopens : opens steps < 2 ^ 64 - 1) :
    (CS.run managerStep {} steps).Numbered (opens steps) := by
  -- The bound holds for the calls so far, so the counter does not wrap around.
  refine CS.run_history (fun done m => opens done < 2 ^ 64 - 1 → Numbered m (opens done)) ?_
    (fun _ => numbered_start) steps hopens
  intro done x ih hlt
  rw [opens_concat] at hlt ⊢
  exact (ih (by omega)).managerStep x hlt

theorem slotOf_managerStep_eq_some_iff (h : m.Numbered n) (x : ManagerStep) (k slotId : CkUlong) :
    (m.managerStep x).2.slotOf k = some slotId ↔
      Issues k slotId m x ∨ m.slotOf k = some slotId ∧ ¬ Closes k slotId m x := by
  have hnew : m.slotOf m.nextSessionId = none := by
    rw [slotOf, h.getSession_next, Option.map_none]
  rw [slotOf_managerStep h]
  cases x with
  | openSession slotId' flags =>
    have hissues : Issues k slotId m (.openSession slotId' flags) ↔
        k = m.nextSessionId ∧ slotId' = slotId := by
      have hanswer : (m.managerStep (.openSession slotId' flags)).1.2 = some m.nextSessionId := by
        change some (m.vOpenSession slotId' flags).1 = _
        rw [h.vOpenSession_eq]
      constructor
      · rintro ⟨flags', heq, hk⟩
        rw [hanswer] at hk
        exact ⟨(Option.some.inj hk).symm, (ManagerStep.openSession.inj heq).1⟩
      · rintro ⟨rfl, rfl⟩
        exact ⟨flags, rfl, hanswer⟩
    have hcloses : ¬ Closes k slotId m (.openSession slotId' flags) := by
      rintro (heq | heq) <;> cases heq
    rw [hissues]
    dsimp only
    split_ifs with hk
    · subst hk
      simp [hnew]
    · simp [hk, hcloses]
  | closeSession handle =>
    have hissues : ¬ Issues k slotId m (.closeSession handle) := by
      rintro ⟨flags, heq, -⟩
      cases heq
    simp only [hissues, false_or, Closes, ManagerStep.closeSession.injEq, reduceCtorEq, or_false]
    split_ifs with hk
    · simp [hk]
    · simp [Ne.symm hk]
  | closeAllSessions slotId' =>
    have hissues : ¬ Issues k slotId m (.closeAllSessions slotId') := by
      rintro ⟨flags, heq, -⟩
      cases heq
    simp only [hissues, false_or, Closes, ManagerStep.closeAllSessions.injEq, reduceCtorEq,
      Option.filter_eq_some_iff, decide_eq_true_eq]
    exact and_congr_right fun _ => ne_comm
  | write handle f =>
    have hissues : ¬ Issues k slotId m (.write handle f) := by
      rintro ⟨flags, heq, -⟩
      cases heq
    simp [hissues, Closes]

/-- A handle is found exactly when it was issued, and neither it nor its slot was closed since. -/
theorem slotOf_eq_some_iff (hopens : opens steps < 2 ^ 64 - 1) (k slotId : CkUlong) :
    (CS.run managerStep {} steps).slotOf k = some slotId ↔
      CS.Since managerStep (Issues k slotId) (Closes k slotId) {} steps := by
  induction steps using List.reverseRecOn with
  | nil =>
    refine iff_of_false nofun ?_
    rintro ⟨before, x, after, heq, -, -⟩
    exact absurd heq.symm (by simp)
  | append_singleton steps x ih =>
    rw [opens_concat] at hopens
    have hopens' : opens steps < 2 ^ 64 - 1 := by omega
    rw [CS.run_append, CS.since_concat, ← ih hopens']
    exact slotOf_managerStep_eq_some_iff (numbered_run hopens') x k slotId

/-- A number that was used and is not open does not come back. -/
theorem getSession_run_eq_none {before after : List ManagerStep}
    (hopens : opens (before ++ after) < 2 ^ 64 - 1) {k : CkUlong} (hk : k.toNat ≤ opens before)
    (hnone : (CS.run managerStep {} before).getSession k = none) :
    (CS.run managerStep {} (before ++ after)).getSession k = none := by
  induction after using List.reverseRecOn with
  | nil => rwa [List.append_nil]
  | append_singleton after x ih =>
    rw [← List.append_assoc, opens_concat] at hopens
    rw [← List.append_assoc, CS.run_append]
    have hopens' : opens (before ++ after) < 2 ^ 64 - 1 := by omega
    have hnumbered := numbered_run hopens'
    have hold := ih hopens'
    -- The number is below the counter, so no session is opened with it.
    have hne : k ≠ (CS.run managerStep {} (before ++ after)).nextSessionId := by
      intro heq
      have hnext := hnumbered.next
      rw [← heq, opens, List.countP_append] at hnext
      rw [opens] at hk
      omega
    have hslot := slotOf_managerStep hnumbered x k
    rw [slotOf, slotOf, hold] at hslot
    rw [← Option.map_eq_none_iff (f := (·.slotId))]
    refine hslot.trans ?_
    cases x with
    | openSession slotId flags => exact if_neg hne
    | closeSession handle => exact ite_self none
    | closeAllSessions slotId => rfl
    | write handle f => rfl

theorem toNat_le_of_issued (hopens : opens steps < 2 ^ 64 - 1) {k slotId : CkUlong}
    (hissued : CS.Occurs managerStep (Issues k slotId) {} steps) : k.toNat ≤ opens steps := by
  induction steps using List.reverseRecOn with
  | nil => exact hissued.elim
  | append_singleton steps x ih =>
    rw [opens_concat] at hopens ⊢
    have hopens' : opens steps < 2 ^ 64 - 1 := by omega
    rcases CS.occurs_append.mp hissued with hearly | (⟨flags, rfl, hanswer⟩ | hnever)
    · exact (ih hopens' hearly).trans (Nat.le_add_right _ _)
    · have hnumbered := numbered_run hopens'
      change some (vOpenSession _ slotId flags).1 = some k at hanswer
      rw [hnumbered.vOpenSession_eq, Option.some.injEq] at hanswer
      rw [← hanswer, hnumbered.next]
      rfl
    · exact hnever.elim

/-- As long as fewer than `2 ^ 64 - 1` sessions are opened: open sessions have different handles other
than zero; a handle is found exactly when it was issued and neither it nor its slot was closed since; a
handle that was closed is not found again; and closing a session or a slot leaves every other session
as it is. -/
theorem handles_safe {steps : List ManagerStep} (hopens : opens steps < 2 ^ 64 - 1) :
    let m := CS.run managerStep {} steps
    (m.sessions.map (·.handle)).Nodup ∧ (∀ s ∈ m.sessions, s.handle ≠ 0) ∧
    (∀ k, (∃ s, m.getSession k = some s) ↔
      ∃ slotId, CS.Since managerStep (Issues k slotId) (Closes k slotId) {} steps) ∧
    (∀ before after k slotId, steps = before ++ after →
      CS.Occurs managerStep (Issues k slotId) {} before →
      (CS.run managerStep {} before).getSession k = none → m.getSession k = none) ∧
    (∀ handle k, k ≠ handle → (m.vCloseSession handle).2.getSession k = m.getSession k) ∧
    ∀ slotId k s, m.getSession k = some s → s.slotId ≠ slotId →
      (m.vCloseAllSessions slotId).2.getSession k = some s := by
  intro m
  have hnumbered : m.Numbered (opens steps) := numbered_run hopens
  refine ⟨hnumbered.nodup, ?_, ?_, ?_, ?_, ?_⟩
  · intro s hs hzero
    have hpos := (hnumbered.range s hs).1
    rw [hzero] at hpos
    exact absurd hpos (by decide)
  · intro k
    simp only [← slotOf_eq_some_iff hopens k, slotOf, Option.map_eq_some_iff]
    constructor
    · rintro ⟨s, hs⟩
      exact ⟨s.slotId, s, hs, rfl⟩
    · rintro ⟨slotId, s, hs, -⟩
      exact ⟨s, hs⟩
  · rintro before after k slotId rfl hissued hnone
    have hle : opens before ≤ opens (before ++ after) := by
      rw [opens, opens, List.countP_append]
      exact Nat.le_add_right _ _
    exact getSession_run_eq_none hopens (toNat_le_of_issued (by omega) hissued) hnone
  · intro handle k hk
    rw [getSession_vCloseSession hnumbered.nodup, if_neg hk]
  · intro slotId k s hs hslot
    rw [getSession_vCloseAllSessions hnumbered.nodup, hs]
    simp [hslot, Option.filter]

/-- Two sessions are opened, the first is closed, and another one is opened. -/
def reopened : List ManagerStep :=
  [.openSession 1 ckfSerialSession, .openSession 2 ckfSerialSession, .closeSession 1,
    .openSession 1 ckfSerialSession]

theorem handles_safe_reopened : opens reopened < 2 ^ 64 - 1 ∧
    (CS.run managerStep {} reopened).sessions.map (·.handle) = [2, 3] ∧
    (∃ s, (CS.run managerStep {} reopened).getSession 2 = some s) ∧
    (CS.run managerStep {} reopened).getSession 1 = none := by
  have hopens : opens reopened < 2 ^ 64 - 1 := by decide
  obtain ⟨-, -, -, hclosed, -, -⟩ := handles_safe hopens
  refine ⟨hopens, by decide, ⟨Session.opened 2 2 ckfSerialSession, rfl⟩, ?_⟩
  exact hclosed (reopened.take 3) [.openSession 1 ckfSerialSession] 1 1 rfl
    (.inl ⟨ckfSerialSession, rfl, rfl⟩) rfl

end SessionManager

end VirtualHsm
