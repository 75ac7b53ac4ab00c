import VirtualHsm.Pkcs11.Api

/-!
# What a call does to the open sessions

One inversion for all calls: the list of open sessions loses some, gets a new one at its end, or
has one written back after a login, a logout or a call on it. Invariants of sessions follow by
cases on it.
-/

namespace VirtualHsm

/-! ### Writing back -/

namespace SessionManager

variable {m : SessionManager} {s s' x : Session} {h : CkUlong}

private theorem mem_replaceF {l : List Session}
    (hx : x ∈ l.replaceF fun y => if y.handle = s'.handle then some s' else none) :
    x = s' ∨ x ∈ l := by
  induction l with
  | nil => cases hx
  | cons y ys ih =>
    by_cases hy : y.handle = s'.handle
    · simp only [List.replaceF, hy, if_true, List.mem_cons] at hx
      exact hx.imp id fun hmem => List.mem_cons_of_mem _ hmem
    · simp only [List.replaceF, hy, if_false, List.mem_cons] at hx
      rcases hx with rfl | hmem
      · exact .inr List.mem_cons_self
      · exact (ih hmem).imp id fun hold => List.mem_cons_of_mem _ hold

theorem mem_setSession (hx : x ∈ (m.setSession s').sessions) : x = s' ∨ x ∈ m.sessions :=
  mem_replaceF hx

variable {r : Session → Session → Prop}

/-- A later session is compared with the new one like with the one that was written over. -/
private theorem pairwise_replaceF {l : List Session}
    (hl : l.Pairwise r) (hbefore : ∀ y, y.handle ≠ s'.handle → r y s')
    (hafter : ∀ y z, y.handle = s'.handle → r y z → r s' z) :
    (l.replaceF fun y => if y.handle = s'.handle then some s' else none).Pairwise r := by
  induction l with
  | nil => exact hl
  | cons y ys ih =>
    obtain ⟨hy, hys⟩ := List.pairwise_cons.mp hl
    by_cases heq : y.handle = s'.handle
    · simp only [List.replaceF, heq, if_true]
      exact List.pairwise_cons.mpr ⟨fun z hz => hafter y z heq (hy z hz), hys⟩
    · simp only [List.replaceF, heq, if_false]
      refine List.pairwise_cons.mpr ⟨fun z hz => ?_, ih hys⟩
      rcases mem_replaceF hz with rfl | hold
      · exact hbefore y heq
      · exact hy z hold

theorem pairwise_setSession (hl : m.sessions.Pairwise r)
    (hbefore : ∀ y, y.handle ≠ s'.handle → r y s')
    (hafter : ∀ y z, y.handle = s'.handle → r y z → r s' z) :
    (m.setSession s').sessions.Pairwise r :=
  pairwise_replaceF hl hbefore hafter

theorem mem_of_getSession (hs : m.getSession h = some s) : s ∈ m.sessions :=
  List.mem_of_find?_eq_some hs

theorem exists_split_of_getSession (hs : m.getSession h = some s) :
    ∃ before after, m.sessions = before ++ s :: after ∧ s.handle = h ∧
      ∀ y ∈ before, y.handle ≠ h := by
  obtain ⟨hhandle, before, after, heq, hbefore⟩ := List.find?_eq_some_iff_append.mp hs
  refine ⟨before, after, heq, of_decide_eq_true hhandle, fun y hy => ?_⟩
  simpa using hbefore y hy

theorem eq_or_rel_of_getSession (hm : m.sessions.Pairwise r) (hs : m.getSession h = some s)
    (hx : x ∈ m.sessions) (hhandle : x.handle = h) : x = s ∨ r s x := by
  obtain ⟨before, after, heq, -, hbefore⟩ := exists_split_of_getSession hs
  rw [heq] at hm hx
  have hafter := (List.pairwise_append.mp hm).2.1
  rcases List.mem_append.mp hx with hx | hx
  · exact absurd hhandle (hbefore x hx)
  · rcases List.mem_cons.mp hx with hfound | hlater
    · exact .inl hfound
    · exact .inr (List.rel_of_pairwise_cons hafter hlater)

theorem rel_of_mem_eraseP (hm : m.sessions.Pairwise r) (hs : m.getSession h = some s)
    (hx : x ∈ m.sessions.eraseP fun s => s.handle = h) (hhandle : x.handle = h) : r s x := by
  obtain ⟨before, after, heq, hfound, hbefore⟩ := exists_split_of_getSession hs
  rw [heq] at hm hx
  have hafter := (List.pairwise_append.mp hm).2.1
  rw [List.eraseP_append_right _ fun y hy => by simpa using hbefore y hy,
    List.eraseP_cons_of_pos (by simpa using hfound)] at hx
  rcases List.mem_append.mp hx with hx | hlater
  · exact absurd hhandle (hbefore x hx)
  · exact List.rel_of_pairwise_cons hafter hlater

/-- The number of the next session. -/
def nextHandle (m : SessionManager) : CkUlong :=
  if m.nextSessionId = 0 then m.nextSessionId + 1 else m.nextSessionId

end SessionManager

/-! ### The inversion -/

/-- What a call does to the open sessions: some are closed or none is touched, one is opened, or
one is written back. -/
inductive SessionsStep (be : Backend) (hsm : Hsm) (c : ApiCall) : SessionManager → Prop
  | closed (m : SessionManager) (hsub : m.sessions.Sublist hsm.manager.sessions)
      (hnext : m.nextSessionId = hsm.manager.nextSessionId)
      (hopen : ∀ slotId flags, c = .openSession slotId flags → (hsm.api be c).1.handles = [])
      (hlogout : ∀ h, c = .logout h → (hsm.api be c).1.rv ≠ .ok) : SessionsStep be hsm c m
  | opened (slotId flags : CkUlong) (hc : c = .openSession slotId flags)
      (hanswer : (hsm.api be c).1.handles = [hsm.manager.nextHandle]) :
      SessionsStep be hsm c
        { sessions :=
            hsm.manager.sessions ++ [Session.opened hsm.manager.nextHandle slotId flags]
          nextSessionId := hsm.manager.nextHandle + 1 }
  | login (h userType : CkUlong) (pin : CkBuf) (s : Session) (hc : c = .login h userType pin)
      (hs : hsm.getSession h = some s) (hrv : (hsm.api be c).1.rv = (s.login userType).1) :
      SessionsStep be hsm c (hsm.manager.setSession (s.login userType).2)
  | logout (h : CkUlong) (s : Session) (hc : c = .logout h) (hs : hsm.getSession h = some s) :
      SessionsStep be hsm c (hsm.manager.setSession s.logout.2.opEnd.clearFindResults)
  | called (env : Env) (h : CkUlong) (call : SessionCall) (e : Effect) (s : Session)
      (hc : c = .onSession env h call) (hcall : hsm.sessionCall be env h call = .ok e)
      (hs : hsm.getSession h = some s) :
      SessionsStep be hsm c (hsm.manager.setSession (e.after s))

variable {be : Backend} {hsm : Hsm}

/-- A call that closes sessions or leaves them alone, and neither opens one nor logs out. -/
theorem SessionsStep.of_sublist {c : ApiCall} {m : SessionManager}
    (hsub : m.sessions.Sublist hsm.manager.sessions)
    (hnext : m.nextSessionId = hsm.manager.nextSessionId)
    (hopen : ∀ slotId flags, c ≠ .openSession slotId flags) (hlogout : ∀ h, c ≠ .logout h) :
    SessionsStep be hsm c m :=
  .closed m hsub hnext (fun slotId flags hc => absurd hc (hopen slotId flags))
    fun h hc => absurd hc (hlogout h)

theorem SessionsStep.of_eq {c : ApiCall} {m : SessionManager} (hm : m = hsm.manager)
    (hopen : ∀ slotId flags, c ≠ .openSession slotId flags) (hlogout : ∀ h, c ≠ .logout h) :
    SessionsStep be hsm c m :=
  .of_sublist (hm ▸ List.Sublist.refl _) (hm ▸ rfl) hopen hlogout

/-- Handles may come round. What holds of new sessions stays true of those with the handle of an
earlier one, which are out of reach. -/
theorem SessionsStep.pairwise_handle {P : Session → Prop} {c : ApiCall} {m : SessionManager}
    (hstep : SessionsStep be hsm c m)
    (hnew : ∀ handle slotId flags, P (.opened handle slotId flags))
    (h : hsm.manager.sessions.Pairwise fun x y => x.handle = y.handle → P y) :
    m.sessions.Pairwise fun x y => x.handle = y.handle → P y := by
  have hwrite (s' : Session) :
      (hsm.manager.setSession s').sessions.Pairwise fun x y => x.handle = y.handle → P y := by
    apply SessionManager.pairwise_setSession h
    · intro y hne heq
      exact absurd heq hne
    · intro y z hy hz heq
      exact hz (hy.trans heq)
  cases hstep with
  | closed m hsub hnext hopen hlogout => exact h.sublist hsub
  | opened slotId flags hc hanswer =>
    refine List.pairwise_append.mpr ⟨h, List.pairwise_singleton _ _, ?_⟩
    intro x _ y hy _
    rw [List.mem_singleton.mp hy]
    exact hnew ..
  | login k userType pin s hc hs hrv | logout k s hc hs
  | called env k call e s hc hcall hs => exact hwrite _

namespace Hsm

@[simp] theorem manager_publish (e : P11Event) : (hsm.publish e).manager = hsm.manager := by
  unfold publish
  split_ifs <;> rfl

@[simp] theorem manager_foldl_publish (es : List P11Event) :
    (es.foldl publish hsm).manager = hsm.manager := by
  induction es generalizing hsm with
  | nil => rfl
  | cons e es ih => rw [List.foldl_cons, ih, manager_publish]

section Steps

variable (be hsm)

theorem sessionsStep_openSession (slotId flags : CkUlong) :
    SessionsStep be hsm (.openSession slotId flags)
      (hsm.api be (.openSession slotId flags)).2.manager := by
  -- A session is opened when no check fails; otherwise there is no handle in the answer.
  have hfail (hm : (hsm.cOpenSession slotId flags).2.manager = hsm.manager)
      (hh : (hsm.cOpenSession slotId flags).1.2 = none) :
      SessionsStep be hsm (.openSession slotId flags)
        (hsm.api be (.openSession slotId flags)).2.manager := by
    refine .closed _ (hm ▸ List.Sublist.refl _) (congrArg _ hm) ?_ ?_
    · intro _ _ _
      simp only [api, hh, Option.toList_none]
    · intro _ hc
      cases hc
  by_cases hinit : hsm.initialized = false
  · apply hfail <;> simp [cOpenSession, hinit]
  by_cases hslot : hsm.slots slotId = none
  · apply hfail <;> simp [cOpenSession, hinit, hslot]
  by_cases hflags : flags &&& ~~~(ckfRwSession ||| ckfSerialSession) ≠ 0
  · apply hfail <;> simp [cOpenSession, hinit, hslot, SessionManager.openSession, hflags]
  have hopen : hsm.cOpenSession slotId flags = ((.ok, some hsm.manager.nextHandle),
      { hsm with manager :=
        { sessions := hsm.manager.sessions ++ [Session.opened hsm.manager.nextHandle slotId flags]
          nextSessionId := hsm.manager.nextHandle + 1 } }) := by
    simp only [cOpenSession, if_neg hinit, if_neg hslot, SessionManager.openSession, if_neg hflags]
    rfl
  simp only [api, hopen]
  apply SessionsStep.opened slotId flags rfl
  simp only [api, hopen, Option.toList_some]

theorem sessionsStep_closeSession (h : CkUlong) :
    SessionsStep be hsm (.closeSession h) (hsm.api be (.closeSession h)).2.manager := by
  refine .of_sublist ?_ ?_ (by simp) (by simp)
  · simp only [api, cCloseSession, SessionManager.closeSession]
    split_ifs
    · exact List.Sublist.refl _
    · exact List.eraseP_sublist
    · exact List.Sublist.refl _
  · simp only [api, cCloseSession, SessionManager.closeSession]
    split_ifs <;> rfl

theorem sessionsStep_closeAllSessions (slotId : CkUlong) :
    SessionsStep be hsm (.closeAllSessions slotId) (hsm.api be (.closeAllSessions slotId)).2.manager := by
  refine .of_sublist ?_ ?_ (by simp) (by simp)
  · simp only [api, cCloseAllSessions, SessionManager.closeAllSessions]
    split_ifs
    · exact List.Sublist.refl _
    · exact List.filter_sublist
  · simp only [api, cCloseAllSessions, SessionManager.closeAllSessions]
    split_ifs <;> rfl

theorem sessionsStep_login (h userType : CkUlong) (pin : CkBuf) :
    SessionsStep be hsm (.login h userType pin) (hsm.api be (.login h userType pin)).2.manager := by
  have hsame (hm : (hsm.cLogin h userType pin).2.manager = hsm.manager) :
      SessionsStep be hsm (.login h userType pin) (hsm.api be (.login h userType pin)).2.manager :=
    .of_eq hm (by simp) (by simp)
  by_cases hinit : hsm.initialized = false
  · exact hsame (by simp [cLogin, hinit])
  by_cases huser : userType ≠ ckuUser ∧ userType ≠ ckuSo
  · exact hsame (by simp [cLogin, hinit, huser])
  cases hst : hsm.sessionToken h with
  | none => exact hsame (by simp [cLogin, hinit, huser, hst])
  | some p =>
    obtain ⟨s, t⟩ := p
    by_cases hok : (t.call (.login userType pin)).1 = .ok
    · have hrv : (hsm.cLogin h userType pin).1.rv = (s.login userType).1 := by
        simp only [cLogin, if_neg hinit, if_neg huser, hst, if_pos hok]
      have hm : (hsm.cLogin h userType pin).2.manager =
          hsm.manager.setSession (s.login userType).2 := by
        simp only [cLogin, if_neg hinit, if_neg huser, hst, if_pos hok]
        rfl
      simp only [api, hm]
      exact .login h userType pin s rfl (getSession_of_sessionToken hst) hrv
    · apply hsame
      simp only [cLogin, if_neg hinit, if_neg huser, hst, if_neg hok]
      split_ifs
      · exact (manager_publish _).trans rfl
      · rfl

theorem sessionsStep_logout (h : CkUlong) :
    SessionsStep be hsm (.logout h) (hsm.api be (.logout h)).2.manager := by
  have hfail (hm : (hsm.cLogout h).2.manager = hsm.manager) (hrv : (hsm.cLogout h).1 ≠ .ok) :
      SessionsStep be hsm (.logout h) (hsm.api be (.logout h)).2.manager := by
    refine .closed _ (hm ▸ List.Sublist.refl _) (congrArg _ hm) ?_ ?_
    · exact nofun
    · intro _ _
      exact hrv
  by_cases hinit : hsm.initialized = false
  · apply hfail <;> simp [cLogout, hinit]
  cases hst : hsm.sessionToken h with
  | none => apply hfail <;> simp [cLogout, hinit, hst]
  | some p =>
    obtain ⟨s, t⟩ := p
    by_cases hok : TokenCore.logout s.userType = .ok ∨ TokenCore.logout s.userType = .userNotLoggedIn
    · have hm : (hsm.cLogout h).2.manager =
          hsm.manager.setSession s.logout.2.opEnd.clearFindResults := by
        simp only [cLogout, if_neg hinit, hst, if_pos hok]
        rfl
      simp only [api, hm]
      exact .logout h s rfl (getSession_of_sessionToken hst)
    · obtain ⟨hne, hother⟩ := not_or.mp hok
      apply hfail <;> simp [cLogout, hinit, hst, hne, hother]

theorem sessionsStep_onSession (env : Env) (h : CkUlong) (call : SessionCall) :
    SessionsStep be hsm (.onSession env h call)
      (hsm.api be (.onSession env h call)).2.manager := by
  have hsame (hm : (hsm.api be (.onSession env h call)).2.manager = hsm.manager) :
      SessionsStep be hsm (.onSession env h call)
        (hsm.api be (.onSession env h call)).2.manager :=
    .of_eq hm (by simp) (by simp)
  cases hcall : hsm.sessionCall be env h call with
  | error rv => exact hsame (by simp only [api, hcall, finish])
  | ok e =>
    cases hs : hsm.getSession h with
    | none => exact hsame (by simp only [api, hcall, finish, hs])
    | some s =>
      have hm : (hsm.api be (.onSession env h call)).2.manager =
          hsm.manager.setSession (e.after s) := by
        simp only [api, hcall, finish, hs, manager_foldl_publish]
        rfl
      rw [hm]
      exact .called env h call e s rfl hcall hs

theorem sessionsStep (c : ApiCall) : SessionsStep be hsm c (hsm.api be c).2.manager := by
  cases c with
  | openSession slotId flags => exact sessionsStep_openSession be hsm slotId flags
  | closeSession h => exact sessionsStep_closeSession be hsm h
  | closeAllSessions slotId => exact sessionsStep_closeAllSessions be hsm slotId
  | login h userType pin => exact sessionsStep_login be hsm h userType pin
  | logout h => exact sessionsStep_logout be hsm h
  | onSession env h call => exact sessionsStep_onSession be hsm env h call
  | initModule boot fails =>
    refine .of_eq ?_ (by simp) (by simp)
    cases hinit : hsm.initialized <;> cases boot <;> simp [api, cInitialize, hinit]
  | finalizeModule | initToken | initPIN | setPIN =>
    refine .of_eq ?_ (by simp) (by simp)
    simp only [api, cFinalize, cInitToken, cInitPIN, cSetPIN]
    repeat' split
    all_goals rfl

end Steps

/-- What holds of new sessions, and stays true however a session is written back, holds of the
sessions of every run. -/
theorem session_invariant {P : Session → Prop}
    (hopened : ∀ handle slotId flags, P (.opened handle slotId flags))
    (hlogin : ∀ s userType, P s → P (s.login userType).2)
    (hlogout : ∀ s, P s → P s.logout.2.opEnd.clearFindResults)
    (hcalled : ∀ (hsm : Hsm) env h call e s, hsm.getSession h = some s →
      hsm.sessionCall be env h call = .ok e → P s → P (e.after s))
    (calls : List ApiCall) {h : CkUlong} {s : Session}
    (hs : (CS.run (api be) {} calls).getSession h = some s) : P s := by
  have hstep (hsm : Hsm) (c : ApiCall) (hall : ∀ s ∈ hsm.manager.sessions, P s) :
      ∀ s ∈ (hsm.api be c).2.manager.sessions, P s := by
    have hstep := hsm.sessionsStep be c
    generalize (hsm.api be c).2.manager = m at hstep
    -- A session that is written back was among the open ones.
    have hwrite (s' : Session) (hs' : P s') : ∀ s ∈ (hsm.manager.setSession s').sessions, P s := by
      intro s hs
      rcases SessionManager.mem_setSession hs with rfl | hold
      · exact hs'
      · exact hall s hold
    cases hstep with
    | closed _ hsub hnext hopen hlogout => exact fun s hs => hall s (hsub.subset hs)
    | opened slotId flags hc hanswer =>
      intro s hs
      rcases List.mem_append.mp hs with hold | hnew
      · exact hall s hold
      · rw [List.mem_singleton.mp hnew]
        exact hopened _ _ _
    | login k userType pin s' hc hs' hrv =>
      exact hwrite _ (hlogin s' userType (hall s' (SessionManager.mem_of_getSession hs')))
    | logout k s' hc hs' =>
      exact hwrite _ (hlogout s' (hall s' (SessionManager.mem_of_getSession hs')))
    | called env k call e s' hc hcall hs' =>
      exact hwrite _ (hcalled hsm env k call e s' hs' hcall
        (hall s' (SessionManager.mem_of_getSession hs')))
  have hall : ∀ s ∈ (CS.run (api be) {} calls).manager.sessions, P s :=
    @CS.run_history _ _ _ (api be) {} (fun _ hsm => ∀ s ∈ hsm.manager.sessions, P s)
      (fun _ c hall => hstep _ c hall) (fun _ hs => nomatch hs) calls
  exact hall s (SessionManager.mem_of_getSession hs)

end Hsm

end VirtualHsm
