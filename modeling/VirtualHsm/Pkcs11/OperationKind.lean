import VirtualHsm.Pkcs11.LoginGate
import VirtualHsm.Pkcs11.Multipart

/-!
# The kind of an operation

A session keeps the mechanism, the key and the data of its operation, and not whether it signs,
verifies, encrypts, decrypts or digests. The calls that use an operation only look whether there is
one. So an operation that was begun to sign can be finished by a verification, and this is the only
way in which a call can find an operation of another kind: what is open was begun by an `Init` with a
mechanism of its kind, and has not ended since.

One `Init` may fail and begin an operation all the same: encryption and decryption look at their
parameters after the beginning.
-/

namespace VirtualHsm

/-- A successful `Init` of the kind and with the mechanism, on the session. -/
def Begins (be : Backend) (h : CkUlong) (kind : OpKind) (m : CkUlong) (hsm : Hsm) (c : ApiCall) :
    Prop :=
  ∃ env mech key, c = .onSession env h (.crypto (kind.initCall (some mech) key)) ∧
    mech.mechanism = m ∧ (hsm.api be c).1.rv = .ok

/-- The operation of the session ends: with its last call, with the next `Init`, by a logout, or
because the session is closed. -/
def EndsOp (be : Backend) (h : CkUlong) (hsm : Hsm) (c : ApiCall) : Prop :=
  match c with
  | .onSession env k (.crypto call) => k = h ∧
      (call.isInit = true ∧ (hsm.api be c).1.rv = .ok ∨
        -- A last call that is refused before it has worked leaves the operation open.
        call.isLast = true ∧ ∃ e, hsm.cryptoCall be env h call = .ok e)
  | .logout k => k = h ∧ (hsm.api be c).1.rv = .ok
  | .closeSession k => k = h ∧ (hsm.api be c).1.rv = .ok
  | .closeAllSessions slotId => hsm.IsSessionOf slotId h ∧ (hsm.api be c).1.rv = .ok
  | _ => False

/-- The most recent successful `Init` on the session was one of the kind and with the mechanism, and
its operation has not ended. -/
def OpenSince (be : Backend) (h : CkUlong) (kind : OpKind) (m : CkUlong) (calls : List ApiCall) :
    Prop :=
  CS.Since (Hsm.api be) (Begins be h kind m) (EndsOp be h) {} calls

/-- An `Init` does not fail on its parameters. -/
def BeginsFully (be : Backend) (hsm : Hsm) (c : ApiCall) : Prop :=
  ∀ env h kind mech key, c = .onSession env h (.crypto (OpKind.initCall kind mech key)) →
    (hsm.api be c).1.rv ≠ .mechanismParamInvalid

/-- If a call gets past its operation check, then the operation it finds is of its own kind: the most
recent successful `Init` that has not been followed by the end of its operation is one of that kind,
with a mechanism that it accepts. -/
def CompletesOwnKind (be : Backend) (calls : List ApiCall) (h : CkUlong) (c : CryptoCall) : Prop :=
  ∀ kind, c.useKind = some kind → (∃ s, (CS.run (Hsm.api be) {} calls).opSession h = .ok s) →
    ∃ m, kind.accepts m = true ∧ OpenSince be h kind m calls

/-! ### Starts -/

theorem OpKind.isInit_initCall (kind : OpKind) (mech : Option CkMechanism) (key : CkUlong) :
    (kind.initCall mech key).isInit = true := by
  cases kind <;> rfl

theorem OpKind.initCall_inj {kind kind' : OpKind} {mech mech' : Option CkMechanism}
    {key key' : CkUlong} (h : kind.initCall mech key = kind'.initCall mech' key') :
    kind = kind' ∧ mech = mech' := by
  cases kind <;> cases kind' <;> cases h <;> exact ⟨rfl, rfl⟩

theorem CryptoCall.exists_initCall {c : CryptoCall} (hc : c.isInit = true) :
    ∃ kind mech key, c = OpKind.initCall kind mech key := by
  cases c with
  | encryptInit mech key => exact ⟨.encrypt, mech, key, rfl⟩
  | decryptInit mech key => exact ⟨.decrypt, mech, key, rfl⟩
  | digestInit mech => exact ⟨.digest, mech, 0, rfl⟩
  | signInit mech key => exact ⟨.sign, mech, key, rfl⟩
  | verifyInit mech key => exact ⟨.verify, mech, key, rfl⟩
  | _ => cases hc

theorem Begins.endsOp {be : Backend} {h : CkUlong} {kind : OpKind} {m : CkUlong} {hsm : Hsm}
    {c : ApiCall} (hc : Begins be h kind m hsm c) : EndsOp be h hsm c := by
  obtain ⟨env, mech, key, rfl, -, hrv⟩ := hc
  exact ⟨rfl, .inl ⟨OpKind.isInit_initCall .., hrv⟩⟩

/-- There is one such `Init` at most. -/
theorem OpenSince.unique {be : Backend} {h : CkUlong} {kind kind' : OpKind} {m m' : CkUlong}
    {calls : List ApiCall} (hopen : OpenSince be h kind m calls)
    (hopen' : OpenSince be h kind' m' calls) : kind = kind' ∧ m = m' := by
  obtain ⟨hsm, c, hc, hc'⟩ := CS.Since.unique (fun _ _ => Begins.endsOp)
    (fun _ _ => Begins.endsOp) hopen hopen'
  obtain ⟨env, mech, key, rfl, rfl, -⟩ := hc
  obtain ⟨env', mech', key', heq, rfl, -⟩ := hc'
  simp only [ApiCall.onSession.injEq, SessionCall.crypto.injEq, true_and] at heq
  obtain ⟨rfl, hmech⟩ := OpKind.initCall_inj heq.2
  exact ⟨rfl, congrArg _ (Option.some.inj hmech)⟩

/-! ### One call -/

/-- Of two sessions with one handle the later one has no operation. -/
def OpFirst (m : SessionManager) : Prop :=
  m.sessions.Pairwise fun x y => x.handle = y.handle → y.activeMech = 0

namespace Hsm

variable {be : Backend} {hsm : Hsm} {h : CkUlong} {s' : Session}

/-- Where the operation of a session comes from: the call has begun it, or it was there before and
the call does not end it. -/
def OpOrigin (be : Backend) (hsm : Hsm) (h : CkUlong) (c : ApiCall) : Prop :=
  (∃ kind m, OpKind.accepts kind m = true ∧ Begins be h kind m hsm c) ∨
    ∃ s, hsm.getSession h = some s ∧ s.activeMech ≠ 0 ∧ ¬ EndsOp be h hsm c

theorem getSession_of_sublist {m : SessionManager} (hfirst : OpFirst hsm.manager)
    (hsub : m.sessions.Sublist hsm.manager.sessions) (hs' : m.getSession h = some s')
    (hop : s'.activeMech ≠ 0) : hsm.getSession h = some s' := by
  have hmem : s' ∈ hsm.manager.sessions := hsub.subset (SessionManager.mem_of_getSession hs')
  have hhandle := SessionManager.handle_of_getSession hs'
  cases hs : hsm.getSession h with
  | none =>
    have hnone := List.find?_eq_none.mp hs s' hmem
    simp [hhandle] at hnone
  | some s =>
    rcases SessionManager.eq_or_rel_of_getSession hfirst hs hmem hhandle with rfl | hlater
    · rfl
    · exact absurd (hlater ((SessionManager.handle_of_getSession hs).trans hhandle.symm)) hop

theorem activeMech_after {e : Effect} {s : Session} :
    (e.after s).activeMech = (e.update.run s).activeMech := rfl

theorem not_endsOp_of_refused {env : Env} {k : CkUlong} {call : SessionCall} {rv : CkRv}
    (hcall : hsm.sessionCall be env k call = .error rv) :
    ¬ EndsOp be h hsm (.onSession env k call) := by
  cases call with
  | object c | key c => exact id
  | crypto c =>
    rintro ⟨rfl, ⟨hinit, hrv⟩ | ⟨-, e, he⟩⟩
    · obtain ⟨kind, mech, key, rfl⟩ := CryptoCall.exists_initCall hinit
      rcases @initCall_cases be env hsm k kind mech key with
        ⟨rv, hrefused, hne⟩ | ⟨m, s, e, -, -, hcall', -⟩
      · rw [api_of_refused hrefused] at hrv
        exact hne hrv
      · cases hcall.symm.trans hcall'
    · cases hcall.symm.trans he

section

variable {env : Env} {call : SessionCall} {e : Effect} {s : Session}
  (hs : hsm.getSession h = some s) (hcall : hsm.sessionCall be env h call = .ok e)
  (hop : (e.after s).activeMech ≠ 0)
include hs hcall hop

/-- A call that is not refused and leaves an operation has begun it, or continues it. -/
theorem activeMech_cases :
    (∃ kind m key, call = .crypto (kind.initCall (some m) key) ∧ Begun kind m s e) ∨
      ((e.after s).activeMech = s.activeMech ∧
        ∀ c, call = .crypto c → c.isInit = false ∧ c.isLast = false) := by
  cases call with
  | object c => exact .inr ⟨(onlySearch_objectCall c e hcall).activeMech s, nofun⟩
  | key c => exact .inr ⟨(onlySearch_keyCall c e hcall).activeMech s, nofun⟩
  | crypto c =>
    cases hinit : c.isInit with
    | true =>
      obtain ⟨kind, mech, key, rfl⟩ := CryptoCall.exists_initCall hinit
      rcases @initCall_cases be env hsm h kind mech key with
        ⟨rv, hrefused, -⟩ | ⟨m, s', e', rfl, hs', hcall', hbegun⟩
      · cases hcall.symm.trans hrefused
      obtain rfl := Except.ok.inj (hcall.symm.trans hcall')
      obtain rfl := Option.mem_unique hs hs'
      exact .inl ⟨kind, m, key, rfl, hbegun⟩
    | false =>
      have hcontinues : c.Continues e.update := continues_cryptoCall hinit e hcall
      rw [CryptoCall.Continues] at hcontinues
      rw [activeMech_after] at hop ⊢
      split_ifs at hcontinues with hlast
      · -- The operation is over, and the session has none.
        rw [hcontinues] at hop
        exact absurd rfl hop
      · obtain ⟨data, hdata⟩ := hcontinues
        rw [hdata]
        refine .inr ⟨rfl, ?_⟩
        rintro _ ⟨⟩
        exact ⟨hinit, Bool.eq_false_of_not_eq_true hlast⟩

/-- A call on the session that is not refused. -/
theorem op_cases_called (hok : BeginsFully be hsm (.onSession env h call)) :
    OpOrigin be hsm h (.onSession env h call) := by
  rcases activeMech_cases hs hcall hop with ⟨kind, m, key, rfl, hbegun⟩ | ⟨hsame, hcontinues⟩
  · have hrv : (hsm.api be (.onSession env h (.crypto (kind.initCall (some m) key)))).1.rv =
        e.answer.rv := by
      rw [api, hcall, finish_answer]
    rcases hbegun.rv with hgood | hbad
    · exact .inl ⟨kind, m.mechanism, hbegun.accepts, env, m, key, rfl, rfl, hrv.trans hgood⟩
    · exact absurd (hrv.trans hbad) (hok env h kind (some m) key rfl)
  · refine .inr ⟨s, hs, hsame ▸ hop, ?_⟩
    cases call with
    | object c | key c => exact id
    | crypto c =>
      obtain ⟨hinit, hlast⟩ := hcontinues c rfl
      rintro ⟨-, ⟨hinit', -⟩ | ⟨hlast', -⟩⟩
      · exact Bool.false_ne_true (hinit.symm.trans hinit')
      · exact Bool.false_ne_true (hlast.symm.trans hlast')

end

theorem op_cases_onSession {env : Env} {k : CkUlong} {call : SessionCall}
    (hok : BeginsFully be hsm (.onSession env k call))
    (hs' : (hsm.api be (.onSession env k call)).2.getSession h = some s')
    (hop : s'.activeMech ≠ 0) : OpOrigin be hsm h (.onSession env k call) := by
  rw [api, getSession_finish] at hs'
  cases hcall : hsm.sessionCall be env k call with
  | error rv =>
    rw [hcall] at hs'
    exact .inr ⟨s', hs', hop, not_endsOp_of_refused hcall⟩
  | ok e =>
    simp only [hcall] at hs'
    by_cases hk : h = k
    · subst hk
      rw [if_pos rfl] at hs'
      obtain ⟨s, hs, rfl⟩ := Option.map_eq_some_iff.mp hs'
      exact op_cases_called hs hcall hop hok
    · -- The call is on another session.
      rw [if_neg hk] at hs'
      refine .inr ⟨s', hs', hop, ?_⟩
      intro hends
      cases call with
      | object c | key c => exact hends
      | crypto c => exact hk hends.1.symm

/-- A call that is not on the session begins no operation on it. -/
theorem exists_op_of_step {c : ApiCall} {m : SessionManager} (hfirst : OpFirst hsm.manager)
    (hstep : SessionsStep be hsm c m) (hc : ∀ env k call, c ≠ .onSession env k call)
    (hs' : m.getSession h = some s') (hop : s'.activeMech ≠ 0) :
    ∃ s, hsm.getSession h = some s ∧ s.activeMech ≠ 0 := by
  cases hstep with
  | closed m hsub hnext hopen hlogout => exact ⟨s', getSession_of_sublist hfirst hsub hs' hop, hop⟩
  | opened slotId flags hc hanswer =>
    -- The new session is found when there is no other with its handle.
    rw [SessionManager.getSession, List.find?_append, Option.or_eq_some_iff] at hs'
    rcases hs' with hold | ⟨-, hnew⟩
    · exact ⟨s', hold, hop⟩
    · rw [List.mem_singleton.mp (List.mem_of_find?_eq_some hnew)] at hop
      exact absurd rfl hop
  | login k userType pin s hc hs hrv =>
    have hhandle : (s.login userType).2.handle = k :=
      (s.login_handle userType).trans (SessionManager.handle_of_getSession hs)
    rw [SessionManager.getSession_setSession hs hhandle] at hs'
    split_ifs at hs' with hk
    · cases hs'
      rw [s.login_activeMech userType] at hop
      exact ⟨s, hk ▸ hs, hop⟩
    · exact ⟨s', hs', hop⟩
  | logout k s hc hs =>
    rw [SessionManager.getSession_setSession hs (SessionManager.handle_logout hs)] at hs'
    split_ifs at hs'
    · cases hs'
      exact absurd rfl hop
    · exact ⟨s', hs', hop⟩
  | called env k call e s hc' hcall hs => exact absurd hc' (hc env k call)

theorem not_endsOp_logout {k : CkUlong} (hs' : (hsm.api be (.logout k)).2.getSession h = some s')
    (hop : s'.activeMech ≠ 0) : ¬ EndsOp be h hsm (.logout k) := by
  rintro ⟨rfl, hrv⟩
  have hstep := hsm.sessionsStep be (.logout k)
  change (hsm.api be (.logout k)).2.manager.getSession k = some s' at hs'
  generalize (hsm.api be (.logout k)).2.manager = m at hs' hstep
  cases hstep with
  | closed m hsub hnext hopen hlogout => exact hlogout k rfl hrv
  | opened slotId flags hc hanswer => cases hc
  | login _ userType pin s hc hs hrv => cases hc
  | logout _ s hc hs =>
    cases hc
    rw [SessionManager.getSession_setSession hs (SessionManager.handle_logout hs), if_pos rfl]
      at hs'
    cases hs'
    exact hop rfl
  | called env _ call e s hc hcall hs => cases hc

theorem not_endsOp_closeSession {k : CkUlong} (hfirst : OpFirst hsm.manager)
    (hs' : (hsm.api be (.closeSession k)).2.getSession h = some s') (hop : s'.activeMech ≠ 0) :
    ¬ EndsOp be h hsm (.closeSession k) := by
  rintro ⟨rfl, hrv⟩
  simp only [api, cCloseSession, SessionManager.closeSession] at hs' hrv
  split_ifs at hs' hrv with hinit hfound
  obtain ⟨s, hs⟩ := Option.isSome_iff_exists.mp hfound
  have hhandle := SessionManager.handle_of_getSession hs'
  have hlater := SessionManager.rel_of_mem_eraseP hfirst hs (SessionManager.mem_of_getSession hs')
    hhandle
  exact hop (hlater ((SessionManager.handle_of_getSession hs).trans hhandle.symm))

theorem not_endsOp_closeAllSessions {slotId : CkUlong} (hfirst : OpFirst hsm.manager)
    (hs' : (hsm.api be (.closeAllSessions slotId)).2.getSession h = some s')
    (hop : s'.activeMech ≠ 0) : ¬ EndsOp be h hsm (.closeAllSessions slotId) := by
  rintro ⟨⟨s, hs, hslot⟩, hrv⟩
  simp only [api, cCloseAllSessions, SessionManager.closeAllSessions] at hs' hrv
  split_ifs at hs' hrv with hinit
  have hleft := List.mem_filter.mp (SessionManager.mem_of_getSession hs')
  have hold := getSession_of_sublist hfirst List.filter_sublist hs' hop
  obtain rfl := Option.mem_unique hs hold
  simp [hslot] at hleft

theorem op_cases {c : ApiCall} (hfirst : OpFirst hsm.manager) (hok : BeginsFully be hsm c)
    (hs' : (hsm.api be c).2.getSession h = some s') (hop : s'.activeMech ≠ 0) :
    OpOrigin be hsm h c := by
  -- Only calls on a session can begin an operation.
  have hold (hc : ∀ env k call, c ≠ .onSession env k call) (hnot : ¬ EndsOp be h hsm c) :
      OpOrigin be hsm h c := by
    obtain ⟨s, hs, hop⟩ := exists_op_of_step hfirst (hsm.sessionsStep be c) hc hs' hop
    exact .inr ⟨s, hs, hop, hnot⟩
  cases c with
  | onSession env k call => exact op_cases_onSession hok hs' hop
  | logout k => exact hold (by simp) (not_endsOp_logout hs' hop)
  | closeSession k => exact hold (by simp) (not_endsOp_closeSession hfirst hs' hop)
  | closeAllSessions slotId => exact hold (by simp) (not_endsOp_closeAllSessions hfirst hs' hop)
  | _ => exact hold (by simp) id

/-! ### Runs -/

theorem getSession_of_opSession (hcheck : ∃ s, hsm.opSession h = .ok s) :
    ∃ s, hsm.getSession h = some s ∧ s.activeMech ≠ 0 := by
  obtain ⟨s, hs⟩ := hcheck
  cases hget : hsm.getSession h with
  | none => simp [opSession, orRefuse, hget] at hs
  | some s' =>
    refine ⟨s', rfl, ?_⟩
    intro hzero
    simp [opSession, orRefuse, hget, Option.filter, Session.opCheck, hzero] at hs

theorem opFirst_run (be : Backend) (calls : List ApiCall) :
    OpFirst (CS.run (api be) {} calls).manager := by
  refine CS.run_history (fun _ (hsm : Hsm) => OpFirst hsm.manager) ?_ ?_ calls
  · intro done c hdone
    exact (sessionsStep be _ c).pairwise_handle (fun _ _ _ => rfl) hdone
  · exact List.Pairwise.nil

/-- In every run in which no `Init` fails on its parameters, an operation that a call finds goes back
to an `Init` with a mechanism of its kind. -/
theorem openSince_run {calls : List ApiCall}
    (hcalls : CS.Guarded (api be) (BeginsFully be) {} calls) {s : Session}
    (hs : (CS.run (api be) {} calls).getSession h = some s) (hop : s.activeMech ≠ 0) :
    ∃ kind m, OpKind.accepts kind m = true ∧ OpenSince be h kind m calls := by
  induction calls using List.reverseRecOn generalizing s with
  | nil => cases hs
  | append_singleton calls c ih =>
    obtain ⟨hdone, hlast⟩ := CS.guarded_append.mp hcalls
    rw [CS.run_append] at hs
    rcases op_cases (opFirst_run be calls) hlast.1 hs hop with
      ⟨kind, m, haccepts, hbegins⟩ | ⟨s, hs, hop, hnot⟩
    · exact ⟨kind, m, haccepts, CS.since_last hbegins⟩
    · obtain ⟨kind, m, haccepts, hopen⟩ := ih hdone hs hop
      exact ⟨kind, m, haccepts, hopen.append hnot⟩

end Hsm

/-- A session has a key. -/
def keyStored : List ApiCall :=
  openOne ++ [.onSession {} 1 (.object (.createObject
    [⟨ckaClass, .data (ulongBytes ckoPrivateKey)⟩, ⟨ckaVhsmRsaPriv, .data [1]⟩] true))]

/-- It is asked to sign. -/
def beginSign : List ApiCall :=
  keyStored ++ [.onSession {} 1 (.crypto (.signInit (some ⟨ckmRsaPkcs, .absent⟩) 1))]

theorem openSince_beginSign : OpenSince .toy 1 .sign ckmRsaPkcs beginSign := by
  refine CS.since_last ⟨{}, ⟨ckmRsaPkcs, .absent⟩, 1, rfl, rfl, ?_⟩
  decide +kernel

/-- An encryption is refused for its parameters. -/
def failedEncrypt : List ApiCall :=
  openOne ++ [.onSession {} 1 (.crypto (.encryptInit (some ⟨ckmAesGcm, .absent⟩) 1))]

end VirtualHsm
