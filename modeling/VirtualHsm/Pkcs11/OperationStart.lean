import VirtualHsm.Pkcs11.OperationKind

/-!
# Starting an operation

A call that starts an operation should be all or nothing: refused with `CKR_OPERATION_ACTIVE` when
an operation is open, and without a trace on the session when it fails for whatever reason.

`Session::opBegin` refuses only when the flag of `initializeOperation` is set, which no call of the
interface does. So an operation that is open is replaced, and its data are lost, by every start that
passes the checks on the arguments; a start that does not pass them reports them instead. On a
session without an operation, what fails after the beginning is AES-GCM with bad parameters: the call
answers `CKR_MECHANISM_PARAM_INVALID` and leaves an operation open.
-/

namespace VirtualHsm

/-- The sessions have the same operation, or both have none. -/
structure Session.SameOperation (s s' : Session) : Prop where
  activeMech : s'.activeMech = s.activeMech
  signKey : s'.signKey = s.signKey
  opBuf : s'.opBuf = s.opBuf
  gcmIv : s'.gcmIv = s.gcmIv
  gcmAad : s'.gcmAad = s.gcmAad
  oaepMgf1 : s'.oaepMgf1 = s.oaepMgf1
  oaepLabel : s'.oaepLabel = s.oaepLabel

theorem Session.SameOperation.refl (s : Session) : s.SameOperation s :=
  ⟨rfl, rfl, rfl, rfl, rfl, rfl, rfl⟩

/-- The start of an operation on the session `s` with handle `h` is refused when there is one, and
leaves the session's operation alone when it fails. -/
structure AllOrNothing (be : Backend) (env : Env) (hsm : Hsm) (h : CkUlong) (s : Session)
    (kind : OpKind) (mech : Option CkMechanism) (key : CkUlong) : Prop where
  active : s.activeMech ≠ 0 →
    (hsm.api be (.onSession env h (.crypto (kind.initCall mech key)))).1.rv = .operationActive
  failed : (hsm.api be (.onSession env h (.crypto (kind.initCall mech key)))).1.rv ≠ .ok →
    ∃ s', (hsm.api be (.onSession env h (.crypto (kind.initCall mech key)))).2.getSession h =
      some s' ∧ s.SameOperation s'

/-- The arguments pass the checks that are made before the session is asked. -/
structure InitChecks (hsm : Hsm) (kind : OpKind) (key : CkUlong) (m : CkMechanism) : Prop where
  accepts : kind.accepts m.mechanism = true
  initialized : hsm.initialized = true
  key_ne : kind ≠ .digest → key ≠ ckInvalidHandle

/-- The parameters of the mechanism are refused, which is found out after the beginning. -/
def RefusesParams (kind : OpKind) (m : CkMechanism) : Prop :=
  (kind = .encrypt ∨ kind = .decrypt) ∧ Hsm.cipherParams m = none

namespace OpKind

/-- What follows when the session has begun the operation. -/
def begun : OpKind → CkMechanism → SessionUpdate → Except CkRv Effect
  | encrypt, m, u | decrypt, m, u =>
    match Hsm.cipherParams m with
    | some params => .ok { answer := { rv := .ok }, update := u.andThen params }
    | none => .ok { answer := { rv := .mechanismParamInvalid }, update := u }
  | _, _, u => .ok { answer := { rv := .ok }, update := u }

/-- The key handle that the session is given. -/
def initKey : OpKind → CkUlong → CkUlong
  | digest, _ => ckInvalidHandle
  | _, key => key

end OpKind

namespace Hsm

variable {be : Backend} {env : Env} {hsm : Hsm} {h : CkUlong} {s : Session} {kind : OpKind}
  {mech : Option CkMechanism} {key : CkUlong} {m : CkMechanism}

/-! ### One start -/

/-- All starts make the same steps. -/
theorem initCall_eq (kind : OpKind) (mech : Option CkMechanism) (key : CkUlong) :
    hsm.cryptoCall be env h (kind.initCall mech key) = (do
      let m ← orRefuse mech .argumentsBad
      refuseIf (kind.accepts m.mechanism = false) .mechanismInvalid
      let u ← hsm.opBegin h m.mechanism (kind.initKey key) (decide (kind ≠ .digest))
      kind.begun m u) := by
  cases kind with
  | encrypt | decrypt | digest | sign | verify => rfl

theorem refused_of_not_initChecks (hs : hsm.getSession h = some s)
    (hchecks : ∀ m, mech = some m → ¬ InitChecks hsm kind key m) :
    ∃ rv, hsm.cryptoCall be env h (kind.initCall mech key) = .error rv ∧ rv ≠ .ok ∧
      rv ≠ .operationActive := by
  rw [initCall_eq]
  cases mech with
  | none => exact ⟨.argumentsBad, rfl, by decide, by decide⟩
  | some m =>
    by_cases haccepts : kind.accepts m.mechanism = false
    · refine ⟨.mechanismInvalid, ?_, by decide, by decide⟩
      simp [orRefuse, refuseIf, haccepts, bind, Except.bind]
    by_cases hinit : hsm.initialized = false
    · refine ⟨.cryptokiNotInitialized, ?_, by decide, by decide⟩
      simp [orRefuse, refuseIf, haccepts, opBegin_eq hs, hinit, bind, Except.bind]
    by_cases hkey : kind ≠ .digest ∧ kind.initKey key = ckInvalidHandle
    · refine ⟨.keyHandleInvalid, ?_, by decide, by decide⟩
      simp [orRefuse, refuseIf, haccepts, opBegin_eq hs, hinit, hkey, bind, Except.bind]
    -- All of the checks are passed.
    refine absurd ⟨Bool.eq_true_of_not_eq_false haccepts, Bool.eq_true_of_not_eq_false hinit,
      fun hkind heq => hkey ⟨hkind, ?_⟩⟩ (hchecks m rfl)
    cases kind <;> first | exact absurd rfl hkind | exact heq

theorem initCall_of_initChecks (hs : hsm.getSession h = some s)
    (hchecks : InitChecks hsm kind key m) :
    hsm.cryptoCall be env h (kind.initCall (some m) key) =
      if s.operationInitialized = true ∧ s.activeMech ≠ 0 then .error .operationActive
      else kind.begun m (.opBegin m.mechanism (kind.initKey key)) := by
  have hinit : ¬ hsm.initialized = false := by simp [hchecks.initialized]
  have hkey : ¬ (decide (kind ≠ .digest) = true ∧ kind.initKey key = ckInvalidHandle) := by
    rintro ⟨hkind, heq⟩
    refine hchecks.key_ne (of_decide_eq_true hkind) ?_
    cases kind <;> first | exact absurd rfl (of_decide_eq_true hkind) | exact heq
  have hbegin : hsm.opBegin h m.mechanism (kind.initKey key) (decide (kind ≠ .digest)) =
      if s.operationInitialized = true ∧ s.activeMech ≠ 0 then .error .operationActive
      else .ok (.opBegin m.mechanism (kind.initKey key)) := by
    rw [opBegin_eq hs, if_neg hinit, if_neg hkey]
  rw [initCall_eq]
  simp only [orRefuse, refuseIf, hchecks.accepts, hbegin, bind, Except.bind, Bool.true_eq_false,
    if_false]
  split_ifs <;> rfl

theorem mechanism_of_cipherParams_none (hparams : cipherParams m = none) :
    m.mechanism = ckmAesGcm := by
  by_contra hne
  rw [cipherParams, if_neg hne] at hparams
  split_ifs at hparams
  split at hparams <;> cases hparams

theorem operationInitialized_cipherParams {u : SessionUpdate} (hu : cipherParams m = some u)
    (x : Session) : (u.run x).operationInitialized = x.operationInitialized := by
  unfold cipherParams at hu
  split_ifs at hu
  · split at hu
    · cases hu
      rfl
    · cases hu
  · split at hu <;> · cases hu; rfl
  · cases hu
    rfl

theorem begun_cases (kind : OpKind) (m : CkMechanism) (u : SessionUpdate) :
    (RefusesParams kind m ∧
      kind.begun m u = .ok { answer := { rv := .mechanismParamInvalid }, update := u }) ∨
    ¬ RefusesParams kind m ∧ ∃ u', kind.begun m u = .ok { answer := { rv := .ok }, update := u' } ∧
      ∀ x, (u'.run x).operationInitialized = (u.run x).operationInitialized := by
  cases hparams : cipherParams m with
  | none =>
    cases kind with
    | encrypt => exact .inl ⟨⟨.inl rfl, hparams⟩, by rw [OpKind.begun, hparams]⟩
    | decrypt => exact .inl ⟨⟨.inr rfl, hparams⟩, by rw [OpKind.begun, hparams]⟩
    | digest | sign | verify =>
      exact .inr ⟨fun hrefuses => absurd hrefuses.1 (by decide), u, rfl, fun _ => rfl⟩
  | some params =>
    have hnot : ¬ RefusesParams kind m := fun hrefuses => by
      rw [hrefuses.2] at hparams
      cases hparams
    have hflag (x : Session) : ((u.andThen params).run x).operationInitialized =
        (u.run x).operationInitialized := operationInitialized_cipherParams hparams _
    cases kind with
    | encrypt | decrypt => exact .inr ⟨hnot, _, by rw [OpKind.begun, hparams], hflag⟩
    | digest | sign | verify => exact .inr ⟨hnot, u, rfl, fun _ => rfl⟩

/-! ### All or nothing -/

theorem allOrNothing_of_refused {rv : CkRv} (hs : hsm.getSession h = some s)
    (hcall : hsm.cryptoCall be env h (kind.initCall mech key) = .error rv) :
    AllOrNothing be env hsm h s kind mech key ↔ (s.activeMech ≠ 0 → rv = .operationActive) := by
  have hapi := api_of_refused hcall
  constructor
  · intro hall hactive
    have hanswer := hall.active hactive
    rwa [hapi] at hanswer
  · intro hrv
    refine ⟨fun hactive => ?_, fun _ => ⟨s, ?_, .refl s⟩⟩
    · rw [hapi]
      exact hrv hactive
    · rw [hapi]
      exact hs

theorem not_allOrNothing_of_replaced (hs : hsm.getSession h = some s)
    (hchecks : InitChecks hsm kind key m) (hactive : s.activeMech ≠ 0)
    (hflag : s.operationInitialized ≠ true) : ¬ AllOrNothing be env hsm h s kind (some m) key := by
  intro hall
  have hanswer := hall.active hactive
  have hgate : ¬ (s.operationInitialized = true ∧ s.activeMech ≠ 0) := fun hboth => hflag hboth.1
  rw [api, sessionCall, initCall_of_initChecks hs hchecks, if_neg hgate] at hanswer
  rcases begun_cases kind m (.opBegin m.mechanism (kind.initKey key)) with
    ⟨-, hbegun⟩ | ⟨-, u, hbegun, -⟩
  all_goals
    rw [hbegun, finish_answer] at hanswer
    cases hanswer

theorem allOrNothing_of_inactive (hs : hsm.getSession h = some s)
    (hchecks : InitChecks hsm kind key m) (hnone : s.activeMech = 0) :
    AllOrNothing be env hsm h s kind (some m) key ↔ ¬ RefusesParams kind m := by
  have hgate : ¬ (s.operationInitialized = true ∧ s.activeMech ≠ 0) := fun hboth => hboth.2 hnone
  have hcall := @initCall_of_initChecks be env _ _ _ _ _ _ hs hchecks
  rw [if_neg hgate] at hcall
  rcases begun_cases kind m (.opBegin m.mechanism (kind.initKey key)) with
    ⟨hparams, hbegun⟩ | ⟨hparams, u, hbegun, -⟩
  · refine iff_of_false (fun hall => ?_) fun hnot => hnot hparams
    have hfailed := hall.failed
    rw [api, sessionCall, hcall, hbegun, finish_answer, getSession_finish] at hfailed
    obtain ⟨s', hs', hsame⟩ := hfailed CkRv.noConfusion
    simp only [if_true, hs, Option.map_some, Option.some.injEq] at hs'
    have hmech : s'.activeMech = m.mechanism := by
      rw [← hs', Effect.after]
      simp only [SessionUpdate.opBegin, Session.opBegin, if_neg hgate]
    rw [hsame.activeMech, hnone, mechanism_of_cipherParams_none hparams.2] at hmech
    exact absurd hmech (by decide)
  · refine iff_of_true ⟨fun hactive => absurd hnone hactive, fun hrv => absurd ?_ hrv⟩ hparams
    rw [api, sessionCall, hcall, hbegun, finish_answer]

/-- A start is all or nothing in two cases. When the session has an operation, the flag has to be
set and the arguments have to pass the checks before the session is asked. When it has none, a call
that passes these checks must not fail on its parameters. -/
theorem allOrNothing_iff (be : Backend) (env : Env) (hsm : Hsm) (h : CkUlong) (s : Session)
    (hs : hsm.getSession h = some s) (kind : OpKind) (mech : Option CkMechanism) (key : CkUlong) :
    AllOrNothing be env hsm h s kind mech key ↔
      if s.activeMech ≠ 0 then
        s.operationInitialized = true ∧ ∃ m, mech = some m ∧ InitChecks hsm kind key m
      else ∀ m, mech = some m → InitChecks hsm kind key m → ¬ RefusesParams kind m := by
  by_cases hchecks : ∃ m, mech = some m ∧ InitChecks hsm kind key m
  · obtain ⟨m, rfl, hm⟩ := hchecks
    by_cases hactive : s.activeMech ≠ 0
    · rw [if_pos hactive]
      by_cases hflag : s.operationInitialized = true
      · have hcall := @initCall_of_initChecks be env _ _ _ _ _ _ hs hm
        rw [if_pos ⟨hflag, hactive⟩] at hcall
        exact iff_of_true ((allOrNothing_of_refused hs hcall).mpr fun _ => rfl) ⟨hflag, m, rfl, hm⟩
      · exact iff_of_false (not_allOrNothing_of_replaced hs hm hactive hflag) fun h => hflag h.1
    · rw [if_neg hactive, allOrNothing_of_inactive hs hm (not_not.mp hactive)]
      constructor
      · rintro hparams m' hm' -
        cases hm'
        exact hparams
      · exact fun hall => hall m rfl hm
  · -- The code of the refusal is that of the check.
    obtain ⟨rv, hcall, -, hrv⟩ := @refused_of_not_initChecks be env _ _ _ _ _ _ hs
      fun m hmech hm => hchecks ⟨m, hmech, hm⟩
    rw [allOrNothing_of_refused hs hcall]
    by_cases hactive : s.activeMech ≠ 0
    · rw [if_pos hactive]
      exact iff_of_false (fun h => hrv (h hactive)) fun h => hchecks h.2
    · rw [if_neg hactive]
      exact iff_of_true (fun h => absurd h hactive) fun m hmech hm => absurd ⟨m, hmech, hm⟩ hchecks

/-- A session without an operation, and a start that passes all checks. -/
theorem allOrNothing_signInit :
    ∃ s, oneSession.getSession 1 = some s ∧
      AllOrNothing .toy {} oneSession 1 s .sign (some ⟨ckmEcdsa, .absent⟩) 1 := by
  refine ⟨_, rfl, (allOrNothing_iff .toy {} oneSession 1 _ rfl .sign _ 1).mpr ?_⟩
  rintro m hm - ⟨hkind, -⟩
  exact absurd hkind (by decide)

/-- The session has begun to sign. -/
def signing : Hsm :=
  (oneSession.api .toy (.onSession {} 1 (.crypto (.signInit (some ⟨ckmEcdsa, .absent⟩) 1)))).2

/-- A second start replaces the operation, and one with bad parameters leaves an operation. -/
theorem not_allOrNothing_start :
    (∃ s, signing.getSession 1 = some s ∧
      ¬ AllOrNothing .toy {} signing 1 s .sign (some ⟨ckmEcdsa, .absent⟩) 1) ∧
    ∃ s, oneSession.getSession 1 = some s ∧
      ¬ AllOrNothing .toy {} oneSession 1 s .encrypt (some ⟨ckmAesGcm, .absent⟩) 1 := by
  constructor
  · refine ⟨_, rfl, not_allOrNothing_of_replaced rfl ⟨rfl, rfl, fun _ => ?_⟩ ?_ ?_⟩
    · decide
    · decide
    · decide
  · refine ⟨_, rfl, fun hall => ?_⟩
    have hchecks : InitChecks oneSession .encrypt 1 ⟨ckmAesGcm, .absent⟩ :=
      ⟨rfl, rfl, fun _ => by decide⟩
    exact (allOrNothing_of_inactive rfl hchecks rfl).mp hall ⟨.inl rfl, rfl⟩

/-! ### The flag -/

end Hsm

namespace SessionUpdate

variable {u : SessionUpdate}

theorem OnlySearch.operationInitialized (hu : u.OnlySearch) (s : Session) :
    (u.run s).operationInitialized = s.operationInitialized := by
  cases hu <;> rfl

theorem OnlyOperation.operationInitialized (hu : u.OnlyOperation) (s : Session) :
    (u.run s).operationInitialized = s.operationInitialized := by
  induction hu generalizing s with
  | opBegin mech key =>
    change (s.opBegin mech key).2.operationInitialized = _
    unfold Session.opBegin
    split_ifs <;> rfl
  | andThen _ _ ihu ihv => exact (ihv _).trans (ihu s)
  | _ => rfl

end SessionUpdate

namespace Hsm

variable {be : Backend} {env : Env} {hsm : Hsm} {h : CkUlong} {s : Session}

theorem operationInitialized_after {call : SessionCall} {e : Effect}
    (hcall : hsm.sessionCall be env h call = .ok e) :
    (e.after s).operationInitialized = s.operationInitialized := by
  cases call with
  | object c => exact (onlySearch_objectCall c e hcall).operationInitialized s
  | key c => exact (onlySearch_keyCall c e hcall).operationInitialized s
  | crypto c => exact (onlyOperation_cryptoCall c e hcall).operationInitialized s

theorem operationInitialized_run (be : Backend) (calls : List ApiCall) (h : CkUlong) :
    ((CS.run (api be) {} calls).getSession h).all (!·.operationInitialized) := by
  rw [Option.all_eq_true]
  intro s hs
  rw [Bool.not_eq_true']
  refine session_invariant (P := (·.operationInitialized = false)) (fun _ _ _ => rfl) ?_ ?_
    (fun _ _ _ _ _ _ _ hcall => (operationInitialized_after hcall).trans) calls hs
  · intro s userType hflag
    unfold Session.login
    split_ifs <;> exact hflag
  · intro s hflag
    unfold Session.logout
    split_ifs
    · exact hflag
    all_goals rfl

end Hsm

end VirtualHsm
