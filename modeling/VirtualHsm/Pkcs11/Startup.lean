import VirtualHsm.Pkcs11.Api

/-!
# Use before initialisation

Until `C_Initialize` has succeeded, the calls that need the module should be turned away with
`CKR_CRYPTOKI_NOT_INITIALIZED`, and `C_Initialize` itself should not. But the flag is set before
the self-test runs, and a test that fails leaves it set: the module then works although no
initialisation has succeeded. It is turned away again after `C_Finalize`.
-/

namespace VirtualHsm

/-! ### The calls -/

/-- The calls that need an initialised module. -/
def ApiCall.NeedsInit : ApiCall → Prop
  | .openSession .. | .login .. => True
  | .onSession _ _ (.object c) =>
    match c with
    | .createObject .. | .findObjectsInit .. => True
    | _ => False
  | .onSession _ _ (.key c) =>
    match c with
    | .rotateKeypair .. => False
    | _ => True
  | .onSession _ _ (.crypto c) =>
    match c with
    | .encryptInit .. | .decryptInit .. | .digestInit .. | .signInit .. | .verifyInit .. => True
    | _ => False
  | _ => False

/-- The mechanism of an operation is given and supported. -/
def ApiCall.MechanismOk : ApiCall → Prop
  | .onSession _ _ (.crypto c) =>
    match c with
    | .encryptInit mech _ | .decryptInit mech _ => ∃ m ∈ mech, isEncMech m.mechanism = true
    | .digestInit mech => ∃ m ∈ mech, isDigestMech m.mechanism = true
    | .signInit mech _ | .verifyInit mech _ =>
      ∃ m ∈ mech, (isRsaMech m.mechanism || isEcMech m.mechanism) = true
    | _ => True
  | _ => True

/-- `C_SignRecoverInit`. -/
def cSignRecoverInit (_session : CkUlong) (_mech : Option CkMechanism) (_key : CkUlong) : CkRv :=
  .functionNotSupported

/-- `C_VerifyRecoverInit`. -/
def cVerifyRecoverInit (_session : CkUlong) (_mech : Option CkMechanism) (_key : CkUlong) : CkRv :=
  .functionNotSupported

/-- A call that is turned away before initialisation, the two unsupported ones included. -/
inductive Entry
  | call (c : ApiCall) (hc : c.NeedsInit)
  | signRecoverInit (session : CkUlong) (mech : Option CkMechanism) (key : CkUlong)
  | verifyRecoverInit (session : CkUlong) (mech : Option CkMechanism) (key : CkUlong)

namespace Entry

def rv (be : Backend) (hsm : Hsm) : Entry → CkRv
  | .call c _ => (hsm.api be c).1.rv
  | .signRecoverInit session mech key => cSignRecoverInit session mech key
  | .verifyRecoverInit session mech key => cVerifyRecoverInit session mech key

/-- The call passes what is checked before the flag. -/
def MechanismOk : Entry → Prop
  | .call c _ => c.MechanismOk
  | .signRecoverInit .. | .verifyRecoverInit .. => False

end Entry

/-- The call gets the answer of a module that is not initialised, and `C_Initialize` would not be
refused for being too late. -/
structure TurnedAway (be : Backend) (hsm : Hsm) (e : Entry) : Prop where
  entry : e.rv be hsm = .cryptokiNotInitialized
  again : ∀ boot fails, (hsm.cInitialize boot fails).1 ≠ .cryptokiAlreadyInitialized

/-- The call does not bring about a successful initialisation. -/
def NotInit (be : Backend) (hsm : Hsm) (c : ApiCall) : Prop :=
  ∀ boot fails, c = .initModule boot fails → (hsm.api be c).1.rv ≠ .ok

/-- Whether a failed self-test has left the flag set: `C_Initialize` sets it when the storage is
in place and only the test fails, `C_Finalize` clears it. -/
def ApiCall.selfTestLeft (left : Bool) : ApiCall → Bool
  | .initModule (some _) true => true
  | .finalizeModule false => false
  | _ => left

/-! ### The flag -/

namespace Hsm

variable {be : Backend} {hsm : Hsm}

@[simp] theorem initialized_setToken (slotId : CkUlong) (t : TokenCore) :
    (hsm.setToken slotId t).initialized = hsm.initialized := rfl

@[simp] theorem initialized_cLogin (h userType : CkUlong) (pin : CkBuf) :
    (hsm.cLogin h userType pin).2.initialized = hsm.initialized := by
  unfold cLogin
  split_ifs
  · rfl
  · rfl
  cases hsm.sessionToken h with
  | none => rfl
  | some p =>
    simp only
    split_ifs
    · rfl
    · simp only [initialized_publish, initialized_setToken]
    · rfl

/-- Only `C_Initialize` and `C_Finalize` touch the flag. -/
theorem initialized_api (c : ApiCall) :
    (hsm.api be c).2.initialized =
      match c with
      | .initModule (some _) _ => true
      | .finalizeModule false => false
      | _ => hsm.initialized := by
  cases c with
  -- The flag is set before the self-test runs, so its failure does not take it back.
  | initModule boot fails =>
    cases hinit : hsm.initialized <;> cases boot <;> simp [api, cInitialize, hinit]
  | finalizeModule reserved =>
    cases hinit : hsm.initialized <;> cases reserved <;> simp [api, cFinalize, hinit]
  | login h userType pin => exact initialized_cLogin h userType pin
  | openSession | closeSession | closeAllSessions | logout | initToken | initPIN | setPIN =>
    simp only [api, cOpenSession, cCloseSession, cCloseAllSessions, cLogout, cInitToken, cInitPIN,
      cSetPIN]
    repeat' split
    all_goals rfl
  | onSession env h call => exact initialized_finish h _

theorem initialized_run {calls : List ApiCall}
    (hcalls : CS.Guarded (api be) (NotInit be) {} calls) :
    (CS.run (api be) {} calls).initialized = calls.foldl ApiCall.selfTestLeft false := by
  refine hcalls.history (fun done hsm =>
    hsm.initialized = done.foldl ApiCall.selfTestLeft false) ?_ rfl
  intro done c h hnot
  rw [List.foldl_append, ← h, initialized_api]
  rcases c with ⟨boot, fails⟩ | reserved | _ | _ | _ | _ | _ | _ | _ | _ | _
  case initModule =>
    cases boot with
    | none => cases fails <;> rfl
    | some b =>
      cases fails with
      | true => rfl
      | false =>
        -- The call did not succeed, so the flag was set before.
        have hne := hnot (some b) false rfl
        cases hinit : (CS.run (api be) {} done).initialized with
        | true => rfl
        | false => simp [api, cInitialize, hinit] at hne
  case finalizeModule => cases reserved <;> rfl
  all_goals rfl

/-! ### Answers without the flag -/

section

variable (hinit : hsm.initialized = false)
include hinit

theorem checkInitialized_bind {α : Type} (f : Unit → Except CkRv α) :
    (hsm.checkInitialized >>= f) = .error .cryptokiNotInitialized := by
  simp [checkInitialized, refuseIf, hinit, bind, Except.bind]

/-- An operation gets to the flag when its mechanism is given and supported. -/
theorem opInit_of_not_initialized (supported : CkUlong → Bool) (session : CkUlong)
    (mech : Option CkMechanism) (key : CkUlong) (needKey : Bool)
    (rest : CkMechanism → SessionUpdate → Except CkRv Effect) :
    (hsm.finish session do
      let m ← orRefuse mech .argumentsBad
      refuseIf (supported m.mechanism = false) .mechanismInvalid
      let begun ← hsm.opBegin session m.mechanism key needKey
      rest m begun).1.rv = .cryptokiNotInitialized ↔
      ∃ m ∈ mech, supported m.mechanism = true := by
  cases mech with
  | none => simp [orRefuse, bind, Except.bind, finish]
  | some m =>
    by_cases hsupported : supported m.mechanism = true
    · simp [orRefuse, refuseIf, hsupported, opBegin, bind, Except.bind, checkInitialized, hinit,
        finish]
    · simp [orRefuse, refuseIf, hsupported, bind, Except.bind, finish]

theorem objectCall_of_not_initialized {env : Env} {session : CkUlong} {c : ObjectCall}
    (hc : (ApiCall.onSession env session (.object c)).NeedsInit) :
    hsm.objectCall session c = .error .cryptokiNotInitialized := by
  cases c with
  | createObject templ ph | findObjectsInit templ => exact checkInitialized_bind hinit _
  | _ => exact hc.elim

theorem keyCall_of_not_initialized {env : Env} {session : CkUlong} {c : KeyCall}
    (hc : (ApiCall.onSession env session (.key c)).NeedsInit) :
    hsm.keyCall be env session c = .error .cryptokiNotInitialized := by
  cases c with
  | rotateKeypair => exact hc.elim
  | _ => exact checkInitialized_bind hinit _

theorem api_of_not_initialized {c : ApiCall}
    (hc : c.NeedsInit) : (hsm.api be c).1.rv = .cryptokiNotInitialized ↔ c.MechanismOk := by
  cases c with
  | openSession | login =>
    refine iff_of_true ?_ trivial
    simp [api, cOpenSession, cLogin, hinit]
  | onSession env session call =>
    cases call with
    | object c =>
      refine iff_of_true ?_ trivial
      simp only [api, sessionCall, objectCall_of_not_initialized hinit hc, finish]
    | key c =>
      refine iff_of_true ?_ trivial
      simp only [api, sessionCall, keyCall_of_not_initialized hinit hc, finish]
    | crypto c =>
      cases c with
      | encryptInit mech key | decryptInit mech key =>
        exact opInit_of_not_initialized hinit isEncMech session mech key true _
      | digestInit mech => exact opInit_of_not_initialized hinit _ session mech _ _ _
      | signInit mech key | verifyInit mech key =>
        exact opInit_of_not_initialized hinit (fun m => isRsaMech m || isEcMech m) session mech key
          true _
      | _ => exact hc.elim
  | _ => exact hc.elim

end

end Hsm

/-- A call is turned away exactly when the flag is down and nothing is checked before it. -/
theorem turnedAway_iff_initialized {be : Backend} {hsm : Hsm} (e : Entry) :
    TurnedAway be hsm e ↔ hsm.initialized = false ∧ e.MechanismOk := by
  have hagain (hinit : hsm.initialized = false) (boot : Option Boot) (fails : Bool) :
      (hsm.cInitialize boot fails).1 ≠ .cryptokiAlreadyInitialized := by
    cases boot <;> cases fails <;> simp [Hsm.cInitialize, hinit]
  have hanswer (hinit : hsm.initialized = false) :
      e.rv be hsm = .cryptokiNotInitialized ↔ e.MechanismOk := by
    cases e with
    | call c hc => exact Hsm.api_of_not_initialized hinit hc
    | signRecoverInit session mech key
    | verifyRecoverInit session mech key =>
      exact iff_of_false (fun h => CkRv.noConfusion h) not_false
  constructor
  · intro h
    have hinit : hsm.initialized = false := by
      cases hflag : hsm.initialized with
      | false => rfl
      | true => exact absurd (by simp [Hsm.cInitialize, hflag]) (h.again none false)
    exact ⟨hinit, (hanswer hinit).mp h.entry⟩
  · rintro ⟨hinit, hmech⟩
    exact ⟨(hanswer hinit).mpr hmech, hagain hinit⟩

/-- In a run without a successful initialisation, a call is turned away exactly when every failed
self-test has been followed by `C_Finalize` and nothing is checked before the flag. -/
theorem turnedAway_iff (be : Backend) {calls : List ApiCall}
    (hcalls : CS.Guarded (Hsm.api be) (NotInit be) {} calls) (e : Entry) :
    TurnedAway be (CS.run (Hsm.api be) {} calls) e ↔
      calls.foldl ApiCall.selfTestLeft false = false ∧ e.MechanismOk := by
  rw [turnedAway_iff_initialized, Hsm.initialized_run hcalls]

/-! ### A failed self-test -/

/-- A container with one slot. -/
def Boot.oneSlot : Boot where
  slots i := if i = 0 then some none else none
  throttle := none
  publishing := false

/-- The self-test fails. -/
def failedTest : List ApiCall := [.initModule (some .oneSlot) true]

/-- The application opens a session. -/
def openFirst : Entry := .call (.openSession 0 ckfSerialSession) trivial

/-- The storage fails, then the self-test, then the module is finalized. -/
theorem turnedAway_finalized :
    TurnedAway .toy (CS.run (Hsm.api .toy) {}
      (.initModule none false :: failedTest ++ [.finalizeModule false])) openFirst := by
  have hcalls : CS.Guarded (Hsm.api .toy) (NotInit .toy) {}
      (.initModule none false :: failedTest ++ [.finalizeModule false]) := by
    refine ⟨?_, ?_, ?_, trivial⟩
    · intro boot fails _
      exact fun h => CkRv.noConfusion h
    · intro boot fails _
      exact fun h => CkRv.noConfusion h
    · exact nofun
  exact (turnedAway_iff .toy hcalls openFirst).mpr ⟨rfl, trivial⟩

/-- After the failed test a session can be opened and a new `C_Initialize` is refused. In any
case an operation without a mechanism gets another answer, and so does an unsupported one. -/
theorem not_turnedAway_failedTest :
    CS.Guarded (Hsm.api .toy) (NotInit .toy) {} failedTest ∧
      openFirst.rv .toy (CS.run (Hsm.api .toy) {} failedTest) = .ok ∧
      ((CS.run (Hsm.api .toy) {} failedTest).cInitialize (some .oneSlot) false).1 =
        .cryptokiAlreadyInitialized ∧
      ¬ TurnedAway .toy (CS.run (Hsm.api .toy) {} failedTest) openFirst ∧
      (Entry.call (.onSession {} 1 (.crypto (.signInit none 1))) trivial).rv .toy {} =
        .argumentsBad ∧
      (Entry.signRecoverInit 1 none 1).rv .toy {} = .functionNotSupported := by
  refine ⟨⟨?_, trivial⟩, rfl, rfl, ?_, rfl, rfl⟩
  · intro boot fails _
    exact fun h => CkRv.noConfusion h
  · intro h
    exact h.again none false rfl

end VirtualHsm
