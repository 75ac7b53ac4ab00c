import VirtualHsm.Pkcs11.Crypto
import VirtualHsm.Pkcs11.Wrap

/-!
# The application interface as a transition system

All calls that change the state of the module, as one step function. Calls that only report
(`C_GetInfo`, `C_GetSlotList`, `C_GetTokenInfo` and the like) are not steps.
-/

namespace VirtualHsm

/-- The calls on objects. -/
inductive ObjectCall
  | createObject (templ : List CkAttribute) (phObject : Bool)
  | copyObject (object : CkUlong) (templ : List CkAttribute) (phNewObject : Bool)
  | destroyObject (object : CkUlong)
  | getObjectSize (object : CkUlong) (pulSize : Bool)
  | getAttributeValue (object : CkUlong) (templ : List CkAttribute)
  | setAttributeValue (object : CkUlong) (templ : List CkAttribute)
  | findObjectsInit (templ : List CkAttribute)
  | findObjects (phObject : Bool) (maxObjectCount : Nat) (pulObjectCount : Bool)
  | findObjectsFinal

/-- The calls that make, wrap and derive keys. -/
inductive KeyCall
  | generateKey (mech : Option CkMechanism) (templ : List CkAttribute) (phKey : Bool)
  | generateKeyPair (mech : Option CkMechanism) (pubTempl privTempl : List CkAttribute)
      (phPublicKey phPrivateKey : Bool)
  | rotateKeypair (oldPrivate : CkUlong) (pubTempl privTempl : List CkAttribute)
      (phPublicKey phPrivateKey : Bool)
  | wrapKey (mech : Option CkMechanism) (wrappingKey key : CkUlong) (wrapped : CkBuf)
      (pulWrappedKeyLen : Bool)
  | unwrapKey (mech : Option CkMechanism) (unwrappingKey : CkUlong) (wrapped : CkBuf)
      (templ : List CkAttribute) (phKey : Bool)
  | deriveKey (mech : Option CkMechanism) (baseKey : CkUlong) (templ : List CkAttribute)
      (phKey : Bool)

/-- The calls of a cryptographic operation. -/
inductive CryptoCall
  | encryptInit (mech : Option CkMechanism) (key : CkUlong)
  | encrypt (data : CkBuf) (out : Option CkBuf)
  | encryptUpdate (part : CkBuf) (pulEncryptedPartLen : Bool)
  | encryptFinal (out : Option CkBuf)
  | decryptInit (mech : Option CkMechanism) (key : CkUlong)
  | decrypt (encryptedData : CkBuf) (out : Option CkBuf)
  | decryptUpdate (encryptedPart : CkBuf) (pulPartLen : Bool)
  | decryptFinal (out : Option CkBuf)
  | digestInit (mech : Option CkMechanism)
  | digest (data : CkBuf) (out : Option CkBuf)
  | digestUpdate (part : CkBuf)
  | digestKey (key : CkUlong)
  | digestFinal (out : Option CkBuf)
  | signInit (mech : Option CkMechanism) (key : CkUlong)
  | sign (data : CkBuf) (out : Option CkBuf)
  | signUpdate (part : CkBuf)
  | signFinal (out : Option CkBuf)
  | verifyInit (mech : Option CkMechanism) (key : CkUlong)
  | verify (data sig : CkBuf)
  | verifyUpdate (part : CkBuf)
  | verifyFinal (sig : CkBuf)

inductive SessionCall
  | object (c : ObjectCall)
  | key (c : KeyCall)
  | crypto (c : CryptoCall)

/-- What `create_app_container` puts in place. -/
structure Boot where
  slots : CkUlong → Option (Option TokenCore)
  throttle : Option LoginThrottle
  publishing : Bool

inductive ApiCall
  | initModule (boot : Option Boot) (selfTestFails : Bool)
  | finalizeModule (reserved : Bool)
  | openSession (slotId flags : CkUlong)
  | closeSession (handle : CkUlong)
  | closeAllSessions (slotId : CkUlong)
  | login (handle userType : CkUlong) (pin : CkBuf)
  | logout (handle : CkUlong)
  | initToken (slotId : CkUlong) (pin : CkBuf)
  | initPIN (handle : CkUlong) (pin : CkBuf)
  | setPIN (handle : CkUlong) (old new : CkBuf)
  | onSession (env : Env) (session : CkUlong) (call : SessionCall)

namespace Hsm

section Steps

variable (be : Backend) (hsm : Hsm)

def objectCall (session : CkUlong) : ObjectCall → Except CkRv Effect
  | .createObject templ ph => hsm.cCreateObject session templ ph
  | .copyObject object templ ph => hsm.cCopyObject session object templ ph
  | .destroyObject object => hsm.cDestroyObject session object
  | .getObjectSize object pul => hsm.cGetObjectSize session object pul
  | .getAttributeValue object templ => hsm.cGetAttributeValue session object templ
  | .setAttributeValue object templ => hsm.cSetAttributeValue session object templ
  | .findObjectsInit templ => hsm.cFindObjectsInit session templ
  | .findObjects ph maxCount pul => hsm.cFindObjects session ph maxCount pul
  | .findObjectsFinal => hsm.cFindObjectsFinal session

def keyCall (env : Env) (session : CkUlong) : KeyCall → Except CkRv Effect
  | .generateKey mech templ ph => hsm.cGenerateKey be env.seed session mech templ ph
  | .generateKeyPair mech pubTempl privTempl phPub phPriv =>
    hsm.cGenerateKeyPair be env.seed session mech pubTempl privTempl phPub phPriv
  | .rotateKeypair old pubTempl privTempl phPub phPriv =>
    hsm.rotateKeypair be env.seed session old pubTempl privTempl phPub phPriv
  | .wrapKey mech wrappingKey key wrapped pul =>
    hsm.cWrapKey be env.seed session mech wrappingKey key wrapped pul
  | .unwrapKey mech unwrappingKey wrapped templ ph =>
    hsm.cUnwrapKey be session mech unwrappingKey wrapped templ ph
  | .deriveKey mech baseKey templ ph => hsm.cDeriveKey be session mech baseKey templ ph

def cryptoCall (env : Env) (session : CkUlong) : CryptoCall → Except CkRv Effect
  | .encryptInit mech key => hsm.cEncryptInit session mech key
  | .encrypt data out => hsm.cEncrypt be env session data out
  | .encryptUpdate part pul => hsm.cEncryptUpdate session part pul
  | .encryptFinal out => hsm.cEncryptFinal be env session out
  | .decryptInit mech key => hsm.cDecryptInit session mech key
  | .decrypt data out => hsm.cDecrypt be env session data out
  | .decryptUpdate part pul => hsm.cDecryptUpdate session part pul
  | .decryptFinal out => hsm.cDecryptFinal be env session out
  | .digestInit mech => hsm.cDigestInit session mech
  | .digest data out => hsm.cDigest be session data out
  | .digestUpdate part => hsm.cDigestUpdate session part
  | .digestKey key => hsm.cDigestKey session key
  | .digestFinal out => hsm.cDigestFinal be session out
  | .signInit mech key => hsm.cSignInit session mech key
  | .sign data out => hsm.cSign be env session data out
  | .signUpdate part => hsm.cSignUpdate session part
  | .signFinal out => hsm.cSignFinal be env session out
  | .verifyInit mech key => hsm.cVerifyInit session mech key
  | .verify data sig => hsm.cVerify be env session data sig
  | .verifyUpdate part => hsm.cVerifyUpdate session part
  | .verifyFinal sig => hsm.cVerifyFinal be env session sig

def sessionCall (env : Env) (session : CkUlong) : SessionCall → Except CkRv Effect
  | .object c => hsm.objectCall session c
  | .key c => hsm.keyCall be env session c
  | .crypto c => hsm.cryptoCall be env session c

/-- `C_Initialize`: the flag is set before the self-test, and stays set when the test fails.
Sessions of an earlier initialisation stay open. -/
def cInitialize (boot : Option Boot) (selfTestFails : Bool) : CkRv × Hsm :=
  if hsm.initialized then (.cryptokiAlreadyInitialized, hsm)
  else
    match boot with
    | none => (.generalError, { hsm with slots := fun _ => none, throttle := none, publishing := false })
    | some b =>
      (if selfTestFails then .generalError else .ok,
        { hsm with
          initialized := true, slots := b.slots, throttle := b.throttle
          publishing := b.publishing })

/-- `C_Finalize`: sessions and their objects stay. -/
def cFinalize (reserved : Bool) : CkRv × Hsm :=
  if hsm.initialized = false then (.cryptokiNotInitialized, hsm)
  else if reserved then (.argumentsBad, hsm)
  else
    (.ok, { hsm with
      initialized := false, slots := fun _ => none, throttle := none, publishing := false })

/-- One call of the application. -/
def api : ApiCall → Answer × Hsm
  | .initModule boot fails => let r := hsm.cInitialize boot fails; ({ rv := r.1 }, r.2)
  | .finalizeModule reserved => let r := hsm.cFinalize reserved; ({ rv := r.1 }, r.2)
  | .openSession slotId flags =>
    let r := hsm.cOpenSession slotId flags
    ({ rv := r.1.1, handles := r.1.2.toList }, r.2)
  | .closeSession handle => let r := hsm.cCloseSession handle; ({ rv := r.1 }, r.2)
  | .closeAllSessions slotId => let r := hsm.cCloseAllSessions slotId; ({ rv := r.1 }, r.2)
  | .login handle userType pin => let r := hsm.cLogin handle userType pin; ({ rv := r.1.rv }, r.2)
  | .logout handle => let r := hsm.cLogout handle; ({ rv := r.1 }, r.2)
  | .initToken slotId pin => let r := hsm.cInitToken slotId pin; ({ rv := r.1 }, r.2)
  | .initPIN handle pin => let r := hsm.cInitPIN handle pin; ({ rv := r.1 }, r.2)
  | .setPIN handle old new => let r := hsm.cSetPIN handle old new; ({ rv := r.1 }, r.2)
  | .onSession env session call => hsm.finish session (hsm.sessionCall be env session call)

/-- What a call does to the object store of a session. -/
def apiEdit (c : ApiCall) (h : CkUlong) : StoreEdit :=
  match c with
  | .onSession env session call =>
    match hsm.sessionCall be env session call with
    | .ok e => if session = h then e.edit else .keep
    | .error _ => .keep
  | _ => .keep

end Steps

/-- An initialised module with one slot, and one session on it under the handle 1. -/
def oneSession : Hsm :=
  (({ initialized := true, slots := fun i => if i = 0 then some none else none } : Hsm).cOpenSession
    0 ckfSerialSession).2

/-- The call closes the session. -/
def Closes (hsm : Hsm) (h : CkUlong) : ApiCall → Prop
  | .closeSession handle => handle = h
  | .closeAllSessions slotId => hsm.IsSessionOf slotId h
  | _ => False

/-! ### Stores of open sessions -/

variable {be : Backend} {hsm : Hsm} {h : CkUlong} {st : ObjectStore}

@[simp] theorem store_publish (e : P11Event) : (hsm.publish e).store h = hsm.store h := by
  rw [store, getSession_publish]
  rfl

theorem store_setSession {x : CkUlong} {s s' : Session} (hs : hsm.getSession x = some s)
    (hhandle : s'.handle = s.handle) (hstore : s'.objectStore = s.objectStore) :
    (hsm.setSession s').store h = hsm.store h := by
  have hx : s'.handle = x := hhandle.trans (SessionManager.handle_of_getSession hs)
  have hget : (hsm.setSession s').getSession h =
      if h = x then some s' else hsm.getSession h :=
    SessionManager.getSession_setSession hs hx h
  unfold store
  rw [hget]
  split_ifs with hh
  · rw [hh, hs, Option.map_some, Option.map_some, hstore]
  · rfl

theorem getSession_of_sessionToken {x : CkUlong} {s : Session} {t : TokenCore}
    (hst : hsm.sessionToken x = some (s, t)) : hsm.getSession x = some s := by
  unfold sessionToken at hst
  cases hs : hsm.getSession x with
  | none => simp [hs] at hst
  | some s' =>
    simp only [hs, Option.map_eq_some_iff, Prod.mk.injEq] at hst
    obtain ⟨t', -, rfl, -⟩ := hst
    rfl

theorem store_cLogin (x userType : CkUlong) (pin : CkBuf) :
    (hsm.cLogin x userType pin).2.store h = hsm.store h := by
  unfold cLogin
  split_ifs
  · rfl
  · rfl
  cases hst : hsm.sessionToken x with
  | none => rfl
  | some p =>
    obtain ⟨s, t⟩ := p
    have hs := getSession_of_sessionToken hst
    simp only
    split_ifs
    · refine (store_setSession hs (s.login_handle userType) ?_).trans rfl
      exact s.login_objectStore userType
    · exact (store_publish _).trans rfl
    · rfl

theorem store_cLogout (x : CkUlong) : (hsm.cLogout x).2.store h = hsm.store h := by
  unfold cLogout
  split_ifs
  · rfl
  cases hst : hsm.sessionToken x with
  | none => rfl
  | some p =>
    obtain ⟨s, t⟩ := p
    have hs := getSession_of_sessionToken hst
    simp only
    split_ifs
    · exact store_setSession hs s.logout_handle s.logout_objectStore
    · rfl

theorem store_cOpenSession (hst : hsm.store h = some st) (slotId flags : CkUlong) :
    (hsm.cOpenSession slotId flags).2.store h = some st := by
  unfold cOpenSession
  split_ifs
  · exact hst
  · exact hst
  obtain ⟨s, hs, rfl⟩ := Option.map_eq_some_iff.mp hst
  simp only [store, Hsm.getSession]
  rw [SessionManager.getSession_openSession hs]
  rfl

/-- A call that does not close the session does to its store what `apiEdit` says. -/
theorem store_api {c : ApiCall} (hopen : ¬ hsm.Closes h c) (hst : hsm.store h = some st) :
    (hsm.api be c).2.store h = some (st.edit (hsm.apiEdit be c h)) := by
  obtain ⟨s, hs, rfl⟩ := Option.map_eq_some_iff.mp hst
  cases c with
  | initModule | finalizeModule | initToken | initPIN | setPIN =>
    simp only [api, cInitialize, cFinalize, cInitToken, cInitPIN, cSetPIN]
    repeat' split
    all_goals exact hst
  | openSession slotId flags => exact store_cOpenSession hst slotId flags
  | closeSession x =>
    simp only [api, cCloseSession]
    split_ifs
    · exact hst
    · exact congrArg _ (SessionManager.getSession_closeSession hs (Ne.symm hopen))
  | closeAllSessions slotId =>
    simp only [api, cCloseAllSessions]
    split_ifs
    · exact hst
    · have hslot : s.slotId ≠ slotId := fun heq => hopen ⟨s, hs, heq⟩
      exact congrArg _ (SessionManager.getSession_closeAllSessions hs hslot)
  | login x userType pin => exact (store_cLogin x userType pin).trans hst
  | logout x => exact (store_cLogout x).trans hst

  | onSession env x call =>
    simp only [api, store_finish, apiEdit]
    cases hsm.sessionCall be env x call with
    | error rv => exact hst
    | ok e =>
      by_cases hx : x = h
      · subst hx
        simp only [if_true, hst, Option.map_some]
      · simp only [if_neg hx, if_neg (Ne.symm hx)]
        exact hst

/-- What every edit of a store preserves under a condition holds at the end of a run that meets
the condition and does not close the session. -/
theorem store_run {ok : Hsm → ApiCall → Prop} {inv : ObjectStore → Prop}
    (hstep : ∀ hsm c st, hsm.store h = some st → ok hsm c → inv st →
      inv (st.edit (hsm.apiEdit be c h)))
    {calls : List ApiCall}
    (hguard : CS.Guarded (api be) (fun hsm c => ¬ hsm.Closes h c ∧ ok hsm c) hsm calls)
    (hst : hsm.store h = some st) (hinv : inv st) :
    ∃ st', (CS.run (api be) hsm calls).store h = some st' ∧ inv st' := by
  have hkeep : ∀ (hsm : Hsm) (c : ApiCall), (∃ st, hsm.store h = some st ∧ inv st) →
      ¬ hsm.Closes h c ∧ ok hsm c → ∃ st, (hsm.api be c).2.store h = some st ∧ inv st := by
    rintro hsm c ⟨st, hst, hinv⟩ ⟨hopen, hok⟩
    exact ⟨_, store_api hopen hst, hstep hsm c st hst hok hinv⟩
  exact hguard.invariant hkeep ⟨st, hst, hinv⟩

end Hsm

end VirtualHsm
