import VirtualHsm.Pkcs11.CallEffect
import VirtualHsm.Pkcs11.SessionStep

/-!
# Private keys and the login

A private object should be used only by a session that is logged in. The session class has such a
check, in `initializeOperation`, but no entry point takes that way: `C_SignInit` and its companions
begin an operation with any key of the session, and `C_UnwrapKey` and `C_DeriveKey` use any key.
What does hold is that a logout ends the operation. So if operations are begun by sessions that are
logged in, they are also finished by such.
-/

namespace VirtualHsm

/-! ### Updates of a session -/

namespace SessionUpdate

/-- The update keeps the login state. -/
def KeepsLogin (u : SessionUpdate) : Prop := ∀ s, (u.run s).state = s.state

/-- The update keeps the login state and names no new key. -/
structure KeepsKey (u : SessionUpdate) : Prop where
  login : u.KeepsLogin
  key : ∀ s, (u.run s).signKey = s.signKey ∨ (u.run s).signKey = ckInvalidHandle

theorem keepsLogin_opBegin (mech key : CkUlong) : (opBegin mech key).KeepsLogin := by
  intro s
  simp only [opBegin, Session.opBegin]
  split_ifs <;> rfl

theorem keepsKey_opBegin (mech : CkUlong) : (opBegin mech ckInvalidHandle).KeepsKey := by
  refine ⟨keepsLogin_opBegin mech _, ?_⟩
  intro s
  simp only [opBegin, Session.opBegin]
  split_ifs
  · exact .inl rfl
  · exact .inr rfl

theorem OnlyOperation.keepsLogin {u : SessionUpdate} (hu : u.OnlyOperation) : u.KeepsLogin := by
  induction hu with
  | opBegin mech key => exact keepsLogin_opBegin mech key
  | andThen _ _ ihu ihv => exact fun s => (ihv _).trans (ihu s)
  | _ => exact fun _ => rfl

theorem keepsKey_opEnd : opEnd.KeepsKey := ⟨fun _ => rfl, fun _ => .inr rfl⟩

theorem keepsKey_opUpdate (data : CkBuf) : (opUpdate data).KeepsKey :=
  ⟨fun _ => rfl, fun _ => .inl rfl⟩

theorem OnlySearch.keepsKey {u : SessionUpdate} (hu : u.OnlySearch) : u.KeepsKey := by
  cases hu <;> exact ⟨fun _ => rfl, fun _ => .inl rfl⟩

theorem OnlySearch.activeMech {u : SessionUpdate} (hu : u.OnlySearch) (s : Session) :
    (u.run s).activeMech = s.activeMech := by
  cases hu <;> rfl

end SessionUpdate

/-- The call begins an operation with a key. -/
def SessionCall.BeginsWithKey : SessionCall → Prop
  | .crypto c =>
    match c with
    | .encryptInit .. | .decryptInit .. | .signInit .. | .verifyInit .. => True
    | _ => False
  | _ => False

namespace Hsm

variable {be : Backend} {env : Env} {hsm : Hsm} {h : CkUlong}

theorem keepsKey_cryptoCall {c : CryptoCall} (hc : ¬ (SessionCall.crypto c).BeginsWithKey) :
    Yields (fun e => e.update.KeepsKey) (hsm.cryptoCall be env h c) := by
  cases hinit : c.isInit with
  | false =>
    intro e hcall
    have he := continues_cryptoCall hinit e hcall
    unfold CryptoCall.Continues at he
    split_ifs at he
    · rw [he]
      exact SessionUpdate.keepsKey_opEnd
    · obtain ⟨data, hdata⟩ := he
      rw [hdata]
      exact SessionUpdate.keepsKey_opUpdate data
  | true =>
    cases c with
    | encryptInit | decryptInit | signInit | verifyInit => exact absurd trivial hc
    | digestInit mech =>
      apply yields_bind
      intro m _
      apply yields_bind
      intro _ _
      apply yields_bind
      intro u hu
      obtain rfl := opBegin_eq_ok u hu
      exact yields_ok (SessionUpdate.keepsKey_opBegin m.mechanism)
    | _ => cases hinit

theorem keepsKey_sessionCall {c : SessionCall} (hc : ¬ c.BeginsWithKey) :
    Yields (fun e => e.update.KeepsKey) (hsm.sessionCall be env h c) := by
  cases c with
  | object c => exact (onlySearch_objectCall c).imp fun _ he => he.keepsKey
  | key c => exact (onlySearch_keyCall c).imp fun _ he => he.keepsKey
  | crypto c => exact keepsKey_cryptoCall hc

theorem keepsLogin_sessionCall (c : SessionCall) :
    Yields (fun e => e.update.KeepsLogin) (hsm.sessionCall be env h c) := by
  cases c with
  | object c => exact (onlySearch_objectCall c).imp fun _ he => he.keepsKey.login
  | key c => exact (onlySearch_keyCall c).imp fun _ he => he.keepsKey.login
  | crypto c => exact (onlyOperation_cryptoCall c).imp fun _ he => he.keepsLogin

/-! ### Logins -/

end Hsm

/-- A successful `C_Login` on the session. -/
def LogsIn (be : Backend) (h : CkUlong) (hsm : Hsm) (c : ApiCall) : Prop :=
  (∃ userType pin, c = .login h userType pin) ∧ (hsm.api be c).1.rv = .ok

/-- A successful `C_Logout` on the session. -/
def LogsOut (be : Backend) (h : CkUlong) (hsm : Hsm) (c : ApiCall) : Prop :=
  c = .logout h ∧ (hsm.api be c).1.rv = .ok

/-- Handles may come round. Of two sessions with one handle the later one is out of reach, and not
logged in. -/
def FirstLoggedIn (m : SessionManager) : Prop :=
  m.sessions.Pairwise fun x y => x.handle = y.handle → y.isLoggedIn = false

namespace Session

variable {s : Session}

theorem isLoggedIn_congr {s' : Session} (h : s'.state = s.state) :
    s'.isLoggedIn = s.isLoggedIn := by
  rw [isLoggedIn, isLoggedIn, h]

theorem isLoggedIn_opened (handle slotId flags : CkUlong) :
    (opened handle slotId flags).isLoggedIn = false := by
  unfold opened
  by_cases h : isRw flags = true <;> simp [isLoggedIn, h]

theorem login_cases (userType : CkUlong) :
    (s.login userType).2 = s ∨
      (s.login userType).1 = .ok ∧ (s.login userType).2.isLoggedIn = true ∧
        (s.login userType).2.signKey = s.signKey := by
  unfold login
  split_ifs
  · exact .inl rfl
  · exact .inl rfl
  all_goals exact .inr ⟨rfl, rfl, rfl⟩

theorem isLoggedIn_logout : s.logout.2.opEnd.clearFindResults.isLoggedIn = false := by
  unfold logout
  by_cases hlogin : s.isLoggedIn = false
  · rw [if_pos hlogin]
    exact hlogin
  · rw [if_neg hlogin]
    by_cases h : isRw s.flags = true <;> simp [isLoggedIn, opEnd, clearFindResults, h]

end Session

section Login

variable {be : Backend} {hsm : Hsm} {c : ApiCall} {m : SessionManager}

theorem FirstLoggedIn.step (h : FirstLoggedIn hsm.manager) (hstep : SessionsStep be hsm c m) :
    FirstLoggedIn m :=
  hstep.pairwise_handle Session.isLoggedIn_opened h

/-- Every session that is logged in has had a login, and no logout since. -/
def LoginsKnown (be : Backend) (calls : List ApiCall) (m : SessionManager) : Prop :=
  ∀ s ∈ m.sessions, s.isLoggedIn = true →
    CS.Since (Hsm.api be) (LogsIn be s.handle) (LogsOut be s.handle) {} calls

theorem LoginsKnown.step {calls : List ApiCall}
    (hfirst : FirstLoggedIn (CS.run (Hsm.api be) {} calls).manager)
    (h : LoginsKnown be calls (CS.run (Hsm.api be) {} calls).manager)
    (hstep : SessionsStep be (CS.run (Hsm.api be) {} calls) c m) :
    LoginsKnown be (calls ++ [c]) m := by
  intro x hx hlogin
  have hm : FirstLoggedIn m := hfirst.step hstep
  cases hstep with
  | closed m hsub hnext hopen hlogout =>
    apply (h x (hsub.subset hx) hlogin).append
    intro hout
    exact hlogout x.handle hout.1 hout.2
  | opened slotId flags hc hanswer =>
    rcases List.mem_append.mp hx with hold | hnew
    · apply (h x hold hlogin).append
      intro hout
      cases hc.symm.trans hout.1
    · rw [List.mem_singleton.mp hnew, Session.isLoggedIn_opened] at hlogin
      cases hlogin
  | login k userType pin s hc hs hrv =>
    have hkeep (hold : x ∈ (CS.run (Hsm.api be) {} calls).manager.sessions) :
        CS.Since (Hsm.api be) (LogsIn be x.handle) (LogsOut be x.handle) {} (calls ++ [c]) := by
      apply (h x hold hlogin).append
      intro hout
      cases hc.symm.trans hout.1
    rcases SessionManager.mem_setSession hx with hwritten | hold
    · have hk : x.handle = k := by
        rw [hwritten, s.login_handle]
        exact SessionManager.handle_of_getSession hs
      -- A refused login writes the session back as it was; an accepted one is the last login.
      rcases s.login_cases userType with hsame | ⟨hok, -, -⟩
      · rw [hsame] at hwritten
        exact hkeep (hwritten ▸ SessionManager.mem_of_getSession hs)
      · apply CS.since_last
        exact ⟨⟨userType, pin, hk ▸ hc⟩, hrv.trans hok⟩
    · exact hkeep hold
  | logout k s hc hs =>
    have hhandle := SessionManager.handle_logout hs
    have hwritten := SessionManager.getSession_setSession hs hhandle k
    rw [if_pos rfl] at hwritten
    by_cases hk : x.handle = k
    · -- The session that was logged out is the first with its handle.
      rcases SessionManager.eq_or_rel_of_getSession hm hwritten hx hk with rfl | hlater
      · rw [Session.isLoggedIn_logout] at hlogin
        cases hlogin
      · rw [hlater (hhandle.trans hk.symm)] at hlogin
        cases hlogin
    · rcases SessionManager.mem_setSession hx with rfl | hold
      · exact absurd hhandle hk
      · apply (h x hold hlogin).append
        intro hout
        exact hk (ApiCall.logout.inj (hout.1.symm.trans hc))
  | called env k call e s hc hcall hs =>
    have hnot : ¬ LogsOut be x.handle (CS.run (Hsm.api be) {} calls) c := by
      intro hout
      cases hc.symm.trans hout.1
    rcases SessionManager.mem_setSession hx with rfl | hold
    · have hstate : (e.after s).isLoggedIn = s.isLoggedIn :=
        Session.isLoggedIn_congr (Hsm.keepsLogin_sessionCall call e hcall s)
      have hold := h s (SessionManager.mem_of_getSession hs) (hstate ▸ hlogin)
      rw [← e.after_handle s] at hold
      exact hold.append hnot
    · exact (h x hold hlogin).append hnot

/-- In every run, a session in a user or SO state has had a login and no logout since. -/
theorem Hsm.since_login (be : Backend) (calls : List ApiCall) :
    LoginsKnown be calls (CS.run (Hsm.api be) {} calls).manager := by
  have hboth : FirstLoggedIn (CS.run (Hsm.api be) {} calls).manager ∧
      LoginsKnown be calls (CS.run (Hsm.api be) {} calls).manager := by
    refine CS.run_history (fun done (hsm : Hsm) =>
      FirstLoggedIn hsm.manager ∧ LoginsKnown be done hsm.manager) ?_ ?_ calls
    · intro done c hdone
      have hstep := Hsm.sessionsStep be (CS.run (Hsm.api be) {} done) c
      exact ⟨hdone.1.step hstep, .step hdone.1 hdone.2 hstep⟩
    · exact ⟨List.Pairwise.nil, fun s hs => by cases hs⟩
  exact hboth.2

end Login

/-! ### The gate -/

/-- The object that the call signs, decrypts, unwraps or derives with. -/
def usedObject (hsm : Hsm) (h : CkUlong) : SessionCall → Option HsmObject
  | .crypto c =>
    match c with
    | .sign .. | .signFinal .. | .decrypt .. | .decryptFinal .. =>
      (hsm.getSession h).bind (·.opObject)
    | _ => none
  | .key c =>
    match c with
    | .unwrapKey _ k .. | .deriveKey _ k .. => hsm.getObject h k
    | _ => none
  | .object _ => none

/-- If the call succeeds with a private object, then the session is in a user or SO state: there
was a login on it and no logout since. -/
def LoggedInUse (be : Backend) (calls : List ApiCall) (env : Env) (h : CkUlong)
    (call : SessionCall) : Prop :=
  (Hsm.api be (CS.run (Hsm.api be) {} calls) (.onSession env h call)).1.rv = .ok →
    ∀ o, usedObject (CS.run (Hsm.api be) {} calls) h call = some o → o.priv = true →
      (∃ s, (CS.run (Hsm.api be) {} calls).getSession h = some s ∧ s.isLoggedIn = true) ∧
        CS.Since (Hsm.api be) (LogsIn be h) (LogsOut be h) {} calls

/-- A session that begins an operation with a key is logged in, and so is one that unwraps or
derives with a private object. An operation without a key, which is one that `C_DigestInit` has
begun, is not ended by signing or decrypting unless the session is logged in. -/
def LoginFirst (hsm : Hsm) : ApiCall → Prop
  | .onSession _ h (.crypto c) =>
    match c with
    | .encryptInit .. | .decryptInit .. | .signInit .. | .verifyInit .. =>
      ∀ s, hsm.getSession h = some s → s.isLoggedIn = true
    | .sign .. | .signFinal .. | .decrypt .. | .decryptFinal .. =>
      ∀ s, hsm.getSession h = some s → s.signKey = ckInvalidHandle → s.isLoggedIn = true
    | _ => True
  | .onSession _ h (.key c) =>
    match c with
    | .unwrapKey _ k .. | .deriveKey _ k .. =>
      ∀ s o, hsm.getSession h = some s → hsm.getObject h k = some o → o.priv = true →
        s.isLoggedIn = true
    | _ => True
  | _ => True

/-- An operation with a key belongs to a session that is logged in. -/
def OpKeyed (m : SessionManager) : Prop :=
  ∀ s ∈ m.sessions, s.signKey ≠ ckInvalidHandle → s.isLoggedIn = true

section Gate

variable {be : Backend} {hsm : Hsm} {c : ApiCall} {m : SessionManager}

theorem OpKeyed.setSession {s' : Session} (h : OpKeyed hsm.manager)
    (hs' : s'.signKey ≠ ckInvalidHandle → s'.isLoggedIn = true) :
    OpKeyed (hsm.manager.setSession s') := by
  intro x hx
  rcases SessionManager.mem_setSession hx with rfl | hold
  · exact hs'
  · exact h x hold

theorem loginFirst_of_beginsWithKey {env : Env} {k : CkUlong} {call : SessionCall}
    (hok : LoginFirst hsm (.onSession env k call)) (hbegins : call.BeginsWithKey) {s : Session}
    (hs : hsm.getSession k = some s) : s.isLoggedIn = true := by
  cases call with
  | object c => exact hbegins.elim
  | key c => exact hbegins.elim
  | crypto c =>
    cases c with
    | encryptInit | decryptInit | signInit | verifyInit => exact hok s hs
    | _ => exact hbegins.elim

theorem OpKeyed.step (h : OpKeyed hsm.manager) (hok : LoginFirst hsm c)
    (hstep : SessionsStep be hsm c m) : OpKeyed m := by
  cases hstep with
  | closed m hsub hnext hopen hlogout =>
    intro x hx
    exact h x (hsub.subset hx)
  | opened slotId flags hc hanswer =>
    intro x hx hkey
    rcases List.mem_append.mp hx with hold | hnew
    · exact h x hold hkey
    · rw [List.mem_singleton.mp hnew] at hkey
      exact absurd rfl hkey
  | login k userType pin s hc hs hrv =>
    apply h.setSession
    intro hkey
    rcases s.login_cases userType with hsame | ⟨-, hlogin, -⟩
    · rw [hsame] at hkey ⊢
      exact h s (SessionManager.mem_of_getSession hs) hkey
    · exact hlogin
  | logout k s hc hs =>
    apply h.setSession
    intro hkey
    -- A logout ends the operation.
    exact absurd rfl hkey
  | called env k call e s hc hcall hs =>
    subst hc
    have hstate : (e.after s).isLoggedIn = s.isLoggedIn :=
      Session.isLoggedIn_congr (Hsm.keepsLogin_sessionCall call e hcall s)
    apply h.setSession
    intro hkey
    rw [hstate]
    by_cases hbegins : call.BeginsWithKey
    · exact loginFirst_of_beginsWithKey hok hbegins hs
    · rcases (Hsm.keepsKey_sessionCall hbegins e hcall).key s with hsame | hnone
      · have hold : s.signKey ≠ ckInvalidHandle := fun heq => hkey (hsame.trans heq)
        exact h s (SessionManager.mem_of_getSession hs) hold
      · exact absurd hnone hkey

theorem Hsm.opKeyed_run {calls : List ApiCall}
    (hcalls : CS.Guarded (Hsm.api be) LoginFirst {} calls) :
    OpKeyed (CS.run (Hsm.api be) {} calls).manager := by
  refine @CS.Guarded.invariant _ _ _ (Hsm.api be) {} calls LoginFirst
    (fun hsm => OpKeyed hsm.manager) ?_ hcalls ?_
  · intro hsm c h hok
    exact h.step hok (hsm.sessionsStep be c)
  · exact nofun

/-- The session of an object that a call uses is logged in. -/
theorem isLoggedIn_of_used (h : OpKeyed hsm.manager) {env : Env} {k : CkUlong} {call : SessionCall}
    (hok : LoginFirst hsm (.onSession env k call)) {o : HsmObject}
    (ho : usedObject hsm k call = some o) (hpriv : o.priv = true) :
    ∃ s, hsm.getSession k = some s ∧ s.isLoggedIn = true := by
  -- The key of an operation, and the object of a call that names it.
  have hop (hfound : (hsm.getSession k).bind (·.opObject) = some o)
      (hnone : ∀ s, hsm.getSession k = some s → s.signKey = ckInvalidHandle →
        s.isLoggedIn = true) : ∃ s, hsm.getSession k = some s ∧ s.isLoggedIn = true := by
    obtain ⟨s, hs, -⟩ := Option.bind_eq_some_iff.mp hfound
    refine ⟨s, hs, ?_⟩
    by_cases hkey : s.signKey = ckInvalidHandle
    · exact hnone s hs hkey
    · exact h s (SessionManager.mem_of_getSession hs) hkey
  have hnamed {x : CkUlong} (hfound : hsm.getObject k x = some o)
      (hlogin : ∀ s o, hsm.getSession k = some s → hsm.getObject k x = some o → o.priv = true →
        s.isLoggedIn = true) : ∃ s, hsm.getSession k = some s ∧ s.isLoggedIn = true := by
    obtain ⟨st, hst, -⟩ := Option.bind_eq_some_iff.mp hfound
    obtain ⟨s, hs, -⟩ := Option.map_eq_some_iff.mp hst
    exact ⟨s, hs, hlogin s o hs hfound hpriv⟩
  cases call with
  | object c => cases ho
  | crypto c =>
    cases c with
    | sign | signFinal | decrypt | decryptFinal => exact hop ho hok
    | _ => cases ho
  | key c =>
    cases c with
    | unwrapKey | deriveKey => exact hnamed ho hok
    | _ => cases ho

end Gate

/-- In a run whose calls meet the condition, private objects are used by sessions that are logged
in. -/
theorem loggedInUse_of_loginFirst (be : Backend) {calls : List ApiCall} {env : Env} {h : CkUlong}
    {call : SessionCall}
    (hcalls : CS.Guarded (Hsm.api be) LoginFirst {} (calls ++ [.onSession env h call])) :
    LoggedInUse be calls env h call := by
  intro _ o ho hpriv
  obtain ⟨hbefore, hlast⟩ := CS.guarded_append.mp hcalls
  obtain ⟨s, hs, hlogin⟩ := isLoggedIn_of_used (Hsm.opKeyed_run hbefore) hlast.1 ho hpriv
  have hsince := Hsm.since_login be calls s (SessionManager.mem_of_getSession hs) hlogin
  rw [SessionManager.handle_of_getSession hs] at hsince
  exact ⟨⟨s, hs, hlogin⟩, hsince⟩

/-! ### A private secret key -/

/-- A token with a user PIN. -/
def pinToken : TokenCore :=
  CS.run TokenCore.call (TokenCore.fresh [116] [48]) [.initializeUserPin (.data [49, 50, 51, 52])]

/-- A session is opened. -/
def publicSession : List ApiCall :=
  [.initModule (some ⟨fun i => if i = 0 then some (some pinToken) else none, none, false⟩) false,
   .openSession 0 ckfSerialSession]

/-- A private secret key is stored and a decryption with it begun. -/
def beginDecryption : List ApiCall :=
  [.onSession {} 1 (.object (.createObject
     [⟨ckaClass, .data (ulongBytes ckoSecretKey)⟩, ⟨ckaPrivate, .data [ckTrue]⟩,
      ⟨ckaValue, .data (List.replicate 32 1)⟩] true)),
   .onSession {} 1 (.crypto (.decryptInit (some ⟨ckmAesGcm, .gcm (.data [0]) (.null 0)⟩) 1))]

/-- The decryption of a text that is a tag only. -/
def decryptTag : SessionCall :=
  .crypto (.decrypt (.data (List.replicate 16 0)) (some (.data [])))

/-- A login comes first. -/
def loginFirst : List ApiCall :=
  publicSession ++ [.login 1 ckuUser (.data [49, 50, 51, 52])] ++ beginDecryption

theorem loggedInUse_login :
    LoggedInUse .toy loginFirst {} 1 decryptTag ∧
      (Hsm.api .toy (CS.run (Hsm.api .toy) {} loginFirst) (.onSession {} 1 decryptTag)).1.rv =
        .ok := by
  -- The session is logged in when the decryption begins and when it ends.
  have hlogin {hsm : Hsm} (hall : (hsm.getSession 1).all Session.isLoggedIn = true) (s : Session)
      (hs : hsm.getSession 1 = some s) : s.isLoggedIn = true := by
    rwa [hs, Option.all_some] at hall
  refine ⟨loggedInUse_of_loginFirst .toy ?_, by decide +kernel⟩
  refine ⟨trivial, trivial, trivial, trivial, ?_, ?_, trivial⟩
  · exact hlogin (by decide +kernel)
  · intro s hs _
    exact hlogin (by decide +kernel) s hs

/-- Without a login the decryption succeeds too. -/
theorem not_loggedInUse_public :
    ¬ LoggedInUse .toy (publicSession ++ beginDecryption) {} 1 decryptTag := by
  intro h
  obtain ⟨⟨s, hs, hlogin⟩, -⟩ := h (by decide +kernel) _ rfl rfl
  cases hs
  cases hlogin

end VirtualHsm
