import VirtualHsm.Pkcs11.SessionStep

/-!
# Sessions after finalisation

`C_Finalize` should end all sessions. It drops the slots and the flag, but the sessions live in a
manager of their own, which it does not touch: a session that is open at that moment stays open,
with its objects, its login and its operation, and can be used further, in part even before the
next `C_Initialize`. If the application has closed its sessions itself, their handles stay
invalid, as long as the counter of handles does not come round.
-/

namespace VirtualHsm

/-! ### The remaining calls on a handle -/

/-- What `C_GetSessionInfo` reports. -/
structure SessionInfo where
  slotId : CkUlong
  flags : CkUlong
  state : SessionState
  deriving DecidableEq, Repr

/-- The state is derived from the user type and the flags. -/
def Session.info (s : Session) : SessionInfo where
  slotId := s.slotId
  flags := s.flags
  state :=
    if s.userType = ckuUser then if isRw s.flags then .rwUserFunctions else .roUserFunctions
    else if s.userType = ckuSo then if isRw s.flags then .rwSoFunctions else .roSoFunctions
    else if isRw s.flags then .rwPublicSession else .roPublicSession

/-- `C_GetSessionInfo`; the module need not be initialised. -/
def Hsm.cGetSessionInfo (hsm : Hsm) (handle : CkUlong) (pInfo : Bool) :
    CkRv × Option SessionInfo :=
  if pInfo = false then (.argumentsBad, none)
  else
    match hsm.getSession handle with
    | none => (.sessionHandleInvalid, none)
    | some s => (.ok, some s.info)

/-- `C_SeedRandom`: neither the session nor the seed is looked at. -/
def cSeedRandom (_session : CkUlong) (seed : CkBuf) : CkRv :=
  if seed.missing then .argumentsBad else .ok

/-- `C_GenerateRandom`: the session is not looked at. -/
def cGenerateRandom (be : Backend) (seed : Nat) (_session : CkUlong) (data : Bool) (len : Nat) :
    Answer :=
  if data = false then { rv := .argumentsBad }
  else if len = 0 then { rv := .ok }
  else
    match be.randomBytes seed len with
    | none => { rv := .generalError }
    | some bytes => { rv := .ok, out := bytes }

/-- The calls that take a session handle. -/
inductive HandleCall
  | closeSession
  | login (userType : CkUlong) (pin : CkBuf)
  | logout
  | initPIN (pin : CkBuf)
  | setPIN (old new : CkBuf)
  | onSession (env : Env) (call : SessionCall)
  | getSessionInfo (pInfo : Bool)
  | seedRandom (seed : CkBuf)
  | generateRandom (seed : Nat) (data : Bool) (len : Nat)

namespace HandleCall

def rv (be : Backend) (hsm : Hsm) (h : CkUlong) : HandleCall → CkRv
  | .closeSession => (hsm.api be (.closeSession h)).1.rv
  | .login userType pin => (hsm.api be (.login h userType pin)).1.rv
  | .logout => (hsm.api be (.logout h)).1.rv
  | .initPIN pin => (hsm.api be (.initPIN h pin)).1.rv
  | .setPIN old new => (hsm.api be (.setPIN h old new)).1.rv
  | .onSession env call => (hsm.api be (.onSession env h call)).1.rv
  | .getSessionInfo pInfo => (hsm.cGetSessionInfo h pInfo).1
  | .seedRandom seed => cSeedRandom h seed
  | .generateRandom seed data len => (cGenerateRandom be seed h data len).rv

/-- The call looks at the session. -/
def LooksUp : HandleCall → Prop
  | .seedRandom .. | .generateRandom .. => False
  | _ => True

end HandleCall

/-! ### Calls without a session -/

theorem refused_of_none {α β : Type} {x : Option α} {rv : CkRv} (hx : x = none) (hrv : rv ≠ .ok)
    (f : α → Except CkRv β) : Refused (orRefuse x rv >>= f) := by
  subst hx
  exact hrv

theorem refused_orRefuse_bind {α β : Type} {x : Option α} {rv : CkRv} {f : α → Except CkRv β}
    (hrv : rv ≠ .ok) (hf : ∀ a, Refused (f a)) : Refused (orRefuse x rv >>= f) :=
  fails_orRefuse_bind hrv fun a _ => hf a

theorem Refused.fails {β : Type} {r : Except CkRv β} {bad : β → Prop} (hr : Refused r) :
    Fails bad r := by
  cases r with
  | error rv => exact hr
  | ok b => exact hr.elim

section NoSession

variable {be : Backend} {env : Env} {hsm : Hsm} {h : CkUlong} (hs : hsm.getSession h = none)
include hs

theorem Hsm.store_of_none : hsm.store h = none := by
  rw [store, hs, Option.map_none]

theorem Hsm.getObject_of_none (k : CkUlong) : hsm.getObject h k = none := by
  rw [getObject, store_of_none hs, Option.bind_none]

theorem Hsm.sessionToken_of_none : hsm.sessionToken h = none := by
  rw [sessionToken, hs]

theorem Hsm.refused_opSession_bind {β : Type} (f : Session → Except CkRv β) :
    Refused (hsm.opSession h >>= f) := by
  apply refused_of_none _ (by decide)
  rw [hs, Option.filter_none]

theorem Hsm.refused_objectCall (c : ObjectCall) : Refused (hsm.objectCall h c) := by
  cases c <;> simp only [objectCall, cCreateObject, cCopyObject, cDestroyObject, cGetObjectSize,
    cGetAttributeValue, cSetAttributeValue, cFindObjectsInit, cFindObjects, cFindObjectsFinal,
    checkInitialized, hs, store_of_none hs, getObject_of_none hs]
  all_goals repeat first
    | exact refused_of_none rfl (by decide) _
    | refine fails_check (by decide) ?_

theorem Hsm.refused_keyCall (c : KeyCall) : Refused (hsm.keyCall be env h c) := by
  have hstore := store_of_none hs
  -- The store is looked up after the checks that need none.
  cases c <;> simp only [keyCall, cGenerateKey, cGenerateKeyPair, generateAndStoreKeypair,
    rotateKeypair, cWrapKey, cUnwrapKey, cDeriveKey, checkInitialized, hstore]
  all_goals repeat first
    | exact refused_of_none rfl (by decide) _
    | refine fails_check (by decide) ?_
    | refine refused_orRefuse_bind (by decide) fun m => ?_

theorem Hsm.refused_opBegin (mech key : CkUlong) (needKey : Bool) :
    Refused (hsm.opBegin h mech key needKey) := by
  apply fails_check (by decide)
  apply fails_check (by decide)
  exact refused_of_none hs (by decide) _

theorem Hsm.refused_cipherInit (mech : Option CkMechanism) (key : CkUlong) :
    Refused (hsm.cipherInit h mech key) := by
  apply refused_orRefuse_bind (by decide)
  intro m
  apply fails_check (by decide)
  exact (refused_opBegin hs m.mechanism key true).bind

theorem Hsm.refused_plainInit (supported : CkUlong → Bool) (mech : Option CkMechanism)
    (key : CkUlong) (needKey : Bool) : Refused (hsm.plainInit supported h mech key needKey) := by
  apply refused_orRefuse_bind (by decide)
  intro m
  apply fails_check (by decide)
  exact (refused_opBegin hs m.mechanism key needKey).bind

theorem Hsm.refused_cryptoCall (c : CryptoCall) : Refused (hsm.cryptoCall be env h c) := by
  cases c with
  | encryptInit mech key | decryptInit mech key => exact refused_cipherInit hs mech key
  | digestInit mech => exact refused_plainInit hs _ mech _ _
  | signInit mech key | verifyInit mech key =>
    exact refused_plainInit hs (fun m => isRsaMech m || isEcMech m) mech key true
  | _ => exact refused_opSession_bind hs _

theorem Hsm.refused_sessionCall (c : SessionCall) : Refused (hsm.sessionCall be env h c) := by
  cases c with
  | object c => exact refused_objectCall hs c
  | key c => exact refused_keyCall hs c
  | crypto c => exact refused_cryptoCall hs c

theorem HandleCall.rv_ne_ok {c : HandleCall} (hc : c.LooksUp) : c.rv be hsm h ≠ .ok := by
  have htoken := Hsm.sessionToken_of_none hs
  cases c with
  | closeSession =>
    have hnone : hsm.manager.getSession h = none := hs
    cases hinit : hsm.initialized <;>
      simp [rv, Hsm.api, Hsm.cCloseSession, SessionManager.closeSession, hnone, hinit]
  | login userType pin =>
    simp only [rv, Hsm.api, Hsm.cLogin, htoken]
    split_ifs <;> simp
  | logout =>
    simp only [rv, Hsm.api, Hsm.cLogout, htoken]
    split_ifs <;> simp
  | initPIN pin => simp [rv, Hsm.api, Hsm.cInitPIN, htoken]
  | setPIN old new => simp [rv, Hsm.api, Hsm.cSetPIN, htoken]
  | onSession env call => exact Hsm.finish_rv_ne (Hsm.refused_sessionCall hs call).fails h
  | getSessionInfo pInfo =>
    simp only [rv, Hsm.cGetSessionInfo, hs]
    split_ifs <;> simp
  | seedRandom seed => exact hc.elim
  | generateRandom seed data len => exact hc.elim

end NoSession

/-! ### Numbering -/

/-- The call opens a session. -/
def ApiCall.isOpen : ApiCall → Bool
  | .openSession .. => true
  | _ => false

/-- How many of the calls open a session. -/
def opens (calls : List ApiCall) : Nat := calls.countP ApiCall.isOpen

/-- The call returns the session handle. -/
def Issues (be : Backend) (h : CkUlong) (hsm : Hsm) (c : ApiCall) : Prop :=
  c.isOpen = true ∧ h ∈ (hsm.api be c).1.handles

section Numbering

variable {be : Backend} {hsm : Hsm} {c : ApiCall} {m : SessionManager} {lo n : Nat}

/-- A call issues no handle, or the next one. -/
theorem SessionsStep.numbering (h : SessionsStep be hsm c m) :
    (m.nextSessionId = hsm.manager.nextSessionId ∧
      (∀ x ∈ m.sessions, ∃ s ∈ hsm.manager.sessions, s.handle = x.handle) ∧
      ∀ k, ¬ Issues be k hsm c) ∨
    (c.isOpen = true ∧ m.nextSessionId = hsm.manager.nextHandle + 1 ∧
      (∀ x ∈ m.sessions, x ∈ hsm.manager.sessions ∨ x.handle = hsm.manager.nextHandle) ∧
      ∀ k, Issues be k hsm c ↔ k = hsm.manager.nextHandle) := by
  -- A session that is written back keeps its handle.
  have hwrite {k : CkUlong} {s s' : Session} (hs : hsm.getSession k = some s)
      (hhandle : s'.handle = s.handle) :
      ∀ x ∈ (hsm.manager.setSession s').sessions, ∃ s ∈ hsm.manager.sessions,
        s.handle = x.handle := by
    intro x hx
    rcases SessionManager.mem_setSession hx with rfl | hold
    · exact ⟨s, SessionManager.mem_of_getSession hs, hhandle.symm⟩
    · exact ⟨x, hold, rfl⟩
  cases h with
  | closed m hsub hnext hopen hlogout =>
    refine .inl ⟨hnext, fun x hx => ⟨x, hsub.subset hx, rfl⟩, ?_⟩
    intro k hk
    cases c with
    | openSession slotId flags =>
      have hmem := hk.2
      rw [hopen slotId flags rfl] at hmem
      cases hmem
    | _ => cases hk.1
  | opened slotId flags hc hanswer =>
    subst hc
    refine .inr ⟨rfl, rfl, ?_, ?_⟩
    · intro x hx
      rcases List.mem_append.mp hx with hold | hnew
      · exact .inl hold
      · rw [List.mem_singleton.mp hnew]
        exact .inr rfl
    · intro k
      rw [Issues, hanswer, List.mem_singleton]
      exact and_iff_right rfl
  | login k userType pin s hc hs hrv =>
    subst hc
    exact .inl ⟨rfl, hwrite hs (s.login_handle userType), fun k hk => by cases hk.1⟩
  | logout k s hc hs =>
    subst hc
    exact .inl ⟨rfl, hwrite hs s.logout_handle, fun k hk => by cases hk.1⟩
  | called env k call e s hc hcall hs =>
    subst hc
    exact .inl ⟨rfl, hwrite hs (e.after_handle s), fun k hk => by cases hk.1⟩

/-- The handles up to `n` have been issued, and the open sessions have numbers above `lo`. -/
structure Numbered (lo n : Nat) (m : SessionManager) : Prop where
  next : m.nextSessionId = UInt64.ofNat (n + 1)
  above : ∀ s ∈ m.sessions, lo < s.handle.toNat ∧ s.handle.toNat ≤ n

theorem Numbered.nextHandle (h : Numbered lo n m) (hn : n + 1 < 2 ^ 64) :
    m.nextHandle.toNat = n + 1 ∧ m.nextHandle + 1 = UInt64.ofNat (n + 2) := by
  have hnum : (UInt64.ofNat (n + 1)).toNat = n + 1 := UInt64.toNat_ofNat_of_lt hn
  have hne : m.nextSessionId ≠ 0 := by
    rw [h.next]
    intro hzero
    rw [hzero] at hnum
    simp at hnum
  rw [SessionManager.nextHandle, if_neg hne, h.next]
  refine ⟨hnum, ?_⟩
  apply UInt64.toNat_inj.mp
  simp [UInt64.toNat_add, UInt64.toNat_ofNat]

/-- One call. -/
theorem Numbered.api (be : Backend) (h : Numbered lo n hsm.manager) (hlo : lo ≤ n)
    (hn : c.isOpen = true → n + 1 < 2 ^ 64) :
    ∃ n', n ≤ n' ∧ n' ≤ n + opens [c] ∧ Numbered lo n' (hsm.api be c).2.manager ∧
      ∀ k, Issues be k hsm c → k.toNat ≤ n' := by
  rcases (hsm.sessionsStep be c).numbering with ⟨hnext, hsub, hissue⟩ | ⟨hopen, hnext, hsub, hissue⟩
  · refine ⟨n, le_rfl, Nat.le_add_right .., ⟨hnext.trans h.next, ?_⟩, ?_⟩
    · intro x hx
      obtain ⟨s, hs, heq⟩ := hsub x hx
      exact heq ▸ h.above s hs
    · intro k hk
      exact absurd hk (hissue k)
  · obtain ⟨hnum, hsucc⟩ := h.nextHandle (hn hopen)
    have hcount : opens [c] = 1 := by simp [opens, hopen]
    refine ⟨n + 1, Nat.le_succ n, hcount ▸ le_rfl, ⟨hnext.trans hsucc, ?_⟩, ?_⟩
    · intro x hx
      rcases hsub x hx with hold | hnew
      · obtain ⟨hlow, hhigh⟩ := h.above x hold
        exact ⟨hlow, Nat.le_succ_of_le hhigh⟩
      · rw [hnew, hnum]
        exact ⟨Nat.lt_succ_of_le hlo, le_rfl⟩
    · intro k hk
      rw [(hissue k).mp hk, hnum]

/-- A run. -/
theorem Numbered.run (be : Backend) {calls : List ApiCall} (h : Numbered lo n hsm.manager)
    (hlo : lo ≤ n) (hcalls : n + opens calls < 2 ^ 64) :
    ∃ n', n ≤ n' ∧ n' ≤ n + opens calls ∧
      Numbered lo n' (CS.run (Hsm.api be) hsm calls).manager ∧
      ∀ k, CS.Occurs (Hsm.api be) (Issues be k) hsm calls → k.toNat ≤ n' := by
  induction calls generalizing hsm n with
  | nil => exact ⟨n, le_rfl, le_rfl, h, fun k hk => hk.elim⟩
  | cons c calls ih =>
    have hcons : opens (c :: calls) = opens [c] + opens calls := by
      rw [opens, ← List.singleton_append, List.countP_append]
      rfl
    rw [hcons] at hcalls ⊢
    have hn : c.isOpen = true → n + 1 < 2 ^ 64 := by
      intro hopen
      have hone : opens [c] = 1 := by simp [opens, hopen]
      omega
    obtain ⟨n₁, hle₁, hbound₁, hstep, hissue₁⟩ := h.api be hlo hn
    obtain ⟨n₂, hle₂, hbound₂, hrun, hissue₂⟩ := ih hstep (hlo.trans hle₁) (by omega)
    refine ⟨n₂, hle₁.trans hle₂, by omega, hrun, ?_⟩
    intro k hk
    rcases hk with hfirst | hrest
    · exact (hissue₁ k hfirst).trans hle₂
    · exact hissue₂ k hrest

theorem issued_of_mem (be : Backend) (calls : List ApiCall) :
    ∀ s ∈ (CS.run (Hsm.api be) {} calls).manager.sessions,
      CS.Occurs (Hsm.api be) (Issues be s.handle) {} calls := by
  refine CS.run_history (fun done (hsm : Hsm) =>
    ∀ s ∈ hsm.manager.sessions, CS.Occurs (Hsm.api be) (Issues be s.handle) {} done) ?_ ?_ calls
  · intro done c h x hx
    rcases (Hsm.sessionsStep be (CS.run (Hsm.api be) {} done) c).numbering with
      ⟨-, hsub, -⟩ | ⟨-, -, hsub, hissue⟩
    · obtain ⟨s, hs, heq⟩ := hsub x hx
      exact heq ▸ (h s hs).append_right [c]
    · rcases hsub x hx with hold | hnew
      · exact (h x hold).append_right [c]
      · exact CS.occurs_last ((hissue _).mpr hnew)
  · exact nofun

end Numbering

/-! ### The end of all sessions -/

/-- The module after a run of calls and a `C_Finalize`. -/
def finalized (be : Backend) (before : List ApiCall) : Hsm :=
  (Hsm.api be (CS.run (Hsm.api be) {} before) (.finalizeModule false)).2

/-- After the finalisation and some more calls, the call on a handle that was issued before does
not succeed, and all answers are as if there had been no sessions. -/
structure Ended (be : Backend) (before after : List ApiCall) (c : HandleCall) : Prop where
  invalid : ∀ h, CS.Occurs (Hsm.api be) (Issues be h) {} before →
    c.rv be (CS.run (Hsm.api be) (finalized be before) after) h ≠ .ok
  forgotten : CS.answers (Hsm.api be) (finalized be before) after =
    CS.answers (Hsm.api be)
      { finalized be before with
        manager := { (finalized be before).manager with sessions := [] } } after

theorem manager_finalized (be : Backend) (before : List ApiCall) :
    (finalized be before).manager = (CS.run (Hsm.api be) {} before).manager := by
  simp only [finalized, Hsm.api, Hsm.cFinalize]
  split_ifs <;> rfl

/-- A session that is open at the finalisation answers `C_GetSessionInfo` right after it. -/
theorem not_ended_of_mem {be : Backend} {before : List ApiCall} {s : Session}
    (hs : s ∈ (CS.run (Hsm.api be) {} before).manager.sessions) :
    ¬ Ended be before [] (.getSessionInfo true) := by
  intro h
  obtain ⟨s', hs'⟩ : ∃ s', (finalized be before).getSession s.handle = some s' := by
    rw [Hsm.getSession, manager_finalized, SessionManager.getSession, ← Option.isSome_iff_exists,
      List.find?_isSome]
    exact ⟨s, hs, decide_eq_true rfl⟩
  apply h.invalid s.handle (issued_of_mem be before s hs)
  simp [HandleCall.rv, Hsm.cGetSessionInfo, hs']

/-- Finalisation ends all sessions exactly when none is open. -/
theorem ended_iff (be : Backend) {before : List ApiCall} (hopens : opens before < 2 ^ 64) :
    (∀ after c, opens (before ++ after) < 2 ^ 64 → c.LooksUp → Ended be before after c) ↔
      (CS.run (Hsm.api be) {} before).manager.sessions = [] := by
  constructor
  · intro h
    by_contra hne
    obtain ⟨s, hs⟩ := List.exists_mem_of_ne_nil _ hne
    apply not_ended_of_mem hs
    exact h [] (.getSessionInfo true) (by rwa [List.append_nil]) trivial
  · intro hnil after c hafter hc
    have hmanager := manager_finalized be before
    have happend : opens (before ++ after) = opens before + opens after := List.countP_append
    -- The handles issued before are at most `n`, those of later sessions are above `n`.
    have hstart : Numbered 0 0 ({} : Hsm).manager := ⟨rfl, fun s hs => by cases hs⟩
    have hbefore : 0 + opens before < 2 ^ 64 := by omega
    obtain ⟨n, -, hn, hnum, hissued⟩ := hstart.run be le_rfl hbefore
    have hfinal : Numbered n n (finalized be before).manager := by
      refine ⟨hmanager ▸ hnum.next, fun s hs => ?_⟩
      rw [hmanager, hnil] at hs
      cases hs
    have hlast : n + opens after < 2 ^ 64 := by omega
    obtain ⟨n', -, -, hlater, -⟩ := hfinal.run be le_rfl hlast
    constructor
    · intro h hh
      apply HandleCall.rv_ne_ok _ hc
      rw [Hsm.getSession, SessionManager.getSession, List.find?_eq_none]
      intro s hs heq
      have hle := hissued h hh
      have hlt := (hlater.above s hs).1
      rw [of_decide_eq_true heq] at hlt
      omega
    · have hsame : { finalized be before with
          manager := { (finalized be before).manager with sessions := [] } } =
            finalized be before := by
        rw [← hnil, ← hmanager]
      rw [hsame]

/-! ### One session -/

/-- The module is initialised and a session opened. -/
def openOne : List ApiCall :=
  [.initModule (some { slots := fun i => if i = 0 then some none else none, throttle := none
                       publishing := false }) false,
   .openSession 0 ckfSerialSession]

/-- The application closes its session first, and later opens another one. -/
theorem ended_closed :
    (CS.run (Hsm.api .toy) {} (openOne ++ [.closeSession 1])).initialized = true ∧
      Ended .toy (openOne ++ [.closeSession 1]) openOne .closeSession := by
  have hended := (@ended_iff .toy (openOne ++ [.closeSession 1]) (by decide)).mpr rfl
  exact ⟨rfl, hended openOne .closeSession (by decide) trivial⟩

/-- A digest is begun before the finalisation. -/
def openDigest : List ApiCall :=
  openOne ++ [.onSession {} 1 (.crypto (.digestInit (some ⟨ckmSha256, .absent⟩)))]

/-- It can be finished after the finalisation, and the session can be closed after a new
initialisation. In any case a handle is good for seeding the random numbers. -/
theorem not_ended_openDigest :
    (CS.run (Hsm.api .toy) {} openDigest).initialized = true ∧
      CS.Occurs (Hsm.api .toy) (Issues .toy 1) {} openDigest ∧
      (HandleCall.onSession {} (.crypto (.digestFinal (some (.null 0))))).rv .toy
        (finalized .toy openDigest) 1 = .ok ∧
      HandleCall.closeSession.rv .toy
        (CS.run (Hsm.api .toy) (finalized .toy openDigest) (openOne.take 1)) 1 = .ok ∧
      ¬ Ended .toy openDigest (openOne.take 1) .closeSession ∧
      (HandleCall.seedRandom (.null 0)).rv .toy {} 1 = .ok := by
  have hissued : CS.Occurs (Hsm.api .toy) (Issues .toy 1) {} openDigest :=
    .inr (.inl ⟨rfl, List.mem_singleton.mpr rfl⟩)
  have hclose : HandleCall.closeSession.rv .toy
      (CS.run (Hsm.api .toy) (finalized .toy openDigest) (openOne.take 1)) 1 = .ok := rfl
  refine ⟨rfl, hissued, rfl, hclose, ?_, rfl⟩
  intro h
  exact h.invalid 1 hissued hclose

end VirtualHsm
