import VirtualHsm.Session.Session

/-!
# The PKCS#11 module: sessions, login and PINs

The process-wide state behind the C interface and the entry points that open and close
sessions, log in and out, and set PINs.
-/

namespace VirtualHsm

/-! ### Throttling -/

/-- Consecutive failures by key, with the delays they cause. -/
structure LoginThrottle where
  softThreshold : UInt32 := 3
  baseDelayMs : UInt32 := 250
  maxDelayMs : UInt32 := 8000
  attempts : String → Option UInt32 := fun _ => none

namespace LoginThrottle

variable (th : LoginThrottle)

def delayBeforeAttempt (key : String) : UInt32 :=
  match th.attempts key with
  | none => 0
  | some n =>
    if n < th.softThreshold then 0
    else min (th.baseDelayMs <<< min (n - th.softThreshold) 16) th.maxDelayMs

def recordSuccess (key : String) : LoginThrottle :=
  { th with attempts := Function.update th.attempts key none }

def recordFailure (key : String) : LoginThrottle :=
  { th with attempts := Function.update th.attempts key (some ((th.attempts key).getD 0 + 1)) }

end LoginThrottle

/-! ### Events -/

inductive EventType
  | pinLockout
  | keyDestroyed
  | keyRotated
  | wrapKeyCompleted
  | unwrapKeyCompleted
  | encryptCompleted
  | decryptCompleted
  | verifyCompleted
  | verifyFailed
  deriving DecidableEq, Repr

inductive Severity
  | info
  | warning
  | critical
  deriving DecidableEq, Repr

/-- The arguments of `p11_publish_event`. -/
structure P11Event where
  type : EventType
  severity : Severity
  slotId : Int
  tokenLabel : Bytes
  keyId : Bytes
  summary : String
  detailJson : String
  userLabel : Option String
  auditEventType : String
  deriving DecidableEq, Repr

/-- The conversion of a slot number to the event's `int`. -/
def slotInt (slotId : CkUlong) : Int := slotId.toUInt32.toBitVec.toInt

/-! ### Module state -/

/-- The state shared by all entry points. -/
structure Hsm where
  initialized : Bool := false
  manager : SessionManager := {}
  /-- The registered slots, each with the token it holds. -/
  slots : CkUlong → Option (Option TokenCore) := fun _ => none
  throttle : Option LoginThrottle := none
  /-- Notification bus and audit log exist. -/
  publishing : Bool := false
  /-- Published events, latest first. -/
  events : List P11Event := []

namespace Hsm

variable (hsm : Hsm)

/-- `p11_get_token`. -/
def getToken (slotId : CkUlong) : Option TokenCore := (hsm.slots slotId).join

def setToken (slotId : CkUlong) (t : TokenCore) : Hsm :=
  { hsm with slots := Function.update hsm.slots slotId (some (some t)) }

def getSession (handle : CkUlong) : Option Session := hsm.manager.getSession handle

def setSession (s : Session) : Hsm := { hsm with manager := hsm.manager.setSession s }

/-- `p11_get_token_for_session`, together with the session. -/
def sessionToken (handle : CkUlong) : Option (Session × TokenCore) :=
  match hsm.getSession handle with
  | some s => (hsm.getToken s.slotId).map fun t => (s, t)
  | none => none

def publish (e : P11Event) : Hsm :=
  if hsm.publishing then { hsm with events := e :: hsm.events } else hsm

/-! ### Sessions -/

/-- Answer of `C_OpenSession`: the code and the handle it stores. -/
def cOpenSession (slotId flags : CkUlong) : (CkRv × Option CkUlong) × Hsm :=
  if hsm.initialized = false then ((.cryptokiNotInitialized, none), hsm)
  else if hsm.slots slotId = none then ((.slotIdInvalid, none), hsm)
  else
    let r := hsm.manager.openSession slotId flags
    (r.1, { hsm with manager := r.2 })

def cCloseSession (handle : CkUlong) : CkRv × Hsm :=
  if hsm.initialized = false then (.cryptokiNotInitialized, hsm)
  else
    let r := hsm.manager.closeSession handle
    (r.1, { hsm with manager := r.2 })

def cCloseAllSessions (slotId : CkUlong) : CkRv × Hsm :=
  if hsm.initialized = false then (.cryptokiNotInitialized, hsm)
  else
    let r := hsm.manager.closeAllSessions slotId
    (r.1, { hsm with manager := r.2 })

/-! ### Login -/

def throttleKey (slotId userType : CkUlong) : String :=
  toString slotId.toNat ++ ":" ++ toString userType.toNat

/-- Success and a hard lock clear the failure history, a wrong PIN extends it. -/
def recordLogin (rv : CkRv) (key : String) (th : LoginThrottle) : LoginThrottle :=
  if rv = .ok ∨ rv = .pinLocked then th.recordSuccess key
  else if rv ≠ .pinIncorrect ∧ rv ≠ .pinInvalid then th
  else th.recordFailure key

/-- The lock of the PIN that a user type logs in with. -/
def isPinLocked (t : TokenCore) (userType : CkUlong) : Bool :=
  if userType = ckuUser then t.user.locked else t.so.locked

/-- The event for an attempt that trips the lock. -/
def lockoutEvent (slotId userType : CkUlong) (t : TokenCore) : P11Event where
  type := .pinLockout
  severity := .warning
  slotId := slotInt slotId
  tokenLabel := t.label
  keyId := "token:".toUTF8.toList ++ t.id
  summary := "PIN lockout: " ++ (if userType = ckuUser then "user" else "SO") ++
    " PIN locked after " ++ toString t.maxFailedAttempts.toNat ++ " failed attempts"
  detailJson := "\x7b\"user_type\":\"" ++ (if userType = ckuUser then "CKU_USER" else "CKU_SO") ++
    "\",\"max_attempts\":" ++ toString t.maxFailedAttempts.toNat ++ "\x7d"
  userLabel := none
  auditEventType := "C_Login"

/-- What a login attempt returns: the code, and how long it was held back. -/
structure LoginAnswer where
  rv : CkRv
  delayMs : UInt32 := 0
  deriving DecidableEq, Repr

/-- `C_Login`: the token checks the PIN, the session records the login. -/
def cLogin (handle userType : CkUlong) (pin : CkBuf) : LoginAnswer × Hsm :=
  if hsm.initialized = false then ({ rv := .cryptokiNotInitialized }, hsm)
  else if userType ≠ ckuUser ∧ userType ≠ ckuSo then ({ rv := .userTypeInvalid }, hsm)
  else
    match hsm.sessionToken handle with
    | none => ({ rv := .sessionHandleInvalid }, hsm)
    | some (s, t) =>
      let key := throttleKey s.slotId userType
      -- The delay is served before the PIN is looked at.
      let delayMs := (hsm.throttle.map (·.delayBeforeAttempt key)).getD 0
      let r := t.call (.login userType pin)
      let after := { hsm.setToken s.slotId r.2 with
        throttle := hsm.throttle.map (recordLogin r.1 key) }
      if r.1 = .ok then
        -- The PIN was right; whether the session can log in is its own answer.
        let logged := s.login userType
        ({ rv := logged.1, delayMs }, after.setSession logged.2)
      -- Only the attempt that trips the lock is announced.
      else if isPinLocked t userType = false ∧ isPinLocked r.2 userType then
        ({ rv := r.1, delayMs }, after.publish (lockoutEvent s.slotId userType r.2))
      else ({ rv := r.1, delayMs }, after)

/-- `C_Logout`: the token only checks the session's user type, so a session that nobody is logged
in to gets `CKR_USER_TYPE_INVALID`. -/
def cLogout (handle : CkUlong) : CkRv × Hsm :=
  if hsm.initialized = false then (.cryptokiNotInitialized, hsm)
  else
    match hsm.sessionToken handle with
    | none => (.sessionHandleInvalid, hsm)
    | some (s, _) =>
      let rv := TokenCore.logout s.userType
      -- Operation and search of the session end with the login.
      if rv = .ok ∨ rv = .userNotLoggedIn then
        (.ok, hsm.setSession s.logout.2.opEnd.clearFindResults)
      else (rv, hsm)

/-! ### PINs -/

/-- `C_InitToken`: sets the security-officer PIN when one is given. -/
def cInitToken (slotId : CkUlong) (pin : CkBuf) : CkRv × Hsm :=
  match hsm.getToken slotId with
  | none => (.slotIdInvalid, hsm)
  | some t =>
    if pin.isNull = false ∧ 0 < pin.len then
      let r := t.call (.initializeSoPin pin)
      (r.1, hsm.setToken slotId r.2)
    else (.ok, hsm)

def cInitPIN (handle : CkUlong) (pin : CkBuf) : CkRv × Hsm :=
  match hsm.sessionToken handle with
  | none => (.sessionHandleInvalid, hsm)
  | some (s, t) =>
    -- Who is logged in to the session is not looked at.
    if pin.isNull then (.argumentsBad, hsm)
    else
      let r := t.call (.initializeUserPin pin)
      (r.1, hsm.setToken s.slotId r.2)

def cSetPIN (handle : CkUlong) (old new : CkBuf) : CkRv × Hsm :=
  match hsm.sessionToken handle with
  | none => (.sessionHandleInvalid, hsm)
  | some (s, t) =>
    let r := t.setPin old new
    (r.1, hsm.setToken s.slotId r.2)

/-! ### The PIN calls of one slot -/

variable {hsm} {handle slotId : CkUlong} {t : TokenCore}

@[simp] theorem getToken_setToken (slotId' : CkUlong) :
    (hsm.setToken slotId t).getToken slotId' =
      if slotId' = slotId then some t else hsm.getToken slotId' := by
  by_cases h : slotId' = slotId <;> simp [getToken, setToken, h]

/-- The handle names an open session of the slot. -/
def IsSessionOf (hsm : Hsm) (slotId handle : CkUlong) : Prop :=
  ∃ s, hsm.getSession handle = some s ∧ s.slotId = slotId

theorem sessionToken_of_isSessionOf (hsession : hsm.IsSessionOf slotId handle)
    (htoken : hsm.getToken slotId = some t) :
    ∃ s, hsm.getSession handle = some s ∧ s.slotId = slotId ∧
      hsm.sessionToken handle = some (s, t) := by
  obtain ⟨s, hs, rfl⟩ := hsession
  exact ⟨s, hs, rfl, by simp [sessionToken, hs, htoken]⟩

section Login

variable {s : Session} {pin : Bytes} (hinit : hsm.initialized = true)
  (hst : hsm.sessionToken handle = some (s, t))
include hinit hst

/-- A login that the token accepts: the session's own login decides the answer. -/
theorem cLogin_of_ok (hok : (t.login ckuUser pin).1 = .ok) :
    (hsm.cLogin handle ckuUser (.data pin)).1.rv = (s.login ckuUser).1 ∧
    (hsm.cLogin handle ckuUser (.data pin)).2 =
      { hsm.setToken s.slotId (t.login ckuUser pin).2 with
        throttle := hsm.throttle.map (recordLogin .ok (throttleKey s.slotId ckuUser))
        manager := hsm.manager.setSession (s.login ckuUser).2 } := by
  have huser : ¬(ckuUser ≠ ckuUser ∧ ckuUser ≠ ckuSo) := fun h => h.1 rfl
  simp only [cLogin, hinit, Bool.true_eq_false, if_false, if_neg huser, hst,
    TokenCore.call_login_data, hok, if_true, true_and]
  rfl

/-- A login that the token refuses: the refusal is the answer and the sessions stay. -/
theorem cLogin_of_ne_ok (hne : (t.login ckuUser pin).1 ≠ .ok) :
    (hsm.cLogin handle ckuUser (.data pin)).1.rv = (t.login ckuUser pin).1 ∧
    ∃ throttle events, (hsm.cLogin handle ckuUser (.data pin)).2 =
      { hsm.setToken s.slotId (t.login ckuUser pin).2 with throttle, events } := by
  have huser : ¬(ckuUser ≠ ckuUser ∧ ckuUser ≠ ckuSo) := fun h => h.1 rfl
  simp only [cLogin, hinit, Bool.true_eq_false, if_false, if_neg huser, hst,
    TokenCore.call_login_data, if_neg hne, publish]
  split_ifs
  · exact ⟨rfl, _, _, rfl⟩
  · exact ⟨rfl, _, _, rfl⟩
  · exact ⟨rfl, _, _, rfl⟩

end Login

end Hsm

end VirtualHsm
