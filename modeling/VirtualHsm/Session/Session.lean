import VirtualHsm.Keystore.Token

/-!
# Sessions

A session owns an object store, its login state, the state of one cryptographic operation and
the cursor of one object search.
-/

namespace VirtualHsm

def ckfRwSession : CkUlong := 0x00000002
def ckfSerialSession : CkUlong := 0x00000004

/-- The session states `CKS_*`. -/
inductive SessionState
  | roPublicSession
  | roUserFunctions
  | roSoFunctions
  | rwPublicSession
  | rwUserFunctions
  | rwSoFunctions
  deriving DecidableEq, Repr

/-- A session of the application with a slot. -/
structure Session where
  handle : CkUlong
  slotId : CkUlong
  flags : CkUlong
  state : SessionState
  userType : CkUlong := ckuInvalid
  objectStore : ObjectStore := {}
  operationInitialized : Bool := false
  currentOperationMechanism : CkUlong := 0
  /-- Mechanism of the active operation; zero means none. -/
  activeMech : CkUlong := 0
  signKey : CkUlong := 0
  opBuf : Bytes := []
  gcmIv : Bytes := []
  gcmAad : Bytes := []
  oaepMgf1 : String := ""
  oaepLabel : Bytes := []
  findHandles : List CkUlong := []
  findPos : Nat := 0
  findActive : Bool := false

namespace Session

/-- The session may write. -/
def isRw (flags : CkUlong) : Bool := flags &&& ckfRwSession ≠ 0

/-- A session as it is opened. -/
def opened (handle slotId flags : CkUlong) : Session :=
  { handle, slotId, flags
    state := if isRw flags then .rwPublicSession else .roPublicSession }

variable (s : Session)

/-! ### Login state -/

/-- A user or the security officer is logged in. -/
def isLoggedIn : Bool :=
  match s.state with
  | .rwUserFunctions | .rwSoFunctions | .roUserFunctions | .roSoFunctions => true
  | .rwPublicSession | .roPublicSession => false

/-- `Session::login`: the PIN has already been checked by the token. -/
def login (userType : CkUlong) : CkRv × Session :=
  if s.isLoggedIn then (.userAlreadyLoggedIn, s)
  else if userType ≠ ckuUser ∧ userType ≠ ckuSo then (.userTypeInvalid, s)
  else
    let state : SessionState :=
      if userType = ckuSo then if isRw s.flags then .rwSoFunctions else .roSoFunctions
      else if isRw s.flags then .rwUserFunctions else .roUserFunctions
    (.ok, { s with userType, state })

/-- `Session::logout`: back to the public state, without operation and search results; the
search stays active. -/
def logout : CkRv × Session :=
  if s.isLoggedIn = false then (.userNotLoggedIn, s)
  else (.ok, { s with
    userType := ckuInvalid
    state := if isRw s.flags then .rwPublicSession else .roPublicSession
    operationInitialized := false
    currentOperationMechanism :=
      if s.operationInitialized then 0 else s.currentOperationMechanism
    activeMech := 0, signKey := 0, opBuf := [], gcmIv := [], gcmAad := []
    oaepMgf1 := "", oaepLabel := []
    -- Unlike `clearFindResults`, this leaves the search active.
    findHandles := [], findPos := 0 })

variable (userType : CkUlong)

@[simp] theorem login_slotId : (s.login userType).2.slotId = s.slotId := by
  unfold login
  split_ifs <;> rfl

@[simp] theorem login_handle : (s.login userType).2.handle = s.handle := by
  unfold login
  split_ifs <;> rfl

theorem login_activeMech : (s.login userType).2.activeMech = s.activeMech := by
  unfold login
  split_ifs <;> rfl

theorem login_objectStore : (s.login userType).2.objectStore = s.objectStore := by
  unfold login
  split_ifs <;> rfl

theorem logout_handle : s.logout.2.handle = s.handle := by
  unfold logout
  split_ifs <;> rfl

theorem logout_objectStore : s.logout.2.objectStore = s.objectStore := by
  unfold logout
  split_ifs <;> rfl

/-! ### The operation -/

def initializeOperation (mech : CkUlong) : CkRv × Session :=
  if s.isLoggedIn = false then (.userNotLoggedIn, s)
  else if s.operationInitialized then (.operationActive, s)
  else (.ok, { s with operationInitialized := true, currentOperationMechanism := mech })

def finalizeOperation : CkRv × Session :=
  if s.operationInitialized = false then (.operationNotInitialized, s)
  else (.ok, { s with
    operationInitialized := false, currentOperationMechanism := 0
    activeMech := 0, signKey := 0, opBuf := [], gcmIv := [], gcmAad := []
    oaepMgf1 := "", oaepLabel := [] })

/-- `Session::opBegin`: refused only when `initializeOperation` has marked an operation, which
no application call does. -/
def opBegin (mech key : CkUlong) : CkRv × Session :=
  if s.operationInitialized ∧ s.activeMech ≠ 0 then (.operationActive, s)
  else (.ok, { s with activeMech := mech, signKey := key, opBuf := [] })

def opCheck : CkRv := if s.activeMech = 0 then .operationNotInitialized else .ok

def opEnd : Session :=
  { s with
    activeMech := 0, signKey := 0, opBuf := [], gcmIv := [], gcmAad := []
    oaepMgf1 := "", oaepLabel := [] }

def opUpdate (data : CkBuf) : Session := { s with opBuf := s.opBuf ++ data.bytes }

def opTakeBuffer : Bytes × Session := (s.opBuf, { s with opBuf := [] })

def setGcmParams (iv aad : Bytes) : Session := { s with gcmIv := iv, gcmAad := aad }

def setOaepParams (mgf1 : String) (label : Bytes) : Session :=
  { s with oaepMgf1 := mgf1, oaepLabel := label }

/-! ### The search -/

def setFindResults (handles : List CkUlong) : Session :=
  { s with findHandles := handles, findPos := 0, findActive := true }

def hasFindResults : Bool := s.findPos < s.findHandles.length

/-- The next handles, at most `maxCount`, and the session with its cursor moved past them. -/
def findNextBatch (maxCount : Nat) : List CkUlong × Session :=
  let batch := (s.findHandles.drop s.findPos).take maxCount
  (batch, { s with findPos := s.findPos + batch.length })

def clearFindResults : Session := { s with findHandles := [], findPos := 0, findActive := false }

end Session

/-! ### Open sessions -/

/-- The registry of open sessions. -/
structure SessionManager where
  sessions : List Session := []
  nextSessionId : CkUlong := 1

namespace SessionManager

variable (m : SessionManager)

/-- The first open session with the handle. -/
def getSession (handle : CkUlong) : Option Session :=
  m.sessions.find? fun s => s.handle = handle

/-- Write back a session that a call has changed through its pointer. -/
def setSession (s : Session) : SessionManager :=
  { m with
    sessions := m.sessions.replaceF fun x => if x.handle = s.handle then some s else none }

/-- `openSession`: unknown flags are refused, and a session number of zero is skipped. -/
def openSession (slotId flags : CkUlong) : (CkRv × Option CkUlong) × SessionManager :=
  if flags &&& ~~~(ckfRwSession ||| ckfSerialSession) ≠ 0 then ((.argumentsBad, none), m)
  else
    -- The counter has wrapped around when it is zero.
    let handle := if m.nextSessionId = 0 then m.nextSessionId + 1 else m.nextSessionId
    ((.ok, some handle),
      { sessions := m.sessions ++ [Session.opened handle slotId flags]
        nextSessionId := handle + 1 })

def closeSession (handle : CkUlong) : CkRv × SessionManager :=
  if (m.getSession handle).isSome then
    (.ok, { m with sessions := m.sessions.eraseP fun s => s.handle = handle })
  else (.sessionHandleInvalid, m)

def closeAllSessions (slotId : CkUlong) : CkRv × SessionManager :=
  (.ok, { m with sessions := m.sessions.filter fun s => s.slotId ≠ slotId })

variable {m} {s : Session} {handle : CkUlong}

theorem handle_of_getSession (h : m.getSession handle = some s) : s.handle = handle := by
  simpa using List.find?_some h

theorem handle_logout (h : m.getSession handle = some s) :
    s.logout.2.opEnd.clearFindResults.handle = handle :=
  s.logout_handle.trans (handle_of_getSession h)

private theorem find?_replaceF_self {l : List Session} {s' : Session}
    (h : l.find? (fun x => x.handle = s'.handle) = some s) :
    (l.replaceF fun x => if x.handle = s'.handle then some s' else none).find?
      (fun x => x.handle = s'.handle) = some s' := by
  induction l with
  | nil => cases h
  | cons x xs ih =>
    by_cases hx : x.handle = s'.handle
    · simp [List.replaceF, hx]
    · simp only [List.find?_cons, hx, decide_false] at h
      simp [List.replaceF, hx, ih h]

private theorem find?_replaceF_of_ne {l : List Session} {s' : Session} {handle' : CkUlong}
    (hne : s'.handle ≠ handle') :
    (l.replaceF fun x => if x.handle = s'.handle then some s' else none).find?
      (fun x => x.handle = handle') = l.find? (fun x => x.handle = handle') := by
  induction l with
  | nil => rfl
  | cons x xs ih =>
    by_cases hx : x.handle = s'.handle
    · simp [List.replaceF, hx, hne]
    · by_cases hx' : x.handle = handle'
      · simp [List.replaceF, hx', hne.symm]
      · simp [List.replaceF, hx, hx', ih]

theorem getSession_setSession {s' : Session} (hs : m.getSession handle = some s)
    (hhandle : s'.handle = handle) (handle' : CkUlong) :
    (m.setSession s').getSession handle' =
      if handle' = handle then some s' else m.getSession handle' := by
  subst hhandle
  by_cases h : handle' = s'.handle
  · rw [if_pos h, h]
    exact find?_replaceF_self hs
  · rw [if_neg h]
    exact find?_replaceF_of_ne (Ne.symm h)

/-! ### Opening and closing leaves the other sessions -/

theorem getSession_openSession (hs : m.getSession handle = some s) (slotId flags : CkUlong) :
    (m.openSession slotId flags).2.getSession handle = some s := by
  rw [getSession] at hs
  by_cases hflags : flags &&& ~~~(ckfRwSession ||| ckfSerialSession) ≠ 0
  · rw [openSession, if_pos hflags]
    exact hs
  · simp only [openSession, if_neg hflags, getSession, List.find?_append, hs, Option.some_or]

theorem getSession_closeSession {x : CkUlong} (hs : m.getSession handle = some s)
    (hne : handle ≠ x) : (m.closeSession x).2.getSession handle = some s := by
  unfold closeSession
  split_ifs
  · rw [← hs]
    simp only [getSession]
    induction m.sessions with
    | nil => rfl
    | cons y ys ih =>
      by_cases hy : y.handle = x
      · simp [hy, hne.symm]
      · simp only [List.eraseP_cons, hy, decide_false, cond_false, List.find?_cons, ih]
  · exact hs

theorem getSession_closeAllSessions {slotId : CkUlong} (hs : m.getSession handle = some s)
    (hne : s.slotId ≠ slotId) : (m.closeAllSessions slotId).2.getSession handle = some s := by
  simp only [closeAllSessions, getSession, List.find?_filter]
  obtain ⟨hhandle, before, after, hsessions, hbefore⟩ := List.find?_eq_some_iff_append.mp hs
  -- The sessions before it have other handles, whether they are kept or not.
  refine List.find?_eq_some_iff_append.mpr ⟨by simpa [hne] using hhandle, before, after, hsessions, ?_⟩
  intro x hx
  have hxhandle := hbefore x hx
  simp only [Bool.not_eq_eq_eq_not, Bool.not_true] at hxhandle ⊢
  simp [hxhandle]

end SessionManager

end VirtualHsm
