import VirtualHsm.CS.Run
import VirtualHsm.Keystore.ObjectStore

/-!
# The token: PINs, lockout and the key-encryption key

A token keeps a user PIN and a security-officer PIN. Both are handled by the same code over
the same data (`PinState`): a fixed buffer with the stored PIN, a failure counter and a lock.
Logging in counts failures and respects the lock; changing a PIN does neither.
-/

namespace VirtualHsm

def ckuInvalid : CkUlong := 0
def ckuUser : CkUlong := 1
def ckuSo : CkUlong := 2

/-- Size of a PIN buffer in bytes. -/
def pinCapacity : Nat := 256

/-! ### Stored PINs -/

/-- A PIN buffer and the number of its bytes that are the PIN. -/
structure PinBuffer where
  bytes : Bytes
  len : Nat
  size_eq : bytes.length = pinCapacity
  len_le : len ≤ pinCapacity

namespace PinBuffer

/-- The zero-filled buffer of a new token. -/
def fresh : PinBuffer := ⟨List.replicate pinCapacity 0, 0, by simp, by simp⟩

/-- The PIN that the buffer holds. -/
def stored (b : PinBuffer) : Bytes := b.bytes.take b.len

/-- Overwrite the start of the buffer; bytes behind the new PIN stay. -/
def write (b : PinBuffer) (pin : Bytes) (h : pin.length ≤ pinCapacity) : PinBuffer where
  bytes := pin ++ b.bytes.drop pin.length
  len := pin.length
  size_eq := by rw [List.length_append, List.length_drop, b.size_eq]; omega
  len_le := h

/-- `v_secure_pin_equals`: accumulate the length difference and every byte difference over the
whole buffer, so that the time taken does not depend on where the PINs differ. -/
def securePinEquals (b : PinBuffer) (candidate : Bytes) : Bool :=
  let diff : UInt8 := if b.len ≠ candidate.length then 1 else 0
  (List.range pinCapacity).foldl (fun diff i =>
    diff ||| ((if i < b.len then b.bytes.getD i 0 else 0) ^^^ candidate.getD i 0)) diff = 0

@[simp] theorem stored_fresh : fresh.stored = [] := rfl

@[simp] theorem stored_write (b : PinBuffer) (pin : Bytes) (h : pin.length ≤ pinCapacity) :
    (b.write pin h).stored = pin := by
  simp [stored, write]

private theorem foldl_or_eq_zero (f : Nat → UInt8) (l : List Nat) (init : UInt8) :
    l.foldl (fun diff i => diff ||| f i) init = 0 ↔ init = 0 ∧ ∀ i ∈ l, f i = 0 := by
  induction l generalizing init with
  | nil => simp
  | cons i l ih =>
    rw [List.foldl_cons, ih, UInt8.or_eq_zero_iff, List.forall_mem_cons, and_assoc]

/-- What a round adds to the difference: both bytes are masked to zero behind their lengths. -/
def pinDiff (stored : Bytes) (storedLen : Nat) (candidate : Bytes) (i : Nat) : UInt8 :=
  (if i < storedLen then stored.getD i 0 else 0) ^^^ candidate.getD i 0

/-- No length difference and no byte difference below the capacity: the candidate is the PIN,
whatever stands behind it in the buffer. -/
theorem foldl_pinDiff_eq_zero {stored candidate : Bytes} {storedLen : Nat}
    (hlen : storedLen ≤ stored.length) :
    (List.range stored.length).foldl (fun diff i => diff ||| pinDiff stored storedLen candidate i)
        (if storedLen ≠ candidate.length then 1 else 0) = 0 ↔
      stored.take storedLen = candidate := by
  simp only [foldl_or_eq_zero, pinDiff, UInt8.xor_eq_zero_iff, List.mem_range]
  constructor
  · rintro ⟨heq, hbytes⟩
    have heq : storedLen = candidate.length := by
      by_contra hne
      simp [hne] at heq
    -- Equal lengths, and no differing byte below the length.
    refine List.ext_getElem (by rw [List.length_take, Nat.min_eq_left hlen, heq]) fun i hi hi' => ?_
    have hlt : i < storedLen := by rwa [heq]
    have hsize : i < stored.length := hlt.trans_le hlen
    have hbyte := hbytes i hsize
    simp only [if_pos hlt, List.getD_eq_getElem?_getD, List.getElem?_eq_getElem hsize,
      List.getElem?_eq_getElem hi', Option.getD_some] at hbyte
    simpa using hbyte
  · rintro rfl
    refine ⟨by simp [hlen], fun i hi => ?_⟩
    -- Above the length both sides are masked to zero.
    by_cases hlt : i < storedLen
    all_goals simp [hlt, List.getD_eq_getElem?_getD]

/-- The masked comparison accepts exactly the stored PIN. -/
theorem securePinEquals_iff (b : PinBuffer) (candidate : Bytes) :
    b.securePinEquals candidate = true ↔ b.stored = candidate := by
  have hlen : b.len ≤ b.bytes.length := by rw [b.size_eq]; exact b.len_le
  rw [stored, ← foldl_pinDiff_eq_zero hlen, b.size_eq]
  exact decide_eq_true_iff

theorem securePinEquals_eq_false (b : PinBuffer) (candidate : Bytes) :
    b.securePinEquals candidate = false ↔ b.stored ≠ candidate := by
  rw [Ne, ← securePinEquals_iff, Bool.not_eq_true]

/-! ### The comparison with its reads -/

/-- Byte `i` of an array where it is below `len`, and zero elsewhere. The read fails outside the
array. -/
def readBelow (bytes : Bytes) (len i : Nat) : Option UInt8 := if i < len then bytes[i]? else some 0

/-- A round of the loop on the accumulated difference and the number of rounds so far. -/
def pinRound (stored : Bytes) (storedLen : Nat) (candidate : Bytes) (acc : UInt8 × Nat) (i : Nat) :
    Option (UInt8 × Nat) := do
  let candidateByte ← readBelow candidate candidate.length i
  let storedByte ← readBelow stored storedLen i
  some (acc.1 ||| (storedByte ^^^ candidateByte), acc.2 + 1)

/-- `v_secure_pin_equals` over a buffer of any capacity: its answer and the number of its rounds,
or `none` when it reads outside the buffer or the candidate. -/
def comparePins (stored : Bytes) (storedLen : Nat) (candidate : Bytes) : Option (Bool × Nat) := do
  let diff : UInt8 := if storedLen ≠ candidate.length then 1 else 0
  let acc ← (List.range stored.length).foldlM (pinRound stored storedLen candidate) (diff, 0)
  some (acc.1 = 0, acc.2)

theorem readBelow_eq {bytes : Bytes} {len : Nat} (hlen : len ≤ bytes.length) (i : Nat) :
    readBelow bytes len i = some (if i < len then bytes.getD i 0 else 0) := by
  rw [readBelow]
  split_ifs with hi
  · simp [hi.trans_le hlen]
  · rfl

section Loop

variable {stored candidate : Bytes} {storedLen : Nat} (hlen : storedLen ≤ stored.length)
include hlen

theorem pinRound_eq (acc : UInt8 × Nat) (i : Nat) :
    pinRound stored storedLen candidate acc i =
      some (acc.1 ||| pinDiff stored storedLen candidate i, acc.2 + 1) := by
  have hcandidate : (if i < candidate.length then candidate.getD i 0 else 0) =
      candidate.getD i 0 := by
    split_ifs with hi
    · rfl
    · simp [Nat.not_lt.mp hi]
  rw [pinRound, readBelow_eq le_rfl, readBelow_eq hlen, hcandidate]
  rfl

theorem foldlM_pinRound (l : List Nat) (acc : UInt8 × Nat) :
    l.foldlM (pinRound stored storedLen candidate) acc =
      some (l.foldl (fun diff i => diff ||| pinDiff stored storedLen candidate i) acc.1,
        acc.2 + l.length) := by
  induction l generalizing acc with
  | nil => rfl
  | cons i l ih =>
    rw [List.foldlM_cons, pinRound_eq hlen, Option.bind_eq_bind, Option.bind_some, ih,
      List.foldl_cons, List.length_cons, Nat.add_assoc, Nat.add_comm 1]

/-- The comparison reads nothing outside the buffer and the candidate, accepts exactly the PIN in
front of the buffer and makes as many rounds as the buffer has bytes. -/
theorem comparePins_eq :
    comparePins stored storedLen candidate =
      some (decide (candidate = stored.take storedLen), stored.length) := by
  rw [comparePins, foldlM_pinRound hlen, Option.bind_eq_bind, Option.bind_some, List.length_range,
    Nat.zero_add]
  simp only [foldl_pinDiff_eq_zero hlen, eq_comm]

end Loop

/-- A longer PIN once stood in the buffer, and the candidate is longer than the buffer. -/
theorem comparePins_eq_leftover :
    comparePins [1, 2, 3, 4] 2 [1, 2, 3, 4, 5] = some (false, 4) :=
  comparePins_eq (by decide)

/-- On a token's buffer the loop answers as the token does. -/
theorem comparePins_bytes (b : PinBuffer) (candidate : Bytes) :
    comparePins b.bytes b.len candidate = some (b.securePinEquals candidate, pinCapacity) := by
  have hlen : b.len ≤ b.bytes.length := by rw [b.size_eq]; exact b.len_le
  have hanswer : b.securePinEquals candidate = decide (b.bytes.take b.len = candidate) := by
    rw [Bool.eq_iff_iff, securePinEquals_iff, decide_eq_true_iff, stored]
  rw [comparePins, foldlM_pinRound hlen, Option.bind_eq_bind, Option.bind_some, List.length_range,
    Nat.zero_add, hanswer, ← b.size_eq]
  simp only [foldl_pinDiff_eq_zero hlen]

end PinBuffer

/-! ### One PIN with its counter and lock -/

/-- The state of one PIN. -/
structure PinState where
  buf : PinBuffer := PinBuffer.fresh
  isSet : Bool := false
  failedAttempts : UInt32 := 0
  locked : Bool := false

namespace PinState

variable (p : PinState)

/-- `v_initialize_user_pin` and `v_initialize_so_pin`, which differ in the code for a PIN that
is already set. -/
def initializePin (pin : Bytes) (already : CkRv) : CkRv × PinState :=
  if p.isSet then (already, p)
  else if h : pin.length ≤ pinCapacity then
    (.ok, { p with buf := p.buf.write pin h, isSet := true, failedAttempts := 0, locked := false })
  else (.pinLenRange, p)

/-- `v_set_user_pin` and `v_set_so_pin`: neither the counter nor the lock is looked at, and
both are reset on success. -/
def setPin (old new : Bytes) (notInitialized : CkRv) : CkRv × PinState :=
  if p.isSet = false then (notInitialized, p)
  -- A wrong old PIN is not counted.
  else if p.buf.securePinEquals old = false then (.pinIncorrect, p)
  else if h : new.length ≤ pinCapacity then
    (.ok, { p with buf := p.buf.write new h, failedAttempts := 0, locked := false })
  else (.pinLenRange, p)

/-- `v_verify_pin_with_lockout`. -/
def verifyPinWithLockout (candidate : Bytes) (notInitialized : CkRv) (maxAttempts : UInt32) :
    CkRv × PinState :=
  if p.locked then (.pinLocked, p)
  else if p.isSet = false then (notInitialized, p)
  else if p.buf.securePinEquals candidate = false then
    let n := p.failedAttempts + 1
    -- The attempt that reaches the limit is answered like a locked PIN.
    if maxAttempts ≤ n then (.pinLocked, { p with failedAttempts := n, locked := true })
    else (.pinIncorrect, { p with failedAttempts := n })
  else (.ok, { p with failedAttempts := 0, locked := false })

variable {p}

variable {candidate : Bytes} {rv : CkRv}

theorem setPin_eq_ok {old new : Bytes} (hrv : rv ≠ .ok) :
    (p.setPin old new rv).1 = .ok ↔
      p.isSet = true ∧ p.buf.stored = old ∧ new.length ≤ pinCapacity := by
  simp only [setPin, PinBuffer.securePinEquals_eq_false]
  split_ifs with hset hold hnew
  · simp [hset, hrv]
  · simp [hold]
  · simp_all
  · simp [hnew]

theorem verifyPinWithLockout_eq_ok {max : UInt32} (hrv : rv ≠ .ok) :
    (p.verifyPinWithLockout candidate rv max).1 = .ok ↔
      p.locked = false ∧ p.isSet = true ∧ p.buf.stored = candidate := by
  simp only [verifyPinWithLockout, PinBuffer.securePinEquals_eq_false]
  split_ifs with hlocked hset hpin hmax
  · simp [hlocked]
  · simp [hset, hrv]
  · simp [hpin]
  · simp [hpin]
  · simp_all

theorem verifyPinWithLockout_of_locked {max : UInt32}
    (h : p.locked = true) : p.verifyPinWithLockout candidate rv max = (.pinLocked, p) := by
  rw [verifyPinWithLockout, if_pos h]

/-- A wrong candidate for an unlocked PIN is counted, and locks the PIN at the limit. -/
theorem verifyPinWithLockout_of_ne {max : UInt32}
    (hlocked : p.locked = false) (hset : p.isSet = true) (hne : p.buf.stored ≠ candidate) :
    p.verifyPinWithLockout candidate rv max =
      (if max ≤ p.failedAttempts + 1 then .pinLocked else .pinIncorrect,
        { p with
          failedAttempts := p.failedAttempts + 1, locked := max ≤ p.failedAttempts + 1 }) := by
  have hpin := (p.buf.securePinEquals_eq_false candidate).mpr hne
  simp only [verifyPinWithLockout, hlocked, hset, hpin]
  by_cases hmax : max ≤ p.failedAttempts + 1 <;> simp [hmax]

/-- The right candidate for an unlocked PIN clears the counter. -/
theorem verifyPinWithLockout_of_eq {max : UInt32}
    (hlocked : p.locked = false) (hset : p.isSet = true) (heq : p.buf.stored = candidate) :
    p.verifyPinWithLockout candidate rv max =
      (.ok, { p with failedAttempts := 0, locked := false }) := by
  have hpin := (p.buf.securePinEquals_iff candidate).mpr heq
  simp [verifyPinWithLockout, hlocked, hset, hpin]

theorem setPin_of_eq {old new : Bytes} (hset : p.isSet = true) (heq : p.buf.stored = old) :
    p.setPin old new rv =
      if h : new.length ≤ pinCapacity then
        (.ok, { p with buf := p.buf.write new h, failedAttempts := 0, locked := false })
      else (.pinLenRange, p) := by
  have hpin := (p.buf.securePinEquals_iff old).mpr heq
  simp [setPin, hset, hpin]

end PinState

/-! ### The token -/

/-- The state of a token. -/
structure TokenCore where
  label : Bytes
  id : Bytes
  sessionCount : CkUlong := 0
  rwSessionCount : CkUlong := 0
  tokenInitialized : Bool := false
  userLoginRequired : Bool := true
  soLoginRequired : Bool := true
  user : PinState := {}
  so : PinState := {}
  maxFailedAttempts : UInt32 := 5
  objectStore : ObjectStore := {}

namespace TokenCore

/-- The bound on sessions that the token reports, for all and for read-write sessions. -/
def maxSessionCount : CkUlong := 1024

variable (t : TokenCore)

def initializeUserPin (pin : Bytes) : CkRv × TokenCore :=
  let r := t.user.initializePin pin .userPinAlreadyInitialized
  (r.1, { t with user := r.2 })

def initializeSoPin (pin : Bytes) : CkRv × TokenCore :=
  let r := t.so.initializePin pin .soPinAlreadyInitialized
  (r.1, { t with so := r.2 })

def setUserPin (old new : Bytes) : CkRv × TokenCore :=
  let r := t.user.setPin old new .userPinNotInitialized
  (r.1, { t with user := r.2 })

def setSoPin (old new : Bytes) : CkRv × TokenCore :=
  let r := t.so.setPin old new .soPinNotInitialized
  (r.1, { t with so := r.2 })

def changeUserPin (old new : Bytes) : CkRv × TokenCore := t.setUserPin old new

def changeSoPin (old new : Bytes) : CkRv × TokenCore := t.setSoPin old new

def verifyUserPin (pin : Bytes) : CkRv × TokenCore :=
  let r := t.user.verifyPinWithLockout pin .userPinNotInitialized t.maxFailedAttempts
  (r.1, { t with user := r.2 })

def verifySoPin (pin : Bytes) : CkRv × TokenCore :=
  let r := t.so.verifyPinWithLockout pin .soPinNotInitialized t.maxFailedAttempts
  (r.1, { t with so := r.2 })

def login (userType : CkUlong) (pin : Bytes) : CkRv × TokenCore :=
  if userType = ckuUser then t.verifyUserPin pin
  else if userType = ckuSo then t.verifySoPin pin
  else (.userTypeInvalid, t)

def logout (userType : CkUlong) : CkRv :=
  if userType = ckuUser ∨ userType = ckuSo then .ok else .userTypeInvalid

/-- `v_set_max_failed_attempts`: a lower bound locks a PIN whose counter has reached it. -/
def setMaxFailedAttempts (max : UInt32) : TokenCore :=
  { t with
    maxFailedAttempts := max
    user := { t.user with locked := t.user.locked || max ≤ t.user.failedAttempts }
    so := { t.so with locked := t.so.locked || max ≤ t.so.failedAttempts } }

/-! ### The key-encryption key -/

/-- The label of the key-encryption key. -/
def kekLabel : Bytes := [75, 69, 75]

/-- The object carries the label of the key-encryption key. -/
def hasKekLabel (o : HsmObject) : Bool :=
  match o.attributeValue ckaLabel with
  | .ok v => v = kekLabel
  | .error _ => false

/-- The object is a secret key by the class it reports. -/
def isSecretKey (o : HsmObject) : Bool :=
  match o.attributeValue ckaClass with
  | .ok v => v.length = 8 ∧ bytesUlong v = ckoSecretKey
  | .error _ => false

/-- `v_get_kek`: the value of the first secret key labelled as key-encryption key, empty when
there is none or its value may not be read. -/
def getKek : Bytes :=
  match t.objectStore.findObjectIf fun o => hasKekLabel o && isSecretKey o with
  | some (_, o) =>
    match o.attributeValue ckaValue with
    | .ok v => v
    | .error _ => []
  | none => []

/-- The object that holds a restored key-encryption key, before its attributes are set. -/
def kekObject : HsmObject := { type := .secretKey, sensitive := false, extractable := true }

/-- Replace the key-encryption key: destroy the first object with its label, then create the
new one unless it is empty. -/
def replaceKek (st : ObjectStore) (kek : Bytes) : ObjectStore :=
  let cleared :=
    match st.findObjectIf hasKekLabel with
    | some (handle, _) => (st.destroyObject handle).2
    | none => st
  -- An empty key only clears the old one.
  if kek = [] then cleared
  else
    let created := cleared.createObject kekObject
    created.2.setObject created.1
      (((kekObject.setAttribute ckaClass (ulongBytes ckoSecretKey)).setAttribute ckaLabel
        kekLabel).setAttribute ckaValue kek)

/-- The durable part of a token that `v_restore_state` writes. -/
structure DurableState where
  tokenInitialized : Bool
  userPinSet : Bool
  soPinSet : Bool
  userLoginRequired : Bool
  soLoginRequired : Bool
  maxFailedAttempts : UInt32
  userFailedAttempts : UInt32
  soFailedAttempts : UInt32
  userPinLocked : Bool
  soPinLocked : Bool
  kek : Bytes
  deriving DecidableEq, Repr

/-- `v_restore_state`: flags, counters, locks and the key-encryption key are overwritten, the
PIN buffers are left as they are. -/
def restoreState (d : DurableState) : TokenCore :=
  { t with
    tokenInitialized := d.tokenInitialized
    userLoginRequired := d.userLoginRequired
    soLoginRequired := d.soLoginRequired
    maxFailedAttempts := d.maxFailedAttempts
    user := { t.user with
      isSet := d.userPinSet, failedAttempts := d.userFailedAttempts, locked := d.userPinLocked }
    so := { t.so with
      isSet := d.soPinSet, failedAttempts := d.soFailedAttempts, locked := d.soPinLocked }
    objectStore := replaceKek t.objectStore d.kek }

end TokenCore

/-! ### The PIN interface with raw buffers -/

/-- The PIN calls of the token facade, with the buffers the application passes. -/
inductive TokenCall
  | initializeUserPin (pin : CkBuf)
  | initializeSoPin (pin : CkBuf)
  | setUserPin (old new : CkBuf)
  | setSoPin (old new : CkBuf)
  | changeUserPin (old new : CkBuf)
  | changeSoPin (old new : CkBuf)
  | login (userType : CkUlong) (pin : CkBuf)
  | setMaxFailedAttempts (max : UInt32)
  deriving DecidableEq, Repr

/-- A null pointer with a length, which every PIN call refuses before the token is asked. -/
def CkBuf.isBad (b : CkBuf) : Bool := b.isNull && 0 < b.len

@[simp] theorem CkBuf.isBad_data (bs : Bytes) : (CkBuf.data bs).isBad = false := rfl

namespace TokenCore

/-- The facade in front of the token: check the pointers, then delegate. -/
def call (t : TokenCore) : TokenCall → CkRv × TokenCore
  | .initializeUserPin pin =>
    if pin.isBad then (.argumentsBad, t) else t.initializeUserPin pin.bytes
  | .initializeSoPin pin =>
    if pin.isBad then (.argumentsBad, t) else t.initializeSoPin pin.bytes
  | .setUserPin old new =>
    if old.isBad || new.isBad then (.argumentsBad, t) else t.setUserPin old.bytes new.bytes
  | .setSoPin old new =>
    if old.isBad || new.isBad then (.argumentsBad, t) else t.setSoPin old.bytes new.bytes
  | .changeUserPin old new =>
    if old.isBad || new.isBad then (.argumentsBad, t) else t.changeUserPin old.bytes new.bytes
  | .changeSoPin old new =>
    if old.isBad || new.isBad then (.argumentsBad, t) else t.changeSoPin old.bytes new.bytes
  | .login userType pin =>
    if pin.isBad then (.argumentsBad, t) else t.login userType pin.bytes
  | .setMaxFailedAttempts max => (.ok, t.setMaxFailedAttempts max)

/-- What `C_SetPIN` asks of the session's token: an empty old PIN goes to `set_user_pin`,
any other to `change_user_pin`. -/
def setPin (t : TokenCore) (old new : CkBuf) : CkRv × TokenCore :=
  if new.isNull then (.argumentsBad, t)
  else if old.isNull = false ∧ 0 < old.len then t.call (.changeUserPin old new)
  else t.call (.setUserPin (.null 0) new)

/-- A token as `Token(label, id)` constructs it. -/
def fresh (label id : Bytes) : TokenCore := { label, id }

theorem login_user (t : TokenCore) (pin : Bytes) : t.login ckuUser pin = t.verifyUserPin pin := rfl

theorem call_login_data (t : TokenCore) (userType : CkUlong) (pin : Bytes) :
    t.call (.login userType (.data pin)) = t.login userType pin := by
  simp only [call, CkBuf.isBad_data, Bool.false_eq_true, if_false, CkBuf.bytes]

theorem login_user_eq_ok {t : TokenCore} {pin : Bytes} :
    (t.login ckuUser pin).1 = .ok ↔
      t.user.locked = false ∧ t.user.isSet = true ∧ t.user.buf.stored = pin :=
  PinState.verifyPinWithLockout_eq_ok (by decide)

theorem login_so_eq_ok {t : TokenCore} {pin : Bytes} :
    (t.login ckuSo pin).1 = .ok ↔
      t.so.locked = false ∧ t.so.isSet = true ∧ t.so.buf.stored = pin :=
  PinState.verifyPinWithLockout_eq_ok (by decide)

theorem setUserPin_eq_ok {t : TokenCore} {old new : Bytes} :
    (t.setUserPin old new).1 = .ok ↔
      t.user.isSet = true ∧ t.user.buf.stored = old ∧ new.length ≤ pinCapacity :=
  PinState.setPin_eq_ok (by decide)

/-- On byte strings both branches of `C_SetPIN` are the same change of the user PIN. -/
theorem setPin_data (t : TokenCore) (old new : Bytes) :
    t.setPin (.data old) (.data new) = t.setUserPin old new := by
  cases old with
  | nil => rfl
  | cons b bs => simp [setPin, call, changeUserPin]

end TokenCore

end VirtualHsm
