import VirtualHsm.Pkcs11.Module

/-!
# PIN guessing and the lockout

Two entry points compare a candidate with the user PIN: `C_Login`, which counts failures and
honours the lock, and `C_SetPIN`, which does neither. The token alone is the abstract machine;
the entry points refine it call by call.
-/

namespace VirtualHsm

/-- A `C_Login(CKU_USER, ...)` or `C_SetPIN` call of a session, with PINs given as byte
strings. -/
inductive PinCall
  | login (handle : CkUlong) (pin : Bytes)
  | setPin (handle : CkUlong) (old new : Bytes)
  deriving DecidableEq, Repr

namespace PinCall

def handle : PinCall → CkUlong
  | login h _ => h
  | setPin h _ _ => h

/-- The PIN that the call offers as the present one. -/
def candidate : PinCall → Bytes
  | login _ pin => pin
  | setPin _ old _ => old

/-- A `C_SetPIN` call is safe on a user PIN that is not locked and with the right old PIN; every
`C_Login` call is safe. -/
def SafeFor (p : PinState) : PinCall → Prop
  | login _ _ => True
  | setPin _ old _ => p.locked = false ∧ old = p.buf.stored

end PinCall

/-- A PIN call on the token itself. -/
def TokenCore.pinCall (t : TokenCore) : PinCall → CkRv × TokenCore
  | .login _ pin => t.login ckuUser pin
  | .setPin _ old new => t.setUserPin old new

/-- A PIN call through the C interface. -/
def Hsm.pinCall (hsm : Hsm) : PinCall → CkRv × Hsm
  | .login handle pin =>
    let r := hsm.cLogin handle ckuUser (.data pin)
    (r.1.rv, r.2)
  | .setPin handle old new => hsm.cSetPIN handle (.data old) (.data new)

/-! ### The token -/

namespace TokenCore

variable {t : TokenCore} {call : PinCall}

/-- What the lockout needs of a token: the limit is positive, the PIN is set, and the counter of
an unlocked PIN is below the limit. -/
structure LockoutInv (max : UInt32) (t : TokenCore) : Prop where
  max_eq : t.maxFailedAttempts = max
  max_pos : 1 ≤ max
  isSet : t.user.isSet = true
  below : t.user.locked = false → t.user.failedAttempts < max

variable {max : UInt32}

theorem pinCall_of_wrong (hinv : LockoutInv max t) (hsafe : call.SafeFor t.user)
    (hlocked : t.user.locked = false) (hwrong : call.candidate ≠ t.user.buf.stored) :
    (t.pinCall call).2 = { t with user := { t.user with
      failedAttempts := t.user.failedAttempts + 1
      locked := max ≤ t.user.failedAttempts + 1 } } := by
  cases call with
  | login handle pin =>
    have hne : t.user.buf.stored ≠ pin := Ne.symm hwrong
    rw [pinCall, login_user, verifyUserPin,
      PinState.verifyPinWithLockout_of_ne hlocked hinv.isSet hne, hinv.max_eq]
  | setPin handle old new => exact absurd hsafe.2 hwrong

theorem pinCall_of_locked (hsafe : call.SafeFor t.user) (hlocked : t.user.locked = true) :
    t.pinCall call = (.pinLocked, t) := by
  cases call with
  | login handle pin =>
    rw [pinCall, login_user, verifyUserPin, PinState.verifyPinWithLockout_of_locked hlocked]
  | setPin handle old new => exact absurd (hlocked.symm.trans hsafe.1) (by decide)

theorem pinCall_of_right (hinv : LockoutInv max t) (hlocked : t.user.locked = false)
    (hright : call.candidate = t.user.buf.stored) : LockoutInv max (t.pinCall call).2 := by
  have hzero : (0 : UInt32) < max := UInt32.lt_of_lt_of_le (by decide) hinv.max_pos
  cases call with
  | login handle pin =>
    have heq : t.user.buf.stored = pin := hright.symm
    rw [pinCall, login_user, verifyUserPin,
      PinState.verifyPinWithLockout_of_eq hlocked hinv.isSet heq]
    exact ⟨hinv.max_eq, hinv.max_pos, hinv.isSet, fun _ => hzero⟩
  | setPin handle old new =>
    have heq : t.user.buf.stored = old := hright.symm
    rw [pinCall, setUserPin, PinState.setPin_of_eq hinv.isSet heq]
    by_cases hlen : new.length ≤ pinCapacity
    · rw [dif_pos hlen]
      exact ⟨hinv.max_eq, hinv.max_pos, hinv.isSet, fun _ => hzero⟩
    · rw [dif_neg hlen]
      exact hinv

theorem LockoutInv.pinCall (hinv : LockoutInv max t)
    (hsafe : call.SafeFor t.user) : LockoutInv max (t.pinCall call).2 := by
  cases hlocked : t.user.locked with
  | true => rwa [pinCall_of_locked hsafe hlocked]
  | false =>
    by_cases hright : call.candidate = t.user.buf.stored
    · exact pinCall_of_right hinv hlocked hright
    · rw [pinCall_of_wrong hinv hsafe hlocked hright]
      refine ⟨hinv.max_eq, hinv.max_pos, hinv.isSet, fun hunlocked => ?_⟩
      simpa using hunlocked

theorem run_of_locked (hlocked : t.user.locked = true) {calls : List PinCall}
    (hsafe : CS.Guarded TokenCore.pinCall (fun t c => c.SafeFor t.user) t calls) :
    CS.run TokenCore.pinCall t calls = t := by
  induction calls with
  | nil => rfl
  | cons call calls ih =>
    have hnext := pinCall_of_locked hsafe.1 hlocked
    have hrest := hsafe.2
    rw [hnext] at hrest
    rw [CS.run_cons, hnext]
    exact ih hrest

section

variable (hinv : LockoutInv max t) {calls : List PinCall}
  (hsafe : CS.Guarded TokenCore.pinCall (fun t c => c.SafeFor t.user) t calls)
  (hwrong : CS.Guarded TokenCore.pinCall (fun t c => c.candidate ≠ t.user.buf.stored) t calls)
include hinv hsafe hwrong

/-- After `n` wrong candidates in a row the PIN is locked or its counter is at least `n`. -/
theorem locked_or_le_of_wrong :
    (CS.run TokenCore.pinCall t calls).user.locked = true ∨
      t.user.failedAttempts.toNat + calls.length ≤
        (CS.run TokenCore.pinCall t calls).user.failedAttempts.toNat := by
  induction calls generalizing t with
  | nil => exact .inr (Nat.le_refl _)
  | cons call calls ih =>
    cases hlocked : t.user.locked with
    | true =>
      rw [run_of_locked hlocked hsafe]
      exact .inl hlocked
    | false =>
      have hnext := pinCall_of_wrong hinv hsafe.1 hlocked hwrong.1
      rcases ih (hinv.pinCall hsafe.1) hsafe.2 hwrong.2 with hend | hend
      · exact .inl hend
      · refine .inr ?_
        -- The counter is below the limit, so the addition does not wrap.
        have hcount : (t.pinCall call).2.user.failedAttempts.toNat =
            t.user.failedAttempts.toNat + 1 := by
          rw [hnext]
          have hlt := UInt32.lt_iff_toNat_lt.mp (hinv.below hlocked)
          have hmax := max.toNat_lt
          rw [UInt32.toNat_add]
          change (_ + 1) % 2 ^ 32 = _
          omega
        rw [hcount] at hend
        rw [CS.run_cons, List.length_cons]
        omega

/-- As many wrong candidates in a row as the limit allows lock the PIN. -/
theorem locked_of_wrong (hcount : calls.length = max.toNat) :
    (CS.run TokenCore.pinCall t calls).user.locked = true := by
  have hend : LockoutInv max (CS.run TokenCore.pinCall t calls) :=
    hsafe.invariant (fun _ _ hs hok => hs.pinCall hok) hinv
  rcases locked_or_le_of_wrong hinv hsafe hwrong with hlocked | hle
  · exact hlocked
  · by_contra hunlocked
    have hbelow := UInt32.lt_iff_toNat_lt.mp (hend.below (Bool.eq_false_of_not_eq_true hunlocked))
    omega

end

end TokenCore

/-! ### The module refines the token -/

namespace Hsm

/-- The module is initialised and the slot holds the token. -/
structure Serves (hsm : Hsm) (slotId : CkUlong) (t : TokenCore) : Prop where
  initialized : hsm.initialized = true
  getToken : hsm.getToken slotId = some t

variable {hsm : Hsm} {slotId : CkUlong} {t : TokenCore} {call : PinCall}

/-- A call of the module is the call of the token: the slot then holds the token's next state,
sessions of the slot stay open, and a refusal is passed on. -/
theorem Serves.pinCall (h : hsm.Serves slotId t) (hsession : hsm.IsSessionOf slotId call.handle) :
    (hsm.pinCall call).2.Serves slotId (t.pinCall call).2 ∧
    (∀ handle, hsm.IsSessionOf slotId handle → (hsm.pinCall call).2.IsSessionOf slotId handle) ∧
    ((t.pinCall call).1 ≠ .ok → (hsm.pinCall call).1 = (t.pinCall call).1) := by
  obtain ⟨s, hs, rfl, hst⟩ := sessionToken_of_isSessionOf hsession h.getToken
  have htoken (t' : TokenCore) : (hsm.setToken s.slotId t').getToken s.slotId = some t' := by simp
  cases call with
  | setPin handle old new =>
    have hcall : hsm.pinCall (.setPin handle old new) =
        ((t.setUserPin old new).1, hsm.setToken s.slotId (t.setUserPin old new).2) := by
      change hsm.sessionToken handle = some (s, t) at hst
      simp only [Hsm.pinCall, cSetPIN, hst, TokenCore.setPin_data]
    rw [hcall]
    exact ⟨⟨h.initialized, htoken _⟩, fun _ hopen => hopen, fun _ => rfl⟩
  | login handle pin =>
    change hsm.getSession handle = some s at hs
    change hsm.sessionToken handle = some (s, t) at hst
    by_cases hok : (t.login ckuUser pin).1 = .ok
    · obtain ⟨-, hnext⟩ := cLogin_of_ok h.initialized hst hok
      refine ⟨?_, ?_, fun hne => absurd hok hne⟩
      · simp only [Hsm.pinCall, hnext]
        exact ⟨h.initialized, htoken _⟩
      · rintro handle' ⟨s', hs', hslot⟩
        have hread := SessionManager.getSession_setSession hs
          ((s.login_handle ckuUser).trans (SessionManager.handle_of_getSession hs)) handle'
        simp only [Hsm.pinCall, hnext]
        by_cases hhandle : handle' = handle
        · exact ⟨_, hread.trans (if_pos hhandle), s.login_slotId ckuUser⟩
        · exact ⟨s', hread.trans ((if_neg hhandle).trans hs'), hslot⟩
    · obtain ⟨hrv, throttle, events, hnext⟩ := cLogin_of_ne_ok h.initialized hst hok
      refine ⟨?_, ?_, fun _ => hrv⟩
      · simp only [Hsm.pinCall, hnext]
        exact ⟨h.initialized, htoken _⟩
      · simp only [Hsm.pinCall, hnext]
        exact fun _ hopen => hopen

/-- All handles of a list of calls are open sessions of the slot. -/
def OpenFor (hsm : Hsm) (slotId : CkUlong) (calls : List PinCall) : Prop :=
  ∀ call ∈ calls, hsm.IsSessionOf slotId call.handle

theorem Serves.openFor_pinCall {calls : List PinCall} (h : hsm.Serves slotId t)
    (hopen : hsm.OpenFor slotId (call :: calls)) : (hsm.pinCall call).2.OpenFor slotId calls := by
  intro later hlater
  exact (h.pinCall (hopen call List.mem_cons_self)).2.1 _
    (hopen later (List.mem_cons_of_mem _ hlater))

theorem Serves.run {calls : List PinCall} (h : hsm.Serves slotId t)
    (hopen : hsm.OpenFor slotId calls) :
    (CS.run Hsm.pinCall hsm calls).Serves slotId (CS.run TokenCore.pinCall t calls) := by
  induction calls generalizing hsm t with
  | nil => exact h
  | cons call calls ih =>
    rw [CS.run_cons, CS.run_cons]
    exact ih (h.pinCall (hopen call List.mem_cons_self)).1 (h.openFor_pinCall hopen)

theorem Serves.openFor_run {pre post : List PinCall} (h : hsm.Serves slotId t)
    (hpre : hsm.OpenFor slotId pre) (hpost : hsm.OpenFor slotId post) :
    (CS.run Hsm.pinCall hsm pre).OpenFor slotId post := by
  induction pre generalizing hsm t with
  | nil => exact hpost
  | cons call pre ih =>
    obtain ⟨hnext, hkeep, -⟩ := h.pinCall (hpre call List.mem_cons_self)
    exact ih hnext (h.openFor_pinCall hpre) fun c hc => hkeep _ (hpost c hc)

theorem openFor_append {as bs : List PinCall} :
    hsm.OpenFor slotId (as ++ bs) ↔ hsm.OpenFor slotId as ∧ hsm.OpenFor slotId bs :=
  List.forall_mem_append

/-- A condition on the token of the slot, read on the module. -/
def OnToken (slotId : CkUlong) (ok : TokenCore → PinCall → Prop) (hsm : Hsm) (call : PinCall) :
    Prop :=
  ∃ t, hsm.getToken slotId = some t ∧ ok t call

theorem Serves.guarded {ok : TokenCore → PinCall → Prop} {calls : List PinCall}
    (h : hsm.Serves slotId t) (hopen : hsm.OpenFor slotId calls)
    (hguard : CS.Guarded Hsm.pinCall (OnToken slotId ok) hsm calls) :
    CS.Guarded TokenCore.pinCall ok t calls := by
  induction calls generalizing hsm t with
  | nil => trivial
  | cons call calls ih =>
    obtain ⟨⟨t', ht', hok⟩, hrest⟩ := hguard
    obtain rfl : t = t' := Option.mem_unique h.getToken ht'
    exact ⟨hok, ih (h.pinCall (hopen call List.mem_cons_self)).1 (h.openFor_pinCall hopen) hrest⟩

end Hsm

/-! ### The bound -/

/-- Once as many calls in a row as the limit have offered a wrong candidate for the slot's user
PIN, every later call of the list answers `CKR_PIN_LOCKED` and leaves the user PIN as it is. -/
def LockoutBound (slotId : CkUlong) (max : UInt32) (hsm : Hsm) (calls : List PinCall) : Prop :=
  ∀ pre wrongs later call rest, calls = pre ++ wrongs ++ later ++ call :: rest →
    wrongs.length = max.toNat →
    CS.Guarded Hsm.pinCall
      (Hsm.OnToken slotId fun t c => c.candidate ≠ t.user.buf.stored)
      (CS.run Hsm.pinCall hsm pre) wrongs →
    let s := CS.run Hsm.pinCall hsm (pre ++ wrongs ++ later)
    (s.pinCall call).1 = .pinLocked ∧
    ((s.pinCall call).2.getToken slotId).map (·.user) = (s.getToken slotId).map (·.user)

/-- From an unlocked user PIN with no failures, the lockout bounds guessing in every run whose
`C_SetPIN` calls are all made with the right old PIN and before the lock. -/
theorem lockoutBound_of_guarded {hsm : Hsm} {slotId : CkUlong} {t : TokenCore}
    {calls : List PinCall} (h : hsm.Serves slotId t) (hmax : 1 ≤ t.maxFailedAttempts)
    (hset : t.user.isSet = true) (hfresh : t.user.locked = false ∧ t.user.failedAttempts = 0)
    (hopen : hsm.OpenFor slotId calls)
    (hsafe : CS.Guarded Hsm.pinCall (Hsm.OnToken slotId fun t c => c.SafeFor t.user) hsm calls) :
    LockoutBound slotId t.maxFailedAttempts hsm calls := by
  rintro pre wrongs later call rest rfl hcount hwrong s
  have hinv : TokenCore.LockoutInv t.maxFailedAttempts t :=
    ⟨rfl, hmax, hset, fun _ => hfresh.2 ▸ UInt32.lt_of_lt_of_le (by decide) hmax⟩
  -- The token's own run, cut at the same places.
  obtain ⟨hsafe, hcall, -⟩ := CS.guarded_append.mp (h.guarded hopen hsafe)
  obtain ⟨hsafe, hlater⟩ := CS.guarded_append.mp hsafe
  obtain ⟨hpre, hwrongs⟩ := CS.guarded_append.mp hsafe
  obtain ⟨hopen, hopenCall⟩ := Hsm.openFor_append.mp hopen
  obtain ⟨⟨hopenPre, hopenWrongs⟩, -⟩ := (Hsm.openFor_append.mp hopen).imp_left
    Hsm.openFor_append.mp
  have hmid : TokenCore.LockoutInv t.maxFailedAttempts (CS.run TokenCore.pinCall t pre) :=
    hpre.invariant (fun _ _ hs hok => hs.pinCall hok) hinv
  have hlocked := TokenCore.locked_of_wrong hmid hwrongs
    ((h.run hopenPre).guarded (h.openFor_run hopenPre hopenWrongs) hwrong) hcount
  rw [← CS.run_append] at hlocked
  -- From there on neither the token nor its answer moves.
  have hstay := TokenCore.run_of_locked hlocked hlater
  rw [← CS.run_append] at hstay
  rw [hstay] at hcall
  have hserve : s.Serves slotId (CS.run TokenCore.pinCall t (pre ++ wrongs)) :=
    hstay ▸ h.run hopen
  obtain ⟨hnext, -, hanswer⟩ :=
    hserve.pinCall (h.openFor_run hopen hopenCall call List.mem_cons_self)
  rw [TokenCore.pinCall_of_locked hcall hlocked] at hnext hanswer
  refine ⟨hanswer (by simp), ?_⟩
  rw [hnext.getToken, hserve.getToken]

/-- A token with user PIN `1234` that locks at the first failure. -/
def strictToken : TokenCore :=
  CS.run TokenCore.call (TokenCore.fresh [116] [48])
    [.initializeUserPin (.data [49, 50, 51, 52]), .setMaxFailedAttempts 1]

/-- Slot 0 with that token and one open session. -/
def strictHsm : Hsm :=
  (({ initialized := true, slots := fun i => if i = 0 then some (some strictToken) else none } :
    Hsm).cOpenSession 0 (ckfRwSession ||| ckfSerialSession)).2

/-- A wrong login and then the right PIN: the hypotheses hold and the second call is refused. -/
theorem lockoutBound_strictHsm :
    LockoutBound 0 1 strictHsm [.login 1 [48], .login 1 [49, 50, 51, 52]] := by
  have hserve : strictHsm.Serves 0 strictToken := ⟨rfl, rfl⟩
  have hopen : strictHsm.IsSessionOf 0 (PinCall.login 1 [48]).handle := ⟨_, rfl, rfl⟩
  have hnext := (hserve.pinCall hopen).1
  refine lockoutBound_of_guarded hserve (by decide) (by decide) (by decide) ?_ ?_
  · intro call hcall
    rcases List.mem_pair.mp hcall with rfl | rfl
    · exact hopen
    · exact hopen
  · exact ⟨⟨_, hserve.getToken, trivial⟩, ⟨_, hnext.getToken, trivial⟩, trivial⟩

/-- A wrong old PIN given to `C_SetPIN` is not counted: the login after it succeeds. -/
theorem not_lockoutBound_strictHsm :
    CS.answers Hsm.pinCall strictHsm [.setPin 1 [48] [53], .login 1 [49, 50, 51, 52]] =
      [.pinIncorrect, .ok] ∧
    ¬ LockoutBound 0 1 strictHsm [.setPin 1 [48] [53], .login 1 [49, 50, 51, 52]] := by
  have hanswers : CS.answers Hsm.pinCall strictHsm
      [.setPin 1 [48] [53], .login 1 [49, 50, 51, 52]] = [.pinIncorrect, .ok] := by
    decide +kernel
  refine ⟨hanswers, fun hbound => ?_⟩
  have hlocked := (hbound [] [.setPin 1 [48] [53]] [] (.login 1 [49, 50, 51, 52]) [] rfl rfl
    ⟨⟨strictToken, rfl, by decide⟩, trivial⟩).1
  have hok := (List.cons.inj (List.cons.inj hanswers).2).1
  exact absurd (hlocked.symm.trans hok) (by decide)

end VirtualHsm
