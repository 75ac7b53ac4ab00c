import VirtualHsm.Keystore.Token

/-!
# The two PIN roles

User and security officer log in to one token with a PIN each. The roles share nothing but the
threshold: for each of them the calls of the other one might as well not have been made. A role
whose counter has reached the threshold is locked, also after the threshold was lowered, and no
threshold unlocks it again.
-/

namespace VirtualHsm

/-! ### Roles and calls -/

inductive PinRole
  | user
  | so
  deriving DecidableEq, Repr

namespace PinRole

def userType : PinRole → CkUlong
  | user => ckuUser
  | so => ckuSo

def alreadyInitialized : PinRole → CkRv
  | user => .userPinAlreadyInitialized
  | so => .soPinAlreadyInitialized

def notInitialized : PinRole → CkRv
  | user => .userPinNotInitialized
  | so => .soPinNotInitialized

theorem alreadyInitialized_ne_ok (role : PinRole) : role.alreadyInitialized ≠ .ok := by
  cases role <;> decide

theorem notInitialized_ne_ok (role : PinRole) : role.notInitialized ≠ .ok := by
  cases role <;> decide

end PinRole

/-- A call of one of the roles, or a new threshold. -/
inductive RoleCall
  | initializePin (role : PinRole) (pin : Bytes)
  | login (role : PinRole) (candidate : Bytes)
  | setMaxFailedAttempts (max : UInt32) (pos : 1 ≤ max)
  deriving DecidableEq, Repr

/-- The call is one of the role or sets the threshold. -/
def RoleCall.concerns (role : PinRole) : RoleCall → Bool
  | initializePin r _ => r = role
  | login r _ => r = role
  | setMaxFailedAttempts .. => true

namespace TokenCore

def roleCall (t : TokenCore) : RoleCall → CkRv × TokenCore
  | .initializePin .user pin => t.initializeUserPin pin
  | .initializePin .so pin => t.initializeSoPin pin
  | .login role candidate => t.login role.userType candidate
  | .setMaxFailedAttempts max _ => (.ok, t.setMaxFailedAttempts max)

/-- The PIN of a role. -/
def pin (t : TokenCore) : PinRole → PinState
  | .user => t.user
  | .so => t.so

/-- The token with another PIN for the role. -/
def withPin (t : TokenCore) (role : PinRole) (p : PinState) : TokenCore :=
  match role with
  | .user => { t with user := p }
  | .so => { t with so := p }

variable (t : TokenCore)

theorem pin_withPin (role role' : PinRole) (p : PinState) :
    (t.withPin role p).pin role' = if role' = role then p else t.pin role' := by
  cases role <;> cases role' <;> rfl

theorem pin_withPin_self (role : PinRole) (p : PinState) : (t.withPin role p).pin role = p := by
  rw [pin_withPin, if_pos rfl]

@[simp] theorem maxFailedAttempts_withPin (role : PinRole) (p : PinState) :
    (t.withPin role p).maxFailedAttempts = t.maxFailedAttempts := by
  cases role <;> rfl

theorem roleCall_initializePin (role : PinRole) (pin : Bytes) :
    t.roleCall (.initializePin role pin) =
      (((t.pin role).initializePin pin role.alreadyInitialized).1,
        t.withPin role ((t.pin role).initializePin pin role.alreadyInitialized).2) := by
  cases role <;> rfl

theorem roleCall_login (role : PinRole) (candidate : Bytes) :
    t.roleCall (.login role candidate) =
      (((t.pin role).verifyPinWithLockout candidate role.notInitialized t.maxFailedAttempts).1,
        t.withPin role
          ((t.pin role).verifyPinWithLockout candidate role.notInitialized
            t.maxFailedAttempts).2) := by
  cases role <;> rfl

theorem pin_setMaxFailedAttempts (role : PinRole) (max : UInt32) :
    (t.setMaxFailedAttempts max).pin role =
      { t.pin role with locked := (t.pin role).locked || max ≤ (t.pin role).failedAttempts } := by
  cases role <;> rfl

/-! ### Independence -/

/-- The tokens have the same PIN of the role and the same threshold. -/
def SameRole (role : PinRole) (t t' : TokenCore) : Prop :=
  t.pin role = t'.pin role ∧ t.maxFailedAttempts = t'.maxFailedAttempts

variable {t} {t' : TokenCore} {role : PinRole} {c : RoleCall}

theorem SameRole.of_not_concerns (h : SameRole role t t') (hc : c.concerns role = false) :
    SameRole role (t.roleCall c).2 t' := by
  cases c with
  | initializePin role' pin | login role' candidate =>
    have hne : role ≠ role' := fun heq => of_decide_eq_false hc heq.symm
    simp only [roleCall_initializePin, roleCall_login]
    exact ⟨by rw [pin_withPin, if_neg hne, h.1], (maxFailedAttempts_withPin t _ _).trans h.2⟩
  | setMaxFailedAttempts max pos => cases hc

/-- A call of the role answers by the PIN of the role and by the threshold, and touches only
these. -/
theorem SameRole.of_concerns (h : SameRole role t t') (hc : c.concerns role = true) :
    (t.roleCall c).1 = (t'.roleCall c).1 ∧ SameRole role (t.roleCall c).2 (t'.roleCall c).2 := by
  obtain ⟨hpin, hmax⟩ := h
  cases c with
  | initializePin role' pin | login role' candidate =>
    obtain rfl : role' = role := of_decide_eq_true hc
    simp only [roleCall_initializePin, roleCall_login, hpin, hmax]
    refine ⟨trivial, ?_, ?_⟩
    · rw [pin_withPin_self, pin_withPin_self]
    · rw [maxFailedAttempts_withPin, maxFailedAttempts_withPin, hmax]
  | setMaxFailedAttempts max pos =>
    refine ⟨rfl, ?_, rfl⟩
    change (t.setMaxFailedAttempts max).pin role = (t'.setMaxFailedAttempts max).pin role
    rw [pin_setMaxFailedAttempts, pin_setMaxFailedAttempts, hpin]

/-! ### What a call does to a role -/

/-- The call is a login of the role with a candidate that is compared with the PIN and differs. -/
def comparesWrong (role : PinRole) (t : TokenCore) : RoleCall → Bool
  | .login r candidate =>
    r = role ∧ (t.pin role).locked = false ∧ (t.pin role).isSet = true ∧
      (t.pin role).buf.stored ≠ candidate
  | _ => false

/-- The call initialises the PIN of the role, or logs the role in. -/
def restarts (role : PinRole) (t : TokenCore) (c : RoleCall) : Prop :=
  ∃ pin, (c = .initializePin role pin ∨ c = .login role pin) ∧ (t.roleCall c).1 = .ok

/-- What a call does to the PIN of a role. -/
inductive RoleStep (role : PinRole) (t t' : TokenCore) : RoleCall → CkRv → Prop
  | set (pin : Bytes) (hlen : pin.length ≤ pinCapacity) (hunset : (t.pin role).isSet = false)
      (hpin : t'.pin role = { t.pin role with
        buf := (t.pin role).buf.write pin hlen, isSet := true, failedAttempts := 0,
        locked := false })
      (hmax : t'.maxFailedAttempts = t.maxFailedAttempts) :
      RoleStep role t t' (.initializePin role pin) .ok
  | accepted (candidate : Bytes) (hlocked : (t.pin role).locked = false)
      (hset : (t.pin role).isSet = true) (heq : (t.pin role).buf.stored = candidate)
      (hpin : t'.pin role = { t.pin role with failedAttempts := 0, locked := false })
      (hmax : t'.maxFailedAttempts = t.maxFailedAttempts) :
      RoleStep role t t' (.login role candidate) .ok
  | wrong (candidate : Bytes) (rv : CkRv) (hrv : rv ≠ .ok)
      (hcompared : comparesWrong role t (.login role candidate) = true)
      (hpin : t'.pin role = { t.pin role with
        failedAttempts := (t.pin role).failedAttempts + 1
        locked := t.maxFailedAttempts ≤ (t.pin role).failedAttempts + 1 })
      (hmax : t'.maxFailedAttempts = t.maxFailedAttempts) :
      RoleStep role t t' (.login role candidate) rv
  | threshold (max : UInt32) (pos : 1 ≤ max)
      (hpin : t'.pin role = { t.pin role with
        locked := (t.pin role).locked || max ≤ (t.pin role).failedAttempts })
      (hmax : t'.maxFailedAttempts = max) :
      RoleStep role t t' (.setMaxFailedAttempts max pos) .ok
  | kept (c : RoleCall) (rv : CkRv) (hpin : t'.pin role = t.pin role)
      (hmax : t'.maxFailedAttempts = t.maxFailedAttempts)
      (hrv : ∀ pin, c = .initializePin role pin ∨ c = .login role pin → rv ≠ .ok)
      (hcompared : comparesWrong role t c = false) : RoleStep role t t' c rv

theorem roleStep_initializePin (role : PinRole) (t : TokenCore) (pin : Bytes) :
    RoleStep role t (t.roleCall (.initializePin role pin)).2 (.initializePin role pin)
      (t.roleCall (.initializePin role pin)).1 := by
  have hpin := t.pin_withPin_self role
  rw [roleCall_initializePin, PinState.initializePin]
  split_ifs with hset hlen
  · exact .kept _ _ (hpin _) (maxFailedAttempts_withPin ..)
      (fun _ _ => role.alreadyInitialized_ne_ok) rfl
  · exact .set pin hlen (Bool.eq_false_of_not_eq_true hset) (hpin _) (maxFailedAttempts_withPin ..)
  · exact .kept _ .pinLenRange (hpin _) (maxFailedAttempts_withPin ..) (fun _ _ => by decide) rfl

theorem roleStep_login (role : PinRole) (t : TokenCore) (candidate : Bytes) :
    RoleStep role t (t.roleCall (.login role candidate)).2 (.login role candidate)
      (t.roleCall (.login role candidate)).1 := by
  have hpin := t.pin_withPin_self role
  rw [roleCall_login]
  cases hlocked : (t.pin role).locked with
  | true =>
    rw [PinState.verifyPinWithLockout_of_locked hlocked]
    exact .kept _ .pinLocked (hpin _) (maxFailedAttempts_withPin ..) (fun _ _ => by decide)
      (by simp [comparesWrong, hlocked])
  | false =>
    cases hset : (t.pin role).isSet with
    | false =>
      rw [PinState.verifyPinWithLockout, hlocked, hset]
      exact .kept _ _ (hpin _) (maxFailedAttempts_withPin ..)
        (fun _ _ => role.notInitialized_ne_ok) (by simp [comparesWrong, hset])
    | true =>
      by_cases heq : (t.pin role).buf.stored = candidate
      · rw [PinState.verifyPinWithLockout_of_eq hlocked hset heq]
        exact .accepted candidate hlocked hset heq (hpin _) (maxFailedAttempts_withPin ..)
      · rw [PinState.verifyPinWithLockout_of_ne hlocked hset heq]
        refine .wrong candidate _ ?_ ?_ (hpin _) (maxFailedAttempts_withPin ..)
        · dsimp only
          split_ifs <;> decide
        · simp [comparesWrong, hlocked, hset, heq]

theorem roleStep (role : PinRole) (t : TokenCore) (c : RoleCall) :
    RoleStep role t (t.roleCall c).2 c (t.roleCall c).1 := by
  by_cases hc : c.concerns role = true
  · cases c with
    | initializePin role' pin =>
      obtain rfl : role' = role := of_decide_eq_true hc
      exact roleStep_initializePin role' t pin
    | login role' candidate =>
      obtain rfl : role' = role := of_decide_eq_true hc
      exact roleStep_login role' t candidate
    | setMaxFailedAttempts max pos =>
      exact .threshold max pos (pin_setMaxFailedAttempts t role max) rfl
  · -- A call of the other role.
    obtain ⟨hpin, hmax⟩ :=
      SameRole.of_not_concerns ⟨rfl, rfl⟩ (Bool.eq_false_of_not_eq_true hc)
    refine .kept c _ hpin hmax ?_ ?_
    · rintro pin (rfl | rfl) <;> exact absurd (decide_eq_true rfl) hc
    · cases c with
      | login role' candidate =>
        have hne : role' ≠ role := fun heq => hc (decide_eq_true heq)
        simp [comparesWrong, hne]
      | _ => rfl

/-! ### Rules for a role -/

/-- The threshold is positive, and an unlocked role is below it. -/
structure Enforced (role : PinRole) (t : TokenCore) : Prop where
  max_pos : 1 ≤ t.maxFailedAttempts
  below : (t.pin role).locked = false → (t.pin role).failedAttempts < t.maxFailedAttempts

section Step

variable {rv : CkRv} (hstep : RoleStep role t t' c rv)
include hstep

theorem RoleStep.enforced (h : Enforced role t) : Enforced role t' := by
  obtain ⟨hpos, hbelow⟩ := h
  have hzero : 0 < t.maxFailedAttempts := UInt32.lt_of_lt_of_le (by decide) hpos
  cases hstep with
  | set pin hlen hunset hpin hmax | accepted candidate hlocked hset heq hpin hmax =>
    refine ⟨hmax ▸ hpos, fun _ => ?_⟩
    rw [hpin, hmax]
    exact hzero
  | wrong candidate _ hrv hcompared hpin hmax =>
    refine ⟨hmax ▸ hpos, fun hunlocked => ?_⟩
    rw [hpin] at hunlocked
    rw [hpin, hmax]
    exact UInt32.not_le.mp (of_decide_eq_false hunlocked)
  | threshold max pos hpin hmax =>
    -- A lower threshold locks a role that has reached it already.
    refine ⟨hmax ▸ pos, fun hunlocked => ?_⟩
    rw [hpin] at hunlocked
    rw [hpin, hmax]
    exact UInt32.not_le.mp (of_decide_eq_false (Bool.or_eq_false_iff.mp hunlocked).2)
  | kept _ _ hpin hmax hrv hcompared =>
    rw [← hmax] at hpos
    refine ⟨hpos, fun hunlocked => ?_⟩
    rw [hpin] at hunlocked ⊢
    rw [hmax]
    exact hbelow hunlocked

/-- Where nothing restarts the counter it counts the wrong candidates; it does not wrap, being
below the threshold. -/
theorem RoleStep.failedAttempts (h : Enforced role t)
    (hrv : ∀ pin, c = .initializePin role pin ∨ c = .login role pin → rv ≠ .ok) :
    (t'.pin role).failedAttempts.toNat =
      (t.pin role).failedAttempts.toNat + (comparesWrong role t c).toNat := by
  cases hstep with
  | set pin => exact absurd rfl (hrv pin (.inl rfl))
  | accepted candidate => exact absurd rfl (hrv candidate (.inr rfl))
  | wrong candidate _ _ hcompared hpin hmax =>
    -- A candidate is compared only while the role is not locked, so the counter has room.
    have hunlocked : (t.pin role).locked = false := (of_decide_eq_true hcompared).2.1
    have hlt := UInt32.lt_iff_toNat_lt.mp (h.below hunlocked)
    have hbound := t.maxFailedAttempts.toNat_lt
    rw [hpin, hcompared]
    change ((t.pin role).failedAttempts + 1).toNat = _ + 1
    rw [UInt32.toNat_add]
    change (_ + 1) % 2 ^ 32 = _
    omega
  | threshold max pos hpin hmax =>
    rw [hpin]
    rfl
  | kept _ _ hpin hmax _ hcompared =>
    rw [hpin, hcompared]
    rfl

theorem RoleStep.failedAttempts_of_ok {pin : Bytes}
    (hc : c = .initializePin role pin ∨ c = .login role pin) (hok : rv = .ok) :
    (t'.pin role).failedAttempts = 0 := by
  cases hstep with
  | set _ _ _ hpin hmax => rw [hpin]
  | accepted _ _ _ _ hpin hmax => rw [hpin]
  | wrong _ _ hrv => exact absurd hok hrv
  | threshold max pos => rcases hc with hc | hc <;> cases hc
  | kept _ _ _ _ hrv => exact absurd hok (hrv pin hc)

/-- The PIN of a role is the one it was initialised with. -/
theorem RoleStep.stored_iff (pin : Bytes) :
    ((t'.pin role).isSet = true ∧ (t'.pin role).buf.stored = pin) ↔
      ((t.pin role).isSet = true ∧ (t.pin role).buf.stored = pin) ∨
        (c = .initializePin role pin ∧ rv = .ok) := by
  cases hstep with
  | set pin' hlen hunset hpin hmax =>
    rw [hpin, hunset, PinBuffer.stored_write]
    simp
  | accepted _ _ _ _ hpin | wrong _ _ hrv _ hpin | threshold max pos hpin => simp [hpin]
  | kept _ _ hpin _ hrv =>
    rw [hpin]
    refine ⟨.inl, fun h => h.resolve_right fun hset => ?_⟩
    exact hrv pin (.inl hset.1) hset.2

theorem RoleStep.failedAttempts_of_unset
    (h : (t.pin role).isSet = false → (t.pin role).failedAttempts = 0)
    (hunset : (t'.pin role).isSet = false) : (t'.pin role).failedAttempts = 0 := by
  cases hstep with
  | set _ _ _ hpin => rw [hpin]
  | accepted _ _ _ _ hpin => rw [hpin]
  | wrong _ _ _ hcompared hpin =>
    have hset : (t.pin role).isSet = true := (of_decide_eq_true hcompared).2.2.1
    rw [hpin] at hunset
    exact absurd (hset.symm.trans hunset) (by decide)
  | threshold _ _ hpin | kept _ _ hpin =>
    rw [hpin] at hunset ⊢
    exact h hunset

end Step

/-! ### Runs -/

/-- As long as nothing restarts the counter it counts the wrong candidates. -/
theorem failedAttempts_run (h : Enforced role t) {calls : List RoleCall}
    (hnone : ¬ CS.Occurs roleCall (restarts role) t calls) :
    ((CS.run roleCall t calls).pin role).failedAttempts.toNat =
      (t.pin role).failedAttempts.toNat + CS.occurrences roleCall (comparesWrong role) t calls := by
  induction calls generalizing t with
  | nil => rfl
  | cons c calls ih =>
    obtain ⟨hfirst, hrest⟩ := not_or.mp hnone
    have hstep := roleStep role t c
    have hcount := hstep.failedAttempts h fun pin hc hok => hfirst ⟨pin, hc, hok⟩
    rw [CS.run_cons, ih (hstep.enforced h) hrest, hcount, CS.occurrences, Nat.add_assoc]

theorem enforced_fresh (role : PinRole) (label id : Bytes) : Enforced role (fresh label id) := by
  have hmax : (1 : UInt32) ≤ 5 := by decide
  have hbelow : (0 : UInt32) < 5 := by decide
  cases role <;> exact ⟨hmax, fun _ => hbelow⟩

/-- A new token after calls of the roles. -/
def afterCalls (label id : Bytes) (calls : List RoleCall) : TokenCore :=
  CS.run roleCall (fresh label id) calls

theorem enforced_afterCalls (role : PinRole) (label id : Bytes) (calls : List RoleCall) :
    Enforced role (afterCalls label id calls) :=
  CS.Reachable.invariant (fun t c h => (roleStep role t c).enforced h) ⟨calls, rfl⟩
    (enforced_fresh role label id)

/-- What holds of a role after any calls on a new token. -/
structure PinRules (role : PinRole) (label id : Bytes) (calls : List RoleCall) : Prop where
  /-- The calls of the role and those for the threshold answer as without the other role. -/
  answers : (CS.history roleCall (fresh label id) calls).filter (fun x => x.1.concerns role) =
    CS.history roleCall (fresh label id) (calls.filter (RoleCall.concerns role))
  /-- So do the PIN, the counter and the lock of the role come out. -/
  pin : (afterCalls label id calls).pin role =
    (afterCalls label id (calls.filter (RoleCall.concerns role))).pin role
  /-- The PIN is the one of the initialisation that was accepted. -/
  stored_iff : ∀ pin, (((afterCalls label id calls).pin role).isSet = true ∧
      ((afterCalls label id calls).pin role).buf.stored = pin) ↔
    CS.Occurs roleCall (fun t c => c = .initializePin role pin ∧ (t.roleCall c).1 = .ok)
      (fresh label id) calls
  /-- A login succeeds with the PIN of an unlocked role. -/
  login_iff : ∀ candidate,
    ((afterCalls label id calls).roleCall (.login role candidate)).1 = .ok ↔
      ((afterCalls label id calls).pin role).locked = false ∧
      ((afterCalls label id calls).pin role).isSet = true ∧
      ((afterCalls label id calls).pin role).buf.stored = candidate
  /-- The counter is the number of wrong candidates that were compared since the last restart. -/
  failedAttempts : ∀ before c after, calls = before ++ c :: after →
    restarts role (afterCalls label id before) c →
    ¬ CS.Occurs roleCall (restarts role) (afterCalls label id (before ++ [c])) after →
    ((afterCalls label id calls).pin role).failedAttempts.toNat =
      CS.occurrences roleCall (comparesWrong role) (afterCalls label id (before ++ [c])) after
  /-- Before the first restart it is zero. -/
  failedAttempts_zero : ¬ CS.Occurs roleCall (restarts role) (fresh label id) calls →
    ((afterCalls label id calls).pin role).failedAttempts = 0
  /-- A role at the threshold is locked. -/
  locked : (afterCalls label id calls).maxFailedAttempts ≤
      ((afterCalls label id calls).pin role).failedAttempts →
    ((afterCalls label id calls).pin role).locked = true
  /-- No threshold unlocks a role. -/
  locked_setMaxFailedAttempts : ∀ max, ((afterCalls label id calls).pin role).locked = true →
    (((afterCalls label id calls).setMaxFailedAttempts max).pin role).locked = true

theorem stored_afterCalls_iff (role : PinRole) (label id : Bytes) (calls : List RoleCall)
    (pin : Bytes) :
    (((afterCalls label id calls).pin role).isSet = true ∧
      ((afterCalls label id calls).pin role).buf.stored = pin) ↔
    CS.Occurs roleCall (fun t c => c = .initializePin role pin ∧ (t.roleCall c).1 = .ok)
      (fresh label id) calls := by
  have hrun : ∀ t, (((CS.run roleCall t calls).pin role).isSet = true ∧
      ((CS.run roleCall t calls).pin role).buf.stored = pin) ↔
      ((t.pin role).isSet = true ∧ (t.pin role).buf.stored = pin) ∨
        CS.Occurs roleCall (fun t c => c = .initializePin role pin ∧ (t.roleCall c).1 = .ok)
          t calls := by
    induction calls with
    | nil => exact fun t => (or_iff_left not_false).symm
    | cons c calls ih =>
      intro t
      rw [CS.run_cons, ih, (roleStep role t c).stored_iff pin, or_assoc]
      exact Iff.rfl
  rw [afterCalls, hrun]
  refine or_iff_right ?_
  cases role <;> exact fun hset => Bool.false_ne_true hset.1

theorem failedAttempts_of_not_restarts (role : PinRole) (label id : Bytes) {calls : List RoleCall}
    (hnone : ¬ CS.Occurs roleCall (restarts role) (fresh label id) calls) :
    ((afterCalls label id calls).pin role).failedAttempts = 0 := by
  have hinv : ((afterCalls label id calls).pin role).isSet = false →
      ((afterCalls label id calls).pin role).failedAttempts = 0 :=
    CS.Reachable.invariant (fun t c h => (roleStep role t c).failedAttempts_of_unset h)
      ⟨calls, rfl⟩ (by cases role <;> exact fun _ => rfl)
  apply hinv
  by_contra hset
  have hstored := (stored_afterCalls_iff role label id calls _).mp
    ⟨Bool.eq_true_of_not_eq_false hset, rfl⟩
  exact hnone (hstored.imp fun _ _ hset => ⟨_, .inl hset.1, hset.2⟩)

/-- The rules hold for both roles, whatever calls are made. -/
theorem pinRules (role : PinRole) (label id : Bytes) (calls : List RoleCall) :
    PinRules role label id calls := by
  have hsame : SameRole role (fresh label id) (fresh label id) := ⟨rfl, rfl⟩
  obtain ⟨hanswers, hend⟩ := CS.history_filter (fun _ _ _ => SameRole.of_not_concerns)
    (fun _ _ _ => SameRole.of_concerns) hsame calls
  have henforced := enforced_afterCalls role label id calls
  refine ⟨hanswers, hend.1, stored_afterCalls_iff role label id calls, ?_, ?_,
    failedAttempts_of_not_restarts role label id, ?_, ?_⟩
  · intro candidate
    rw [roleCall_login]
    exact PinState.verifyPinWithLockout_eq_ok role.notInitialized_ne_ok
  · rintro before c after rfl ⟨pin, hc, hok⟩ hnone
    have hzero : ((afterCalls label id (before ++ [c])).pin role).failedAttempts = 0 := by
      rw [afterCalls, CS.run_append]
      exact (roleStep role _ c).failedAttempts_of_ok hc hok
    have hcount := failedAttempts_run (enforced_afterCalls role label id (before ++ [c])) hnone
    rw [hzero] at hcount
    rw [List.append_cons, afterCalls, CS.run_append]
    exact hcount.trans (Nat.zero_add _)
  · intro hle
    by_contra hunlocked
    exact UInt32.not_lt.mpr hle (henforced.below (Bool.eq_false_of_not_eq_true hunlocked))
  · intro max hlocked
    rw [pin_setMaxFailedAttempts]
    exact Bool.or_eq_true_iff.mpr (.inl hlocked)

end TokenCore

end VirtualHsm
