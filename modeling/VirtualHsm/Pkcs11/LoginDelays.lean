import VirtualHsm.Pkcs11.Module

/-!
# Delays before a login attempt

From a threshold on, every failure in a row is meant to double the delay before the next attempt, up
to a maximum. The code shifts a 32-bit number by at most sixteen places: a large base is shifted
out of the word, so that the delay falls back, down to zero; a small base stops short of the
maximum; and with a threshold of zero a key without failures has no entry and so no delay.
-/

namespace VirtualHsm

inductive ThrottleCall
  | recordFailure (key : String)
  | recordSuccess (key : String)
  deriving DecidableEq, Repr

namespace ThrottleCall

def key : ThrottleCall → String
  | recordFailure key | recordSuccess key => key

def isFailure : ThrottleCall → Bool
  | recordFailure _ => true
  | recordSuccess _ => false

end ThrottleCall

/-- The failures of a key since its last success, after one more call. -/
def failuresNext (key : String) (n : Nat) (c : ThrottleCall) : Nat :=
  if c.key = key then if c.isFailure then n + 1 else 0 else n

variable (key : String)

theorem failuresNext_failure (n : Nat) :
    failuresNext key n (.recordFailure key) = n + 1 := if_pos rfl

theorem failuresNext_success (n : Nat) : failuresNext key n (.recordSuccess key) = 0 := if_pos rfl

theorem failuresNext_of_ne {key : String} {c : ThrottleCall} (h : c.key ≠ key) (n : Nat) :
    failuresNext key n c = n := if_neg h

/-- The failures of a key since its last success. -/
def failuresOf (key : String) (calls : List ThrottleCall) : Nat :=
  calls.foldl (failuresNext key) 0

theorem failuresOf_concat (calls : List ThrottleCall) (c : ThrottleCall) :
    failuresOf key (calls ++ [c]) = failuresNext key (failuresOf key calls) c := by
  rw [failuresOf, List.foldl_append]
  rfl

theorem failuresOf_le (calls : List ThrottleCall) :
    failuresOf key calls ≤ calls.countP (·.isFailure) := by
  induction calls using List.reverseRecOn with
  | nil => exact le_rfl
  | append_singleton calls c ih =>
    rw [failuresOf_concat, List.countP_append, List.countP_singleton, failuresNext]
    split_ifs <;> omega

theorem failuresOf_filter (calls : List ThrottleCall) :
    failuresOf key (calls.filter (·.key = key)) = failuresOf key calls := by
  rw [failuresOf, List.foldl_filter, failuresOf]
  congr 1
  funext n c
  by_cases hkey : c.key = key
  · simp [hkey]
  · simp [failuresNext, hkey]

namespace LoginThrottle

def call (th : LoginThrottle) : ThrottleCall → Unit × LoginThrottle
  | .recordFailure key => ((), th.recordFailure key)
  | .recordSuccess key => ((), th.recordSuccess key)

/-- A new throttle with a policy. -/
def fresh (softThreshold baseDelayMs maxDelayMs : UInt32) : LoginThrottle :=
  { softThreshold, baseDelayMs, maxDelayMs }

/-- The delay in milliseconds after a number of failures in a row, without overflow. -/
def doubledDelay (soft base max failures : Nat) : Nat :=
  if failures < soft then 0 else min (base * 2 ^ (failures - soft)) max

/-- The delay that the shift gives. -/
def shiftedDelay (soft base max failures : Nat) : Nat :=
  if failures = 0 ∨ failures < soft then 0
  else min (base * 2 ^ min (failures - soft) 16 % 2 ^ 32) max

variable (soft base max : UInt32)

/-- The delay for a key after calls to a new throttle. -/
def delayAfter (calls : List ThrottleCall) (key : String) : UInt32 :=
  (CS.run call (fresh soft base max) calls).delayBeforeAttempt key

/-- After every history with a number of failures that fits the counters, the delay of a key is
doubled with each of its failures in a row, up to the maximum; so one more failure never shortens
it, and other keys have no part in it. -/
structure DelaysGrow : Prop where
  doubled : ∀ calls key, calls.countP (·.isFailure) < 2 ^ 32 →
    (delayAfter soft base max calls key).toNat =
      doubledDelay soft.toNat base.toNat max.toNat (failuresOf key calls)
  mono : ∀ calls key, (calls ++ [.recordFailure key]).countP (·.isFailure) < 2 ^ 32 →
    delayAfter soft base max calls key ≤
      delayAfter soft base max (calls ++ [.recordFailure key]) key
  apart : ∀ calls key, calls.countP (·.isFailure) < 2 ^ 32 →
    delayAfter soft base max calls key =
      delayAfter soft base max (calls.filter (·.key = key)) key

/-- No shift that can be reached overflows to less than the maximum, the last of them reaches it,
and without a threshold there is nothing to delay. -/
structure Exact : Prop where
  shifts : ∀ e ≤ 16, soft.toNat + e < 2 ^ 32 →
    base.toNat * 2 ^ e < 2 ^ 32 ∨ max.toNat ≤ base.toNat * 2 ^ e % 2 ^ 32
  last : soft.toNat + 17 < 2 ^ 32 → base = 0 ∨ max.toNat ≤ base.toNat * 2 ^ 16 % 2 ^ 32
  unknown : soft = 0 → base = 0 ∨ max = 0

/-! ### The throttle after a history -/

/-- The entry of a key with this many failures in a row. -/
def entry (failures : Nat) : Option UInt32 :=
  if failures = 0 then none else some (UInt32.ofNat failures)

variable {soft base max} {calls : List ThrottleCall} {key : String}

theorem getD_entry (failures : Nat) : (entry failures).getD 0 = UInt32.ofNat failures := by
  unfold entry
  split_ifs with hzero
  · rw [hzero]
    rfl
  · rfl

theorem run_fresh (calls : List ThrottleCall) :
    CS.run call (fresh soft base max) calls =
      { fresh soft base max with attempts := fun key => entry (failuresOf key calls) } := by
  refine CS.run_history (fun done th => th = { fresh soft base max with
    attempts := fun key => entry (failuresOf key done) }) (fun done c h => ?_) rfl calls
  rw [h]
  cases c with
  | recordFailure k =>
    simp only [call, recordFailure, LoginThrottle.mk.injEq, true_and]
    funext key
    rw [failuresOf_concat, getD_entry]
    by_cases hkey : k = key
    · subst hkey
      rw [Function.update_self, failuresNext_failure, entry, if_neg (Nat.succ_ne_zero _),
        UInt32.ofNat_add]
      rfl
    · -- The calls for other keys leave both sides alone.
      rw [Function.update_of_ne (Ne.symm hkey), failuresNext_of_ne (c := .recordFailure k) hkey]
  | recordSuccess k =>
    simp only [call, recordSuccess, LoginThrottle.mk.injEq, true_and]
    funext key
    rw [failuresOf_concat]
    by_cases hkey : k = key
    · subst hkey
      rw [Function.update_self, failuresNext_success]
      rfl
    · rw [Function.update_of_ne (Ne.symm hkey), failuresNext_of_ne (c := .recordSuccess k) hkey]

theorem toNat_delayAfter (hcount : calls.countP (·.isFailure) < 2 ^ 32) :
    (delayAfter soft base max calls key).toNat =
      shiftedDelay soft.toNat base.toNat max.toNat (failuresOf key calls) := by
  have hf : failuresOf key calls < 2 ^ 32 := (failuresOf_le key calls).trans_lt hcount
  rw [delayAfter, run_fresh, delayBeforeAttempt, shiftedDelay]
  dsimp only
  generalize failuresOf key calls = f at hf
  have hnat : (UInt32.ofNat f).toNat = f := UInt32.toNat_ofNat_of_lt' hf
  by_cases hzero : f = 0
  · simp [entry, hzero]
  have hentry : entry f = some (UInt32.ofNat f) := if_neg hzero
  simp only [hentry, fresh, UInt32.lt_iff_toNat_lt, hnat, hzero, false_or]
  split_ifs with hsoft
  · rfl
  · have hle : soft ≤ UInt32.ofNat f := UInt32.le_iff_toNat_le.mpr (by omega)
    have hsixteen : (16 : UInt32).toNat = 16 := rfl
    have hplaces : min (f - soft.toNat) 16 % 32 = min (f - soft.toNat) 16 := by omega
    rw [UInt32.toNat_min, UInt32.toNat_shiftLeft, UInt32.toNat_min, UInt32.toNat_sub_of_le _ _ hle,
      hnat, hsixteen, hplaces, Nat.shiftLeft_eq]

/-! ### Policies -/

theorem doubledDelay_mono (s b m : Nat) {f f' : Nat} (h : f ≤ f') :
    doubledDelay s b m f ≤ doubledDelay s b m f' := by
  unfold doubledDelay
  split_ifs with hf hf'
  · exact le_rfl
  · exact Nat.zero_le _
  · omega
  · have hpow : 2 ^ (f - s) ≤ 2 ^ (f' - s) := Nat.pow_le_pow_right (by decide) (by omega)
    have hmul := Nat.mul_le_mul_left b hpow
    omega

theorem Exact.shiftedDelay_eq (h : Exact soft base max) {f : Nat} (hf : f < 2 ^ 32) :
    shiftedDelay soft.toNat base.toNat max.toNat f =
      doubledDelay soft.toNat base.toNat max.toNat f := by
  unfold shiftedDelay doubledDelay
  by_cases hsoft : f < soft.toNat
  · rw [if_pos (.inr hsoft), if_pos hsoft]
  rw [if_neg hsoft]
  by_cases hzero : f = 0
  · -- Without failures the threshold is zero.
    have hsoft0 : soft = 0 := UInt32.toNat_inj.mp (by simp; omega)
    rw [if_pos (.inl hzero)]
    rcases h.unknown hsoft0 with hb | hm
    · simp [hb]
    · simp [hm]
  rw [if_neg (not_or.mpr ⟨hzero, hsoft⟩)]
  rcases Nat.lt_or_ge 16 (f - soft.toNat) with hlarge | hsmall
  · -- The shift is stuck at sixteen places, where the maximum is reached already.
    have hsixteen : min (f - soft.toNat) 16 = 16 := by omega
    rw [hsixteen]
    rcases h.last (by omega) with hb | hm
    · simp [hb]
    · have hpow : 2 ^ 16 ≤ 2 ^ (f - soft.toNat) := Nat.pow_le_pow_right (by decide) (by omega)
      have hmul := Nat.mul_le_mul_left base.toNat hpow
      have hmod := Nat.mod_le (base.toNat * 2 ^ 16) (2 ^ 32)
      rw [Nat.min_eq_right hm, Nat.min_eq_right (by omega)]
  · rw [Nat.min_eq_left hsmall]
    rcases h.shifts (f - soft.toNat) hsmall (by omega) with hfits | hm
    · rw [Nat.mod_eq_of_lt hfits]
    · have hmod := Nat.mod_le (base.toNat * 2 ^ (f - soft.toNat)) (2 ^ 32)
      rw [Nat.min_eq_right hm, Nat.min_eq_right (by omega)]

theorem failuresOf_replicate (key : String) (n : Nat) :
    failuresOf key (List.replicate n (.recordFailure key)) = n := by
  induction n with
  | zero => rfl
  | succ n ih =>
    rw [List.replicate_succ', failuresOf_concat, ih, failuresNext_failure]

theorem countP_replicate_failure (key : String) (n : Nat) :
    (List.replicate n (ThrottleCall.recordFailure key)).countP (·.isFailure) = n := by
  simp [List.countP_replicate, ThrottleCall.isFailure]

theorem DelaysGrow.shiftedDelay_eq (h : DelaysGrow soft base max) {f : Nat} (hf : f < 2 ^ 32) :
    shiftedDelay soft.toNat base.toNat max.toNat f =
      doubledDelay soft.toNat base.toNat max.toNat f := by
  have hcount :
      (List.replicate f (ThrottleCall.recordFailure "")).countP (·.isFailure) < 2 ^ 32 := by
    rw [countP_replicate_failure]
    exact hf
  have hdoubled := h.doubled (List.replicate f (.recordFailure "")) "" hcount
  rw [toNat_delayAfter hcount, failuresOf_replicate] at hdoubled
  exact hdoubled

theorem DelaysGrow.min_shift_eq (h : DelaysGrow soft base max) {e : Nat}
    (hreach : soft.toNat + e < 2 ^ 32) (hpos : soft.toNat + e ≠ 0) :
    min (base.toNat * 2 ^ min e 16 % 2 ^ 32) max.toNat =
      min (base.toNat * 2 ^ e) max.toNat := by
  have heq := h.shiftedDelay_eq hreach
  rw [shiftedDelay, if_neg (by omega), doubledDelay, if_neg (by omega),
    Nat.add_sub_cancel_left] at heq
  exact heq

theorem DelaysGrow.exact (h : DelaysGrow soft base max) : Exact soft base max := by
  have hmax := max.toNat_lt
  constructor
  · intro e he hreach
    by_cases hzero : soft.toNat + e = 0
    · have hbase := base.toNat_lt
      have hunshifted : e = 0 := by omega
      rw [hunshifted, Nat.pow_zero, Nat.mul_one]
      exact .inl hbase
    have heq := h.min_shift_eq hreach hzero
    rw [Nat.min_eq_left he] at heq
    by_cases hfits : base.toNat * 2 ^ e < 2 ^ 32
    · exact .inl hfits
    · -- The product is more than any maximum, so what is left of it is at least the maximum.
      exact .inr (by omega)
  · intro hreach
    have heq := h.min_shift_eq hreach (by omega)
    have hsixteen : min 17 16 = 16 := by decide
    rw [hsixteen] at heq
    have hmod := Nat.mod_le (base.toNat * 2 ^ 16) (2 ^ 32)
    by_cases hm : max.toNat ≤ base.toNat * 2 ^ 16 % 2 ^ 32
    · exact .inr hm
    · -- One more doubling is not seen, which is right only for zero.
      refine .inl (UInt32.toNat_inj.mp ?_)
      simp only [UInt32.toNat_zero]
      omega
  · intro hsoft
    have heq := h.shiftedDelay_eq (f := 0) (by decide)
    rw [shiftedDelay, if_pos (.inl rfl), doubledDelay, hsoft] at heq
    simp only [UInt32.toNat_zero, Nat.lt_irrefl, if_false, Nat.sub_self, Nat.pow_zero,
      Nat.mul_one] at heq
    rcases Nat.min_eq_zero_iff.mp heq.symm with hb | hm
    · exact .inl (UInt32.toNat_inj.mp hb)
    · exact .inr (UInt32.toNat_inj.mp hm)

/-- Delays grow as they should exactly under the exact policies. -/
theorem delaysGrow_iff (soft base max : UInt32) :
    DelaysGrow soft base max ↔ Exact soft base max := by
  refine ⟨DelaysGrow.exact, fun h => ?_⟩
  have hdoubled : ∀ calls key, calls.countP (·.isFailure) < 2 ^ 32 →
      (delayAfter soft base max calls key).toNat =
        doubledDelay soft.toNat base.toNat max.toNat (failuresOf key calls) := by
    intro calls key hcount
    rw [toNat_delayAfter hcount]
    exact h.shiftedDelay_eq ((failuresOf_le key calls).trans_lt hcount)
  refine ⟨hdoubled, fun calls key hcount => ?_, fun calls key hcount => ?_⟩
  · have hbefore : calls.countP (·.isFailure) < 2 ^ 32 := by
      rw [List.countP_append] at hcount
      omega
    rw [UInt32.le_iff_toNat_le, hdoubled _ _ hbefore, hdoubled _ _ hcount, failuresOf_concat,
      failuresNext_failure]
    exact doubledDelay_mono _ _ _ (Nat.le_succ _)
  · have hfewer := (List.filter_sublist (p := fun c => c.key = key) (l := calls)).countP_le
      (p := (·.isFailure))
    apply UInt32.toNat_inj.mp
    rw [hdoubled _ _ hcount, hdoubled _ _ (hfewer.trans_lt hcount), failuresOf_filter]

/-- The default policy is exact. -/
theorem delaysGrow_default : DelaysGrow 3 250 8000 :=
  (delaysGrow_iff 3 250 8000).mpr
    ⟨by decide, fun _ => .inr (by decide), fun h => absurd h (by decide)⟩

/-- A base of about two minutes and a maximum of ten: the delay is ten minutes after seventeen
failures in a row and none after eighteen. -/
theorem not_delaysGrow_longBase :
    (delayAfter 3 131072 600000 (List.replicate 17 (.recordFailure "0:1")) "0:1").toNat = 600000 ∧
      (delayAfter 3 131072 600000 (List.replicate 18 (.recordFailure "0:1")) "0:1").toNat = 0 ∧
      ¬ DelaysGrow 3 131072 600000 := by
  have hdelay (n : Nat) (hn : n < 2 ^ 32) :
      (delayAfter 3 131072 600000 (List.replicate n (.recordFailure "0:1")) "0:1").toNat =
        shiftedDelay 3 131072 600000 n := by
    rw [toNat_delayAfter (by rw [countP_replicate_failure]; exact hn), failuresOf_replicate]
    rfl
  refine ⟨hdelay 17 (by decide), hdelay 18 (by decide), fun h => ?_⟩
  have heq := h.shiftedDelay_eq (f := 18) (by decide)
  exact absurd heq (by decide)

end LoginThrottle

end VirtualHsm
