import Mathlib.Algebra.Order.Ring.Int
import Mathlib.Data.List.Range
import Mathlib.Tactic.Ring

/-!
# Retries with growing pauses

A call is repeated until it succeeds or a budget of retries is used up, with a pause before each
retry. The pauses grow by a factor up to a cap and are computed in 32-bit integers, where a product
that is too large has no defined value. Nothing here depends on what is called.
-/

namespace CS

/-! ### Repeating a call -/

/-- What a loop of attempts did: the numbers of the attempts that failed, the pauses it made and
what the last attempt returned. -/
structure Attempts (ρ δ : Type) where
  failures : List Nat := []
  pauses : List δ := []
  result : Option ρ := none

/-- The number of attempts that were made. -/
def Attempts.count {ρ δ : Type} (t : Attempts ρ δ) : Nat :=
  t.failures.length + if t.result.isSome then 1 else 0

section Retry

variable {ρ δ : Type} (goOn : Nat → Bool) (outcome : Nat → Option ρ) (pause : Nat → Option δ)

/-- Attempt number `a` and those after it, with a budget of retries. After a failed attempt the
loop pauses and tries again, if there is a retry left and it is to go on. -/
def retry (budget a : Nat) : Option (Attempts ρ δ) :=
  match outcome a, budget with
  | some r, _ => some { result := r }
  | none, 0 => some { failures := [a] }
  | none, budget + 1 =>
    if goOn a then do
      let d ← pause a
      let rest ← retry budget (a + 1)
      return { rest with failures := a :: rest.failures, pauses := d :: rest.pauses }
    else some { failures := [a] }

variable {goOn outcome pause} {budget a : Nat} {t : Attempts ρ δ}

/-- A loop that ends has failed a number of times within the budget, with a pause after each failure
but a last one. -/
theorem retry_eq_some (h : retry goOn outcome pause budget a = some t) :
    ∃ n ≤ budget, (∀ i < n, outcome (a + i) = none) ∧
      t.pauses.map some = (List.range' a n).map pause ∧
      ((∃ r, outcome (a + n) = some r ∧ t.result = some r ∧ t.failures = List.range' a n) ∨
        outcome (a + n) = none ∧ t.result = none ∧ t.failures = List.range' a (n + 1) ∧
          (goOn (a + n) = true → n = budget)) := by
  fun_induction retry goOn outcome pause budget a generalizing t with
  | case1 budget a r hr =>
    cases h
    exact ⟨0, Nat.zero_le _, fun i hi => absurd hi (Nat.not_lt_zero i), rfl, .inl ⟨r, hr, rfl, rfl⟩⟩
  | case2 a hnone =>
    cases h
    exact ⟨0, Nat.le_refl 0, fun i hi => absurd hi (Nat.not_lt_zero i), rfl,
      .inr ⟨hnone, rfl, rfl, fun _ => rfl⟩⟩
  | case3 a budget hnone hgo ih =>
    obtain ⟨d, hd, h⟩ := Option.bind_eq_some_iff.mp h
    obtain ⟨rest, hrest, h⟩ := Option.bind_eq_some_iff.mp h
    cases h
    obtain ⟨n, hn, hbefore, hpauses, hlast⟩ := ih hrest
    -- The first attempt in front of those of the rest.
    rw [Nat.add_right_comm, Nat.add_assoc] at hlast
    refine ⟨n + 1, Nat.succ_le_succ hn, fun i hi => ?_, ?_, ?_⟩
    · cases i with
      | zero => exact hnone
      | succ i =>
        rw [Nat.add_comm i, ← Nat.add_assoc]
        exact hbefore i (Nat.lt_of_succ_lt_succ hi)
    · rw [List.range'_succ, List.map_cons, List.map_cons, hpauses, hd]
    · refine hlast.imp ?_ ?_
      · rintro ⟨r, hr, hresult, hfailures⟩
        exact ⟨r, hr, hresult, congrArg (a :: ·) hfailures⟩
      · rintro ⟨hr, hresult, hfailures, hbudget⟩
        exact ⟨hr, hresult, congrArg (a :: ·) hfailures, fun hgo => congrArg (· + 1) (hbudget hgo)⟩
  | case4 a budget hnone hstop =>
    cases h
    exact ⟨0, Nat.zero_le _, fun i hi => absurd hi (Nat.not_lt_zero i), rfl,
      .inr ⟨hnone, rfl, rfl, fun hgo => absurd hgo hstop⟩⟩

/-- With a pause for every retry of the budget the loop ends. -/
theorem exists_retry (hpause : ∀ i < budget, (pause (a + i)).isSome) :
    ∃ t, retry goOn outcome pause budget a = some t := by
  fun_induction retry goOn outcome pause budget a with
  | case1 budget a r => exact ⟨_, rfl⟩
  | case2 a => exact ⟨_, rfl⟩
  | case3 a budget hnone hgo ih =>
    obtain ⟨d, hd⟩ := Option.isSome_iff_exists.mp (hpause 0 (Nat.succ_pos budget))
    obtain ⟨rest, hrest⟩ := ih fun i hi => by
      rw [Nat.add_assoc, Nat.add_comm 1]
      exact hpause (i + 1) (Nat.succ_lt_succ hi)
    exact ⟨_, Option.bind_eq_some_iff.mpr ⟨d, hd, by rw [hrest]; rfl⟩⟩
  | case4 a budget => exact ⟨_, rfl⟩

/-- The loop from its first attempt: all attempts but the last failed, and there was a pause after
each of them. -/
theorem retry_zero (h : retry goOn outcome pause budget 0 = some t) :
    ∃ n ≤ budget, t.count = n + 1 ∧ (∀ i < n, outcome i = none) ∧ t.result = outcome n ∧
      t.pauses.map some = (List.range n).map pause ∧
      t.failures = List.range (if t.result.isSome then n else n + 1) ∧
      ((∀ k, goOn k = true) → t.result = none → n = budget) := by
  obtain ⟨n, hn, hbefore, hpauses, hlast⟩ := retry_eq_some h
  simp only [Nat.zero_add, ← List.range_eq_range'] at hbefore hpauses hlast
  rcases hlast with ⟨r, hr, hresult, hfailures⟩ | ⟨hr, hresult, hfailures, hbudget⟩
  · refine ⟨n, hn, ?_, hbefore, hresult.trans hr.symm, hpauses, ?_, ?_⟩
    · simp [Attempts.count, hresult, hfailures]
    · simp [hresult, hfailures]
    · simp [hresult]
  · refine ⟨n, hn, ?_, hbefore, hresult.trans hr.symm, hpauses, ?_, fun hgo _ => hbudget (hgo n)⟩
    · simp [Attempts.count, hresult, hfailures]
    · simp [hresult, hfailures]

end Retry

/-! ### Products of 32-bit integers -/

/-- The first number that is too large for an `int`. -/
def intLimit : Int := 2 ^ 31

/-- A product; nothing where it overflows, since C++ does not define it then. -/
def mulInt (a b : Int) : Option Int :=
  if -intLimit ≤ a * b ∧ a * b < intLimit then some (a * b) else none

/-- A number multiplied by a factor a number of times. -/
def scale (factor : Int) : Nat → Int → Option Int
  | 0, d => some d
  | n + 1, d => (mulInt d factor).bind (scale factor n)

/-- The same with a cap at which the loop stops. -/
def scaleUpTo (cap factor : Int) : Nat → Int → Option Int
  | 0, d => some d
  | n + 1, d =>
    (mulInt d factor).bind fun d => if cap < d then some cap else scaleUpTo cap factor n d

variable {d factor cap : Int}

theorem mulInt_eq (hd : 0 ≤ d) (hfactor : 1 ≤ factor) :
    mulInt d factor = if d * factor < intLimit then some (d * factor) else none := by
  have hpos : 0 ≤ d * factor := mul_nonneg hd (by omega)
  have hlimit : 0 < intLimit := by decide
  have hlow : -intLimit ≤ d * factor := by omega
  simp only [mulInt, hlow, true_and]

theorem le_mul_pow (hd : 0 ≤ d) (hfactor : 1 ≤ factor) (n : Nat) : d ≤ d * factor ^ n :=
  le_mul_of_one_le_right hd (one_le_pow₀ hfactor)

theorem mul_pow_succ' (d factor : Int) (n : Nat) :
    d * factor ^ (n + 1) = d * factor * factor ^ n := by ring

/-- The products grow, so that the last one tells whether they all fit. -/
theorem scale_eq (hd : 0 ≤ d) (hlt : d < intLimit) (hfactor : 1 ≤ factor) (n : Nat) :
    scale factor n d = if d * factor ^ n < intLimit then some (d * factor ^ n) else none := by
  induction n generalizing d with
  | zero => simp [scale, hlt]
  | succ n ih =>
    have hpos : 0 ≤ d * factor := mul_nonneg hd (by omega)
    have hle := le_mul_pow hpos hfactor n
    rw [scale, mulInt_eq hd hfactor, mul_pow_succ']
    by_cases hfirst : d * factor < intLimit
    · rw [if_pos hfirst, Option.bind_some, ih hpos hfirst]
    · rw [if_neg hfirst, if_neg (by omega)]
      rfl

/-- Below the cap, the result is the capped power exactly when no product up to the first one above
the cap overflows. -/
theorem scaleUpTo_eq_some_min_iff (hd : 0 ≤ d) (hcap : d ≤ cap) (hfactor : 1 ≤ factor) (n : Nat) :
    scaleUpTo cap factor n d = some (min (d * factor ^ n) cap) ↔
      ∀ i < n, d * factor ^ i ≤ cap → d * factor ^ (i + 1) < intLimit := by
  induction n generalizing d with
  | zero => simp [scaleUpTo, hcap]
  | succ n ih =>
    have hpos : 0 ≤ d * factor := mul_nonneg hd (by omega)
    rw [scaleUpTo, mulInt_eq hd hfactor]
    by_cases hfirst : d * factor < intLimit
    · rw [if_pos hfirst, Option.bind_some]
      by_cases habove : cap < d * factor
      · -- The cap is reached, and the later products are not computed.
        have hpow (i : Nat) : cap < d * factor ^ (i + 1) := by
          rw [mul_pow_succ']
          exact lt_of_lt_of_le habove (le_mul_pow hpos hfactor i)
        rw [if_pos habove, min_eq_right (hpow n).le]
        refine iff_of_true rfl fun i hi hle => ?_
        cases i with
        | zero => simpa using hfirst
        | succ i => exact absurd hle (not_le.mpr (hpow i))
      · rw [if_neg habove, mul_pow_succ', ih hpos (not_lt.mp habove)]
        constructor
        · intro h i hi hle
          cases i with
          | zero => simpa using hfirst
          | succ i =>
            rw [mul_pow_succ'] at hle ⊢
            exact h i (Nat.lt_of_succ_lt_succ hi) hle
        · intro h i hi hle
          rw [← mul_pow_succ'] at hle ⊢
          exact h (i + 1) (Nat.succ_lt_succ hi) hle
    · rw [if_neg hfirst]
      refine iff_of_false nofun fun h => hfirst ?_
      simpa using h 0 (Nat.succ_pos n) (by simpa using hcap)

/-- The same for all pauses of a number of retries. -/
theorem forall_scaleUpTo_iff (hd : 0 ≤ d) (hfactor : 1 ≤ factor) (r : Nat) :
    (∀ a < r, scaleUpTo cap factor a d = some (min (d * factor ^ a) cap)) ↔
      r = 0 ∨ d ≤ cap ∧
        ∀ i, i + 1 < r → d * factor ^ i ≤ cap → d * factor ^ (i + 1) < intLimit := by
  rcases Nat.eq_zero_or_pos r with rfl | hr
  · simp
  · rw [or_iff_right hr.ne']
    constructor
    · intro h
      have hcap : d ≤ cap := by simpa [scaleUpTo] using h 0 hr
      refine ⟨hcap, fun i hi => ?_⟩
      exact (scaleUpTo_eq_some_min_iff hd hcap hfactor (i + 1)).mp (h (i + 1) hi) i
        (Nat.lt_succ_self i)
    · rintro ⟨hcap, h⟩ a ha
      exact (scaleUpTo_eq_some_min_iff hd hcap hfactor a).mpr fun i hi => h i (by omega)

end CS
