import VirtualHsm.CS.Backoff
import VirtualHsm.Ledger.LedgerClient

/-!
# Pauses between the attempts to anchor a record

`process_record` submits a record until the ledger takes it, with a growing pause before each retry.
The pause is multiplied up in an `int` first and capped afterwards, so that with enough retries the
product overflows long after the cap is reached.
-/

namespace VirtualHsm.LedgerWorker

open CS

/-- `ledger::RetryPolicy`, with the defaults of production. -/
structure RetryPolicy where
  maxRetries : Int := 5
  baseDelayMs : Int := 1000
  maxDelayMs : Int := 60000
  delayMultiplier : Int := 2
  deriving DecidableEq, Repr

namespace RetryPolicy

/-- Non-negative fields of type `int` and a multiplier of at least 1. -/
structure Valid (p : RetryPolicy) : Prop where
  maxRetries : 0 ≤ p.maxRetries
  baseDelayMs : 0 ≤ p.baseDelayMs
  base_lt : p.baseDelayMs < intLimit
  maxDelayMs : 0 ≤ p.maxDelayMs
  delayMultiplier : 1 ≤ p.delayMultiplier

variable (p : RetryPolicy)

/-- The pause before a retry, if computing it does not overflow. -/
def delayMs (retryCount : Nat) : Option Int :=
  (scale p.delayMultiplier (retryCount - 1) p.baseDelayMs).map fun delay =>
    if p.maxDelayMs < delay then p.maxDelayMs else delay

/-- The loop of `process_record`: what each submission returns, and whether the worker is running
after it. The submission after `k` retries has number `k`, and nothing comes out when a pause is not
defined. -/
def processRecord (entry : Nat → Option LedgerEntry) (running : Nat → Bool) :
    Option (Attempts LedgerEntry Int) :=
  retry running entry (fun retryCount => p.delayMs (retryCount + 1)) p.maxRetries.toNat 0

/-- What the attempts should be: at most one more than there are retries, all but the last refused,
and as many as possible while nothing is accepted; the pause before retry `k + 1` is the base times
the `k`-th power of the multiplier, up to the cap. -/
structure Follows (entry : Nat → Option LedgerEntry) (running : Nat → Bool)
    (t : Attempts LedgerEntry Int) : Prop where
  count_le : t.count ≤ p.maxRetries + 1
  refused : ∀ k, k + 1 < t.count → entry k = none
  result : t.result = entry (t.count - 1)
  exhausted : (∀ k, running k = true) → t.result = none → t.count = p.maxRetries + 1
  delays : t.pauses =
    (List.range (t.count - 1)).map fun k => min (p.baseDelayMs * p.delayMultiplier ^ k) p.maxDelayMs

variable {p}

theorem Valid.delayMs_eq (hp : p.Valid) (k : Nat) :
    p.delayMs (k + 1) = if p.baseDelayMs * p.delayMultiplier ^ k < intLimit then
      some (min (p.baseDelayMs * p.delayMultiplier ^ k) p.maxDelayMs) else none := by
  rw [delayMs, Nat.add_sub_cancel, scale_eq hp.baseDelayMs hp.base_lt hp.delayMultiplier]
  split_ifs with hlt
  · rw [Option.map_some, min_def]
    split_ifs with hcap hle hle
    all_goals first | rfl | (congr 1; omega)
  · rfl

/-- **The retry delays follow the capped exponential** for every outcome exactly when there are no
retries, or the power before the last retry still fits into an `int`. -/
theorem follows_iff (hp : p.Valid) :
    (∀ entry running, ∃ t, p.processRecord entry running = some t ∧ p.Follows entry running t) ↔
      p.maxRetries = 0 ∨
        p.baseDelayMs * p.delayMultiplier ^ (p.maxRetries.toNat - 1) < intLimit := by
  have hmax := Int.toNat_of_nonneg hp.maxRetries
  constructor
  · -- A ledger that refuses everything makes the worker compute every pause.
    intro h
    obtain ⟨t, ht, -⟩ := h (fun _ => none) fun _ => true
    obtain ⟨n, -, -, -, hresult, hpauses, -, hbudget⟩ := retry_zero ht
    obtain rfl := hbudget (fun _ => rfl) hresult
    by_cases hzero : p.maxRetries = 0
    · exact .inl hzero
    · refine .inr (not_le.mp fun hge => ?_)
      have hmem : p.maxRetries.toNat - 1 ∈ List.range p.maxRetries.toNat :=
        List.mem_range.mpr (by omega)
      have hpause := List.mem_map_of_mem (f := fun k => p.delayMs (k + 1)) hmem
      rw [← hpauses, hp.delayMs_eq, if_neg (not_lt.mpr hge)] at hpause
      obtain ⟨_, -, hnone⟩ := List.mem_map.mp hpause
      cases hnone
  · intro h entry running
    have hfits : ∀ k < p.maxRetries.toNat,
        p.baseDelayMs * p.delayMultiplier ^ k < intLimit := by
      intro k hk
      refine lt_of_le_of_lt ?_ (h.resolve_left (by omega))
      exact mul_le_mul_of_nonneg_left
        (pow_le_pow_right₀ hp.delayMultiplier (by omega)) hp.baseDelayMs
    have hdelay : ∀ k < p.maxRetries.toNat, p.delayMs (k + 1) =
        some (min (p.baseDelayMs * p.delayMultiplier ^ k) p.maxDelayMs) := fun k hk => by
      rw [hp.delayMs_eq, if_pos (hfits k hk)]
    have hends : ∃ t, p.processRecord entry running = some t := exists_retry fun k hk => by
      rw [Nat.zero_add, hdelay k hk]
      rfl
    obtain ⟨t, ht⟩ := hends
    obtain ⟨n, hn, hcount, hrefused, hresult, hpauses, -, hbudget⟩ := retry_zero ht
    refine ⟨t, ht, by omega, fun k hk => hrefused k (by omega), ?_, fun hrun hnone => ?_, ?_⟩
    · rw [hcount, Nat.add_sub_cancel, hresult]
    · rw [hcount, hbudget hrun hnone]
      omega
    · rw [hcount, Nat.add_sub_cancel]
      refine List.map_injective_iff.mpr (Option.some_injective Int) (hpauses.trans ?_)
      rw [List.map_map]
      exact List.map_congr_left fun k hk => hdelay k ((List.mem_range.mp hk).trans_le hn)

theorem follows_default :
    ∃ t, ({} : RetryPolicy).processRecord (fun _ => none) (fun _ => true) = some t ∧
      ({} : RetryPolicy).Follows (fun _ => none) (fun _ => true) t :=
  (follows_iff ⟨by decide, by decide, by decide, by decide, by decide⟩).mpr (by decide) _ _

/-- The production delays with 25 retries: before the 23rd, 1000 is doubled 22 times. -/
theorem processRecord_overflows : ({ maxRetries := 25 } : RetryPolicy).Valid ∧
      ({ maxRetries := 25 } : RetryPolicy).delayMs 22 = some 60000 ∧
      ({ maxRetries := 25 } : RetryPolicy).delayMs 23 = none ∧
      ({ maxRetries := 25 } : RetryPolicy).processRecord (fun _ => none) (fun _ => true) =
        none := by
  refine ⟨⟨?_, ?_, ?_, ?_, ?_⟩, ?_⟩
  all_goals decide +kernel

end RetryPolicy

end VirtualHsm.LedgerWorker
