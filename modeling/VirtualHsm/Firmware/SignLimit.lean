import Mathlib.Order.Basic
import VirtualHsm.CS.Decimal
import VirtualHsm.CS.KeyedTable
import VirtualHsm.CS.Run
import VirtualHsm.CS.WindowLimit
import VirtualHsm.Core.Utils

/-!
# The signing budget of a user

The firmware counts the signatures of each user in windows of a minute, in a table of 32 users. A
user who is not in a full table takes the place of the one who came first, whether the window of that
one is over or not; when the latter comes back, it is with a new budget.
-/

namespace VirtualHsm.Firmware

open CS

/-! ### The table -/

def rateWindowS : UInt32 := 60

def maxSignLimitEntries : Nat := 32

/-- `HSM_SIGN_LIMIT_PER_MIN`, with the range of the build configuration. -/
def SignLimitPerMin : Type := { n : Nat // 1 ≤ n ∧ n ≤ 1000 }

structure UserSignLimit where
  userId : Bytes
  start : UInt32
  count : Nat
  deriving DecidableEq, Repr

namespace UserSignLimit

/-- A window that is over begins again. -/
def refresh (u : UserSignLimit) (now : UInt32) : UserSignLimit :=
  if rateWindowS ≤ now - u.start then { u with start := now, count := 0 } else u

def spend (u : UserSignLimit) (now : UInt32) : UserSignLimit :=
  { u.refresh now with count := (u.refresh now).count + 1 }

theorem userId_refresh (now : UInt32) (u : UserSignLimit) : (u.refresh now).userId = u.userId := by
  unfold refresh
  split_ifs <;> rfl

theorem userId_spend (now : UInt32) (u : UserSignLimit) : (u.spend now).userId = u.userId :=
  userId_refresh now u

end UserSignLimit

/-- `s_user_sign_limits`, in the order in which the users came. -/
abbrev SignLimits : Type := KeyedTable UserSignLimit.userId

/-- `user_sign_rate_limited`: whether the request is refused, and the table after it. -/
def userSignRateLimited (limit : SignLimitPerMin) (t : SignLimits) (userId : Bytes) (now : UInt32) :
    Bool × SignLimits :=
  match t.find userId with
  | some u =>
    if limit.1 ≤ (u.refresh now).count then
      -- The window that has begun again stays so.
      (true, t.modify userId (·.refresh now) (UserSignLimit.userId_refresh now))
    else (false, t.modify userId (·.spend now) (UserSignLimit.userId_spend now))
  | none =>
    let kept := if maxSignLimitEntries ≤ t.rows.length then t.tail else t
    -- No row has the name, so that the new one goes in.
    (false, (kept.insert ⟨userId, now, 1⟩).getD kept)

/-- A request to sign, as far as the limit looks at it. -/
structure SignRequest where
  userId : Bytes
  now : UInt32
  deriving DecidableEq, Repr

def signLimitStep (limit : SignLimitPerMin) (t : SignLimits) (r : SignRequest) : Bool × SignLimits :=
  userSignRateLimited limit t r.userId r.now

/-- The times of the user's requests that are let through, from an empty table on. -/
def passed (limit : SignLimitPerMin) (userId : Bytes) (reqs : List SignRequest) : List Nat :=
  (reqs.zip (answers (signLimitStep limit) .empty reqs)).filterMap fun x =>
    if x.1.userId = userId ∧ x.2 = false then some x.1.now.toNat else none

/-- In no interval of 60 seconds, its ends included, more than twice the limit is let through. -/
def WithinLimit (limit : SignLimitPerMin) (userId : Bytes) (reqs : List SignRequest) : Prop :=
  WindowBounded 60 limit.1 (passed limit userId reqs)

/-- A request under a name that is not in the full table does not displace the user before the
user's window is over. -/
def KeepsBudget (userId : Bytes) (t : SignLimits) (r : SignRequest) : Prop :=
  t.find r.userId = none → maxSignLimitEntries ≤ t.rows.length →
    ∀ e ∈ t.rows.head?, e.userId = userId → rateWindowS ≤ r.now - e.start

instance (userId : Bytes) (t : SignLimits) (r : SignRequest) : Decidable (KeepsBudget userId t r) :=
  inferInstanceAs (Decidable (_ → _ → ∀ e ∈ t.rows.head?, _))

variable {limit : SignLimitPerMin} {t : SignLimits} {userId : Bytes} {r : SignRequest}
  {e : UserSignLimit} {times : List Nat} {now : Nat}

theorem passed_concat (reqs : List SignRequest) (r : SignRequest) :
    passed limit userId (reqs ++ [r]) =
      passed limit userId reqs ++
        if r.userId = userId ∧
            (signLimitStep limit (run (signLimitStep limit) .empty reqs) r).1 = false then
          [r.now.toNat]
        else [] := by
  rw [passed, answers_append, List.zip_append (length_answers _ _ _).symm, List.filterMap_append]
  congr 1
  simp only [answers_cons, answers_nil, List.zip_cons_cons, List.zip_nil_right,
    List.filterMap_cons, List.filterMap_nil]
  split_ifs <;> rfl

/-! ### What a request does to a row -/

theorem step_of_found (h : t.find r.userId = some e) :
    (signLimitStep limit t r).1 = decide (limit.1 ≤ (e.refresh r.now).count) ∧
      (signLimitStep limit t r).2.find r.userId =
        some (if limit.1 ≤ (e.refresh r.now).count then e.refresh r.now else e.spend r.now) := by
  unfold signLimitStep userSignRateLimited
  rw [h]
  by_cases hfull : limit.1 ≤ (e.refresh r.now).count
  all_goals simp [hfull, KeyedTable.find_modify, h]

/-- The table that a new row goes into. -/
theorem find_kept (userId : Bytes) :
    (if maxSignLimitEntries ≤ t.rows.length then t.tail else t).find userId =
      (t.find userId).filter fun e =>
        ¬ (maxSignLimitEntries ≤ t.rows.length ∧ t.rows.head?.map (·.userId) = some e.userId) := by
  split_ifs with hfull
  · simp [KeyedTable.find_tail, hfull]
  · cases t.find userId with
    | none => rfl
    | some e => rw [Option.filter_some, if_pos (by simp [hfull])]

theorem step_of_new (h : t.find r.userId = none) :
    (signLimitStep limit t r).1 = false ∧
      (signLimitStep limit t r).2.find userId =
        if userId = r.userId then some ⟨r.userId, r.now, 1⟩
        else (t.find userId).filter fun e =>
          ¬ (maxSignLimitEntries ≤ t.rows.length ∧
            t.rows.head?.map (·.userId) = some e.userId) := by
  unfold signLimitStep userSignRateLimited
  rw [h]
  refine ⟨rfl, ?_⟩
  have hnone := @find_kept t r.userId
  rw [h, Option.filter_none] at hnone
  obtain ⟨t', ht'⟩ := @KeyedTable.exists_insert _ _ UserSignLimit.userId _ _
    ⟨r.userId, r.now, 1⟩ hnone
  simp only [ht', Option.getD_some]
  rw [KeyedTable.find_insert ht', find_kept]

/-- Requests of others leave the user's row, or displace it. -/
theorem find_step_of_ne (hne : userId ≠ r.userId) (hkeeps : KeepsBudget userId t r) :
    (signLimitStep limit t r).2.find userId = t.find userId ∨
      (signLimitStep limit t r).2.find userId = none ∧
        ∃ e, t.find userId = some e ∧ rateWindowS ≤ r.now - e.start := by
  cases hfound : t.find r.userId with
  | some u =>
    left
    unfold signLimitStep userSignRateLimited
    rw [hfound]
    simp only
    split_ifs <;> simp [KeyedTable.find_modify, hne]
  | none =>
    rw [(step_of_new hfound).2, if_neg hne]
    cases he : t.find userId with
    | none => exact .inl rfl
    | some e =>
      have hid := (KeyedTable.find_eq_some_iff.mp he).2
      rw [Option.filter_some]
      split_ifs with hstays
      · exact .inl rfl
      · simp only [Bool.not_eq_true, decide_eq_false_iff_not, not_not] at hstays
        refine .inr ⟨rfl, e, rfl, ?_⟩
        obtain ⟨first, hfirst, hkey⟩ := Option.map_eq_some_iff.mp hstays.2
        -- The first row has the user's name, so it is the user's row.
        have hrow : t.find userId = some first :=
          KeyedTable.find_eq_some_iff.mpr ⟨List.mem_of_head? hfirst, hkey.trans hid⟩
        obtain rfl : e = first := Option.mem_unique he hrow
        exact hkeeps hfound hstays.1 e hfirst hid

/-! ### Whole runs -/

/-- What the user's row says about the times at which the user was let through, at time `now`. -/
structure Tracks (limit : SignLimitPerMin) (userId : Bytes) (times : List Nat) (t : SignLimits)
    (now : Nat) : Prop where
  bounded : WindowBounded 60 limit.1 times
  row : ∀ e, t.find userId = some e →
    e.start.toNat ≤ now ∧ WindowOpen 60 limit.1 times e.start.toNat e.count
  noRow : t.find userId = none → WindowOver 60 limit.1 times now

theorem Tracks.mono (h : Tracks limit userId times t now) {later : Nat} (hle : now ≤ later) :
    Tracks limit userId times t later where
  bounded := h.bounded
  row e he := ⟨(h.row e he).1.trans hle, (h.row e he).2⟩
  noRow he := (h.noRow he).mono hle

theorem rateWindowS_le_sub_iff {start time : UInt32} (hle : start.toNat ≤ time.toNat) :
    rateWindowS ≤ time - start ↔ start.toNat + 60 ≤ time.toNat := by
  rw [UInt32.le_iff_toNat_le, UInt32.toNat_sub_of_le _ _ (UInt32.le_iff_toNat_le.mpr hle)]
  change 60 ≤ _ ↔ _
  omega

theorem Tracks.of_row (hbound : WindowBounded 60 limit.1 times) {e : UserSignLimit}
    (hrow : t.find userId = some e) (hstart : e.start.toNat ≤ now)
    (hopen : WindowOpen 60 limit.1 times e.start.toNat e.count) :
    Tracks limit userId times t now where
  bounded := hbound
  row e' he' := by
    obtain rfl := Option.mem_unique hrow he'
    exact ⟨hstart, hopen⟩
  noRow hnone := by
    rw [hrow] at hnone
    cases hnone

/-- A request that opens a window is let through. -/
theorem Tracks.opened (hbound : WindowBounded 60 limit.1 times)
    (hover : WindowOver 60 limit.1 times r.now.toNat)
    (hrow : t.find userId = some ⟨userId, r.now, 1⟩) :
    Tracks limit userId (times ++ [r.now.toNat]) t r.now.toNat := by
  have hopen := hover.admit limit.2.1 (by decide)
  exact .of_row (hover.bounded_admit limit.2.1 hbound) hrow le_rfl hopen

theorem Tracks.request (h : Tracks limit r.userId times t r.now.toNat) :
    Tracks limit r.userId
      (times ++ if (signLimitStep limit t r).1 = false then [r.now.toNat] else [])
      (signLimitStep limit t r).2 r.now.toNat := by
  cases hfound : t.find r.userId with
  | none =>
    obtain ⟨hpass, hrow⟩ := @step_of_new limit t r.userId r hfound
    rw [if_pos rfl] at hrow
    rw [if_pos hpass]
    exact .opened h.bounded (h.noRow hfound) hrow
  | some e =>
    obtain ⟨hstart, hopen⟩ := h.row e hfound
    obtain ⟨hanswer, hrow⟩ := @step_of_found limit t r e hfound
    have hid := (KeyedTable.find_eq_some_iff.mp hfound).2
    by_cases hover : rateWindowS ≤ r.now - e.start
    · -- A window that begins again has room for the request.
      have hrefresh : e.refresh r.now = ⟨r.userId, r.now, 0⟩ := by
        rw [UserSignLimit.refresh, if_pos hover, hid]
      have hroom : ¬ limit.1 ≤ (e.refresh r.now).count := by
        rw [hrefresh]
        exact Nat.not_le.mpr limit.2.1
      rw [if_neg hroom, UserSignLimit.spend, hrefresh] at hrow
      rw [hanswer, if_pos (decide_eq_false hroom)]
      exact .opened h.bounded (hopen.over ((rateWindowS_le_sub_iff hstart).mp hover)) hrow
    · have hrefresh : e.refresh r.now = e := by rw [UserSignLimit.refresh, if_neg hover]
      have hnow : r.now.toNat < e.start.toNat + 60 := by
        rw [rateWindowS_le_sub_iff hstart] at hover
        omega
      rw [hrefresh] at hanswer hrow
      by_cases hfull : limit.1 ≤ e.count
      · rw [if_pos hfull] at hrow
        rw [hanswer, if_neg (by simp [hfull]), List.append_nil]
        exact .of_row h.bounded hrow hstart hopen
      · have hcount := Nat.not_le.mp hfull
        rw [if_neg hfull, UserSignLimit.spend, hrefresh] at hrow
        rw [hanswer, if_pos (decide_eq_false hfull)]
        have hopen' := hopen.admit hcount hstart hnow
        exact .of_row (hopen.bounded_admit hcount hstart h.bounded) hrow hstart hopen'

theorem Tracks.other (h : Tracks limit userId times t r.now.toNat) (hne : userId ≠ r.userId)
    (hkeeps : KeepsBudget userId t r) :
    Tracks limit userId times (signLimitStep limit t r).2 r.now.toNat := by
  rcases @find_step_of_ne limit t userId r hne hkeeps with hsame | ⟨hgone, e, he, hover⟩
  · exact ⟨h.bounded, fun e he => h.row e (hsame ▸ he), fun hnone => h.noRow (hsame ▸ hnone)⟩
  · obtain ⟨hstart, hopen⟩ := h.row e he
    refine ⟨h.bounded, fun e' he' => ?_, fun _ => ?_⟩
    · rw [hgone] at he'
      cases he'
    · exact hopen.over ((rateWindowS_le_sub_iff hstart).mp hover)

theorem tracks_run {reqs : List SignRequest} (hsorted : reqs.Pairwise fun a b => a.now ≤ b.now)
    (hkeeps : Guarded (signLimitStep limit) (KeepsBudget userId) .empty reqs)
    (hnow : ∀ r ∈ reqs, r.now.toNat ≤ now) :
    Tracks limit userId (passed limit userId reqs) (run (signLimitStep limit) .empty reqs) now := by
  induction reqs using List.reverseRecOn generalizing now with
  | nil =>
    refine ⟨windowBounded_nil, fun e he => ?_, fun _ => windowOver_nil now⟩
    cases he
  | append_singleton reqs r ih =>
    obtain ⟨hearlier, -, hlast⟩ := List.pairwise_append.mp hsorted
    obtain ⟨hdone, hok, -⟩ := guarded_append.mp hkeeps
    have h := @ih r.now.toNat hearlier hdone fun q hq =>
      UInt32.le_iff_toNat_le.mp (hlast q hq r (List.mem_singleton_self r))
    rw [run_append, passed_concat]
    refine Tracks.mono ?_ (hnow r (by simp))
    by_cases hid : r.userId = userId
    · subst hid
      simpa using h.request
    · rw [if_neg fun hpass => hid hpass.1, List.append_nil]
      exact h.other (Ne.symm hid) hok

/-- When the clock does not go back and the user is never displaced in the middle of a window, no
interval of 60 seconds has more than twice the limit of the user's requests let through, whatever
other users request. -/
theorem withinLimit_of_keepsBudget (limit : SignLimitPerMin) (userId : Bytes)
    (reqs : List SignRequest) (hsorted : reqs.Pairwise fun a b => a.now ≤ b.now)
    (hkeeps : Guarded (signLimitStep limit) (KeepsBudget userId) .empty reqs) :
    WithinLimit limit userId reqs :=
  (tracks_run hsorted hkeeps fun r _ =>
    -- Any bound on the times will do, and a clock of 32 bits has one.
    Nat.le_of_lt r.now.toNat_lt).bounded

/-- A user at the end of a window and at the beginning of the next, with somebody in between. -/
def twoWindows : List SignRequest :=
  [⟨[97], 0⟩, ⟨[98], 59⟩, ⟨[97], 59⟩, ⟨[97], 60⟩, ⟨[97], 61⟩]

theorem withinLimit_twoWindows : WithinLimit ⟨1, by decide⟩ [97] twoWindows :=
  withinLimit_of_keepsBudget ⟨1, by decide⟩ [97] twoWindows (by decide) (by decide)

/-- A user, and requests under 32 other names before each further one of the user. -/
def flooded : List SignRequest :=
  let others (from_ : Nat) : List SignRequest :=
    (List.range 32).map fun k => ⟨toDecimal (from_ + k), 0⟩
  [⟨[97], 0⟩] ++ others 0 ++ [⟨[97], 0⟩] ++ others 32 ++ [⟨[97], 0⟩]

/-- With a limit of one, three requests are let through in the same second. -/
theorem not_withinLimit_flooded : (flooded.Pairwise fun a b => a.now ≤ b.now) ∧
    passed ⟨1, by decide⟩ [97] flooded = [0, 0, 0] ∧ ¬ WithinLimit ⟨1, by decide⟩ [97] flooded := by
  have hpassed : passed ⟨1, by decide⟩ [97] flooded = [0, 0, 0] := by decide +kernel
  refine ⟨by decide +kernel, hpassed, fun h => ?_⟩
  have hbound := h 0
  rw [hpassed] at hbound
  revert hbound
  decide

end VirtualHsm.Firmware
