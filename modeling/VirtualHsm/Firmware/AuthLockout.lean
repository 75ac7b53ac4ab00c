import VirtualHsm.CS.Run
import VirtualHsm.Core.Utils

/-!
# The authentication lockout of the firmware

A request to `/cmd` brings a token. Failures are counted in windows, and enough of them in one
window lock the interface for a while, during which no token is looked at. The first lock should
last for the base of the configuration, and each further lock without a success in between twice as
long, up to a maximum. The code doubles the base before its first use, and a success does not set it
back.
-/

namespace VirtualHsm.Firmware

/-- The lockout options of the build configuration, with their ranges and the base at most the
maximum. -/
structure LockoutConfig where
  failWindowS : Nat := 60
  failMax : Nat := 5
  lockBaseS : Nat := 30
  lockMaxS : Nat := 900
  window_range : 1 ≤ failWindowS ∧ failWindowS ≤ 3600 := by decide
  failMax_range : 1 ≤ failMax ∧ failMax ≤ 100 := by decide
  base_range : 1 ≤ lockBaseS ∧ lockBaseS ≤ 3600 := by decide
  max_range : 1 ≤ lockMaxS ∧ lockMaxS ≤ 86400 := by decide
  base_le : lockBaseS ≤ lockMaxS := by decide

/-- `s_auth_fail`. The fields are of type `uint32_t`. -/
structure AuthFail where
  windowStartS : Nat := 0
  failures : Nat := 0
  cooldownS : Nat := 0
  lockUntilS : Nat := 0
  deriving DecidableEq, Repr

namespace AuthFail

def lockRemainingS (s : AuthFail) (now : Nat) : Nat :=
  if s.lockUntilS ≠ 0 ∧ now < s.lockUntilS then s.lockUntilS - now else 0

/-- The window at a failure, which begins again when it is over. -/
def tracked (c : LockoutConfig) (s : AuthFail) (now : Nat) : AuthFail :=
  if c.failWindowS ≤ (now + 2 ^ 32 - s.windowStartS) % 2 ^ 32 then
    { s with windowStartS := now, failures := 0 }
  else s

/-- The cooldown of a lock that starts now. It is doubled before it is used. -/
def nextCooldownS (c : LockoutConfig) (s : AuthFail) : Nat :=
  let base := if s.cooldownS = 0 then c.lockBaseS else s.cooldownS
  if c.lockMaxS < base * 2 % 2 ^ 32 then c.lockMaxS else base * 2 % 2 ^ 32

/-- `record_auth_failure`. -/
def recordFailure (c : LockoutConfig) (s : AuthFail) (now : Nat) : AuthFail :=
  let s := s.tracked c now
  let failures := (s.failures + 1) % 2 ^ 32
  if c.failMax ≤ failures then
    { windowStartS := now
      failures := 0
      cooldownS := s.nextCooldownS c
      lockUntilS := (now + s.nextCooldownS c) % 2 ^ 32 }
  else { s with failures }

/-- `record_auth_success`. The cooldown stays. -/
def recordSuccess (s : AuthFail) (now : Nat) : AuthFail :=
  { s with lockUntilS := 0, windowStartS := now, failures := 0 }

end AuthFail

/-- The token of the build configuration. Without one there is no authentication. -/
abbrev ApiToken : Type := { token : Bytes // token ≠ [] }

/-- A request to `/cmd`: its time, whether the throttles stop it, and the authorization header if
there is one that can be read. -/
structure CmdRequest where
  now : Nat
  throttled : Bool := false
  authorization : Option Bytes := none
  deriving DecidableEq, Repr

/-- `check_auth`. -/
def checkAuth (token : ApiToken) (authorization : Option Bytes) : Bool :=
  match authorization with
  | none => false
  | some header =>
    "Bearer ".toUTF8.toList.isPrefixOf header && header.drop 7 == token.1

/-- What becomes of a request: stopped by a throttle, refused under a lock, refused for its token,
or let through to its command. The refusals come with the seconds of the lock that remain; a refusal
for the token without a lock has none. -/
inductive CmdAnswer
  | rateLimited
  | locked (retryAfter : Nat)
  | failed (retryAfter : Nat)
  | passed
  deriving DecidableEq, Repr

/-- The token was compared. -/
def CmdAnswer.compares : CmdAnswer → Bool
  | .rateLimited | .locked _ => false
  | .failed _ | .passed => true

/-- The start of `cmd_post_handler`, with authentication enabled. -/
def cmdPost (c : LockoutConfig) (token : ApiToken) (s : AuthFail) (r : CmdRequest) :
    CmdAnswer × AuthFail :=
  if r.throttled then (.rateLimited, s)
  else if 0 < s.lockRemainingS r.now then (.locked (s.lockRemainingS r.now), s)
  else if checkAuth token r.authorization then (.passed, s.recordSuccess r.now)
  else
    (.failed ((s.recordFailure c r.now).lockRemainingS r.now), s.recordFailure c r.now)

/-! ### The specification -/

/-- What the answers so far amount to: the window that is tracked with its failures, the locks since
the last success, and the end of the last lock. -/
structure Trail where
  start : Nat := 0
  failures : Nat := 0
  locks : Nat := 0
  lockEnd : Nat := 0
  deriving DecidableEq, Repr

namespace Trail

variable (c : LockoutConfig) (t : Trail)

/-- A failure in the window, or the first of a new one. -/
def fail (now : Nat) : Trail :=
  if c.failWindowS ≤ now - t.start then { t with start := now, failures := 1 }
  else { t with failures := t.failures + 1 }

def note (x : CmdRequest × CmdAnswer) : Trail :=
  match x.2 with
  | .rateLimited | .locked _ => t
  | .failed 0 => t.fail c x.1.now
  | .failed (d + 1) =>
    { start := x.1.now, failures := 0, locks := t.locks + 1, lockEnd := x.1.now + (d + 1) }
  | .passed => { t with start := x.1.now, failures := 0, locks := 0 }

def of (log : List (CmdRequest × CmdAnswer)) : Trail := log.foldl (note c) {}

/-- An answer is as specified: under a lock no token is compared, otherwise the token of every
request that is not throttled is; a lock starts at the failure that makes the number in its window
full, and lasts for the base doubled once for each lock in a row before it, up to the maximum. -/
structure Specified (x : CmdRequest × CmdAnswer) : Prop where
  silent : x.1.now < t.lockEnd → x.2.compares = false
  served : t.lockEnd ≤ x.1.now → x.1.throttled = false → x.2.compares = true
  starts : ∀ d, x.2 = .failed d → (0 < d ↔ (t.fail c x.1.now).failures = c.failMax)
  lasts : ∀ d, x.2 = .failed d → 0 < d → d = min (c.lockBaseS * 2 ^ t.locks) c.lockMaxS

end Trail

variable {c : LockoutConfig} {s : AuthFail} {r : CmdRequest} {t : Trail} {calm : Prop}

/-- Every answer is as specified after those before it. -/
def FollowsSpec (c : LockoutConfig) (log : List (CmdRequest × CmdAnswer)) : Prop :=
  ∀ before x after, log = before ++ x :: after → (Trail.of c before).Specified c x

/-- No lock starts. -/
def NoLock (log : List (CmdRequest × CmdAnswer)) : Prop := ∀ x ∈ log, ∀ d, x.2 = .failed d → d = 0

/-- At a time that no answer so far is later than, the state agrees with the answers; `calm` says
that no lock was among them. -/
structure Agrees (c : LockoutConfig) (t : Trail) (calm : Prop) (now : Nat) (s : AuthFail) :
    Prop where
  start : s.windowStartS = t.start
  start_le : t.start ≤ now
  failures : s.failures = t.failures
  failures_lt : s.failures < c.failMax
  lockUntil : s.lockUntilS = t.lockEnd ∨ s.lockUntilS = 0 ∧ t.lockEnd ≤ now
  cooldown_le : s.cooldownS ≤ c.lockMaxS
  le_cooldown : s.cooldownS = 0 ∨ c.lockBaseS ≤ s.cooldownS
  cooldown_zero : calm → s.cooldownS = 0 ∧ t.locks = 0

theorem Agrees.mono {now later : Nat} (h : Agrees c t calm now s) (hle : now ≤ later) :
    Agrees c t calm later s :=
  { h with
    start_le := Nat.le_trans h.start_le hle
    lockUntil := h.lockUntil.imp_right (And.imp_right fun hend => Nat.le_trans hend hle) }

/-! ### One request -/

/-- What a request can do. -/
inductive Outcome (c : LockoutConfig) (t : Trail) (s : AuthFail) (r : CmdRequest) :
    CmdAnswer × AuthFail → Prop
  | throttled (h : r.throttled = true) : Outcome c t s r (.rateLimited, s)
  | locked (d : Nat) (h : r.now < t.lockEnd) : Outcome c t s r (.locked d, s)
  | passed (h : t.lockEnd ≤ r.now) : Outcome c t s r (.passed, s.recordSuccess r.now)
  | failed (h : t.lockEnd ≤ r.now) (hfew : (t.fail c r.now).failures < c.failMax) :
      Outcome c t s r (.failed 0,
        { s with windowStartS := (t.fail c r.now).start, failures := (t.fail c r.now).failures })
  | locks (h : t.lockEnd ≤ r.now) (hfull : (t.fail c r.now).failures = c.failMax) :
      Outcome c t s r (.failed (s.nextCooldownS c),
        ⟨r.now, 0, s.nextCooldownS c, r.now + s.nextCooldownS c⟩)

section

variable (h : Agrees c t calm r.now s)
include h

theorem Agrees.nextCooldownS_eq :
    s.nextCooldownS c =
      min ((if s.cooldownS = 0 then c.lockBaseS else s.cooldownS) * 2) c.lockMaxS := by
  have hle := h.cooldown_le
  have hbase := c.base_range
  have hmax := c.max_range
  unfold AuthFail.nextCooldownS
  dsimp only
  split_ifs <;> omega

theorem Agrees.nextCooldownS_range :
    0 < s.nextCooldownS c ∧ c.lockBaseS ≤ s.nextCooldownS c ∧ s.nextCooldownS c ≤ c.lockMaxS := by
  have hbase := c.base_range
  have hle := c.base_le
  have hcooldown := h.le_cooldown
  rw [h.nextCooldownS_eq]
  split_ifs <;> omega

theorem Agrees.failures_fail :
    1 ≤ (t.fail c r.now).failures ∧
      (t.fail c r.now).failures ≤ c.failMax := by
  have hlt := h.failures_lt
  have hfailures := h.failures
  unfold Trail.fail
  split_ifs
  · exact ⟨Nat.le_refl 1, c.failMax_range.1⟩
  · dsimp only
    omega

theorem Agrees.lockRemainingS_eq : s.lockRemainingS r.now = t.lockEnd - r.now := by
  unfold AuthFail.lockRemainingS
  rcases h.lockUntil with heq | ⟨hzero, hend⟩
  · split_ifs <;> omega
  · rw [if_neg (fun hne => hne.1 hzero)]
    omega

variable (hlt : r.now < 2 ^ 31)
include hlt

theorem Agrees.tracked_eq :
    s.tracked c r.now =
      { s with
        windowStartS := (t.fail c r.now).start
        failures := (t.fail c r.now).failures - 1 } := by
  have hle := h.start_le
  have helapsed : (r.now + 2 ^ 32 - s.windowStartS) % 2 ^ 32 = r.now - t.start := by
    rw [h.start]
    omega
  unfold AuthFail.tracked Trail.fail
  rw [helapsed]
  split_ifs
  · rfl
  · dsimp only
    rw [← h.start, ← h.failures, Nat.add_sub_cancel]

/-- Times are small, so that no sum and no difference wraps around. -/
theorem Agrees.recordFailure_eq :
    s.recordFailure c r.now =
      if (t.fail c r.now).failures = c.failMax then
        ⟨r.now, 0, s.nextCooldownS c, r.now + s.nextCooldownS c⟩
      else
        { s with
          windowStartS := (t.fail c r.now).start
          failures := (t.fail c r.now).failures } := by
  obtain ⟨hpos, hle⟩ := h.failures_fail
  have hmax := c.failMax_range
  have hcount : ((t.fail c r.now).failures - 1 + 1) % 2 ^ 32 =
      (t.fail c r.now).failures := by omega
  have hlock : (r.now + s.nextCooldownS c) % 2 ^ 32 = r.now + s.nextCooldownS c := by
    have hnext := h.nextCooldownS_eq
    have hmax := c.max_range
    omega
  have hnext : AuthFail.nextCooldownS c { s with
      windowStartS := (t.fail c r.now).start
      failures := (t.fail c r.now).failures - 1 } = s.nextCooldownS c := rfl
  unfold AuthFail.recordFailure
  rw [h.tracked_eq hlt]
  simp only [hcount, hnext, hlock, (Nat.le_antisymm_iff.trans (and_iff_right hle)).symm]

theorem Agrees.outcome (token : ApiToken) : Outcome c t s r (cmdPost c token s r) := by
  have hremaining := h.lockRemainingS_eq
  have hle := h.failures_fail.2
  unfold cmdPost
  split_ifs with hthrottled hlocked hauth
  · exact .throttled hthrottled
  · exact .locked _ (by omega)
  · exact .passed (by omega)
  · rw [h.recordFailure_eq hlt]
    split_ifs with hfull
    · have hpos := h.nextCooldownS_range.1
      have hnew : AuthFail.lockRemainingS
          ⟨r.now, 0, s.nextCooldownS c, r.now + s.nextCooldownS c⟩ r.now = s.nextCooldownS c := by
        unfold AuthFail.lockRemainingS
        dsimp only
        rw [if_pos ⟨by omega, by omega⟩]
        omega
      rw [hnew]
      exact .locks (by omega) hfull
    · have hsame : AuthFail.lockRemainingS { s with
          windowStartS := (t.fail c r.now).start
          failures := (t.fail c r.now).failures } r.now = 0 := by
        change s.lockRemainingS r.now = 0
        omega
      rw [hsame]
      exact .failed (by omega) (Nat.lt_of_le_of_ne hle hfull)

theorem Agrees.cmdPost (token : ApiToken) :
    Agrees c (t.note c (r, (cmdPost c token s r).1))
      (calm ∧ ∀ d, (cmdPost c token s r).1 = .failed d → d = 0) r.now (cmdPost c token s r).2 := by
  have hout := h.outcome hlt token
  generalize Firmware.cmdPost c token s r = y at hout ⊢
  have hcalm {p : Prop} (hp : calm ∧ p) := h.cooldown_zero hp.1
  cases hout with
  | throttled _ | locked d _ => exact { h with cooldown_zero := hcalm }
  | passed hend =>
    exact ⟨rfl, Nat.le_refl _, rfl, c.failMax_range.1, .inr ⟨rfl, hend⟩, h.cooldown_le,
      h.le_cooldown, fun hp => ⟨(hcalm hp).1, rfl⟩⟩
  | failed hend hfew =>
    have hfail : (t.fail c r.now).lockEnd = t.lockEnd ∧ (t.fail c r.now).locks = t.locks ∧
        (t.fail c r.now).start ≤ r.now := by
      unfold Trail.fail
      split_ifs
      · exact ⟨rfl, rfl, Nat.le_refl _⟩
      · exact ⟨rfl, rfl, h.start_le⟩
    refine ⟨rfl, hfail.2.2, rfl, hfew, ?_, h.cooldown_le, h.le_cooldown,
      fun hp => ⟨(hcalm hp).1, ?_⟩⟩
    · exact hfail.1.symm ▸ h.lockUntil
    · exact hfail.2.1.trans (hcalm hp).2
  | locks hend hfull =>
    obtain ⟨hpos, hbase, hmax⟩ := h.nextCooldownS_range
    obtain ⟨d, hd⟩ : ∃ d, s.nextCooldownS c = d + 1 := ⟨_, (Nat.sub_add_cancel hpos).symm⟩
    rw [hd] at hbase hmax ⊢
    exact ⟨rfl, Nat.le_refl _, rfl, c.failMax_range.1, .inl rfl, hmax, .inr hbase,
      fun hp => nomatch hp.2 _ rfl⟩

/-- Below the maximum the first lock is too long; at the maximum all locks are as long as they
should be. -/
theorem Agrees.specified_iff (token : ApiToken) (hsofar : c.lockBaseS = c.lockMaxS ∨ calm) :
    t.Specified c (r, (Firmware.cmdPost c token s r).1) ↔
      c.lockBaseS = c.lockMaxS ∨ ∀ d, (Firmware.cmdPost c token s r).1 = .failed d → d = 0 := by
  have hout := h.outcome hlt token
  generalize Firmware.cmdPost c token s r = y at hout
  cases hout with
  | throttled hthrottled =>
    refine iff_of_true ⟨fun _ => rfl, fun _ hserved => ?_, nofun, nofun⟩ (.inr nofun)
    exact absurd (hthrottled.symm.trans hserved) (by decide)
  | locked d hlocked =>
    refine iff_of_true ⟨fun _ => rfl, fun hend => ?_, nofun, nofun⟩ (.inr nofun)
    exact absurd hend (Nat.not_le.mpr hlocked)
  | passed hend =>
    refine iff_of_true ⟨fun hlocked => ?_, fun _ _ => rfl, nofun, nofun⟩ (.inr nofun)
    exact absurd hend (Nat.not_le.mpr hlocked)
  | failed hend hfew =>
    refine iff_of_true ⟨fun hlocked => ?_, fun _ _ => rfl, fun d hd => ?_, fun d hd hpos => ?_⟩
      (.inr fun d hd => (CmdAnswer.failed.inj hd).symm)
    · exact absurd hend (Nat.not_le.mpr hlocked)
    · obtain rfl := CmdAnswer.failed.inj hd
      exact iff_of_false (Nat.lt_irrefl 0) (Nat.ne_of_lt hfew)
    · obtain rfl := CmdAnswer.failed.inj hd
      exact absurd hpos (Nat.lt_irrefl 0)
  | locks hend hfull =>
    obtain ⟨hpos, hlow, hhigh⟩ := h.nextCooldownS_range
    constructor
    · intro hspec
      have hlasts := hspec.lasts _ rfl hpos
      rcases hsofar with heq | hcalm
      · exact .inl heq
      · -- The base is doubled although no lock was before.
        obtain ⟨hzero, hlocks⟩ := h.cooldown_zero hcalm
        have hrange := c.base_range
        have hle := c.base_le
        rw [h.nextCooldownS_eq, if_pos hzero, hlocks] at hlasts
        omega
    · rintro (heq | hnone)
      · have hpow := Nat.le_mul_of_pos_right c.lockBaseS (Nat.two_pow_pos t.locks)
        refine ⟨fun hlocked => absurd hend (Nat.not_le.mpr hlocked), fun _ _ => rfl,
          fun d hd => ?_, fun d hd _ => ?_⟩
        · obtain rfl := CmdAnswer.failed.inj hd
          exact iff_of_true hpos hfull
        · obtain rfl := CmdAnswer.failed.inj hd
          omega
      · exact absurd (hnone _ rfl) (Nat.ne_of_gt hpos)

end

/-! ### Runs -/

section Run

variable (c : LockoutConfig) (token : ApiToken) (reqs : List CmdRequest)

/-- Requests in the order of their times, which are less than `2 ^ 31` seconds. -/
def Timed : Prop := (reqs.map CmdRequest.now).Pairwise (· ≤ ·) ∧ ∀ r ∈ reqs, r.now < 2 ^ 31

/-- The requests with their answers, after a start of the device. -/
def cmdLog : List (CmdRequest × CmdAnswer) := CS.history (cmdPost c token) {} reqs

end Run

variable {token : ApiToken} {reqs : List CmdRequest} {log : List (CmdRequest × CmdAnswer)}
  {x : CmdRequest × CmdAnswer}

theorem followsSpec_concat :
    FollowsSpec c (log ++ [x]) ↔ FollowsSpec c log ∧ (Trail.of c log).Specified c x := by
  constructor
  · intro h
    refine ⟨fun before y after heq => h before y (after ++ [x]) ?_, h log x [] rfl⟩
    rw [heq, List.append_assoc, List.cons_append]
  · rintro ⟨h, hx⟩ before y after heq
    induction after using List.reverseRecOn with
    | nil =>
      obtain ⟨rfl, hlast⟩ := List.append_inj' heq rfl
      exact List.singleton_inj.mp hlast ▸ hx
    | append_singleton after z _ =>
      rw [← List.cons_append, ← List.append_assoc] at heq
      exact h before y after (List.append_inj' heq rfl).1

theorem noLock_concat : NoLock (log ++ [x]) ↔ NoLock log ∧ ∀ d, x.2 = .failed d → d = 0 := by
  simp [NoLock, or_imp, forall_and]

theorem timed_concat :
    Timed (reqs ++ [r]) ↔ Timed reqs ∧ (∀ r' ∈ reqs, r'.now ≤ r.now) ∧ r.now < 2 ^ 31 := by
  simp [Timed, List.pairwise_append, or_imp, forall_and]
  tauto

theorem agrees_cmdLog (hreqs : Timed reqs) (token : ApiToken) {now : Nat}
    (hnow : ∀ r ∈ reqs, r.now ≤ now) :
    Agrees c (Trail.of c (cmdLog c token reqs)) (NoLock (cmdLog c token reqs)) now
      (CS.run (cmdPost c token) {} reqs) := by
  induction reqs using List.reverseRecOn generalizing now with
  | nil =>
    exact ⟨rfl, Nat.zero_le _, rfl, c.failMax_range.1, .inl rfl, Nat.zero_le _, .inl rfl,
      fun _ => ⟨rfl, rfl⟩⟩
  | append_singleton reqs r ih =>
    obtain ⟨hbefore, hlast, hlt⟩ := timed_concat.mp hreqs
    have hstep := (ih hbefore hlast).cmdPost hlt token
    rw [cmdLog, CS.history_concat, CS.run_append, Trail.of, List.foldl_append]
    refine Agrees.mono ?_ (hnow r (by simp))
    exact { hstep with cooldown_zero := fun hnone => hstep.cooldown_zero (noLock_concat.mp hnone) }

/-- **The lockout follows its specification** exactly when the base of the cooldown is its
maximum, or no lock ever starts. -/
theorem followsSpec_iff (hreqs : Timed reqs) :
    FollowsSpec c (cmdLog c token reqs) ↔
      c.lockBaseS = c.lockMaxS ∨ NoLock (cmdLog c token reqs) := by
  induction reqs using List.reverseRecOn with
  | nil => exact iff_of_true (fun before x after heq => by cases before <;> cases heq) (.inr nofun)
  | append_singleton reqs r ih =>
    obtain ⟨hbefore, hlast, hlt⟩ := timed_concat.mp hreqs
    have hagrees := agrees_cmdLog (c := c) hbefore token hlast
    have hconcat : cmdLog c token (reqs ++ [r]) = cmdLog c token reqs ++
        [(r, (cmdPost c token (CS.run (cmdPost c token) {} reqs) r).1)] := CS.history_concat ..
    rw [hconcat, followsSpec_concat, noLock_concat, ih hbefore, or_and_left]
    exact and_congr_right (hagrees.specified_iff hlt token)

/-- A token of one character. -/
def shortToken : ApiToken := ⟨['t'.toUInt8], by decide⟩

/-- The base is the maximum, and one failure locks. -/
theorem followsSpec_steady :
    Timed [⟨1, false, none⟩, ⟨30, false, none⟩] ∧ FollowsSpec { failMax := 1, lockMaxS := 30 }
      (cmdLog { failMax := 1, lockMaxS := 30 } shortToken
        [⟨1, false, none⟩, ⟨30, false, none⟩]) := by
  have htimed : Timed [⟨1, false, none⟩, ⟨30, false, none⟩] := ⟨by decide, by decide⟩
  exact ⟨htimed, (followsSpec_iff htimed).mpr (.inl rfl)⟩

/-- Five failures, a success after the lock, and five failures again, under the defaults. -/
def twoLocks : List CmdRequest :=
  List.replicate 5 ⟨1, false, none⟩ ++
    ⟨61, false, some ("Bearer ".toUTF8.toList ++ shortToken.1)⟩ ::
    List.replicate 5 ⟨62, false, none⟩

/-- The locks last for 60 and 120 seconds, where both should last for 30. -/
theorem not_followsSpec_twoLocks :
    Timed twoLocks ∧
      (cmdLog {} shortToken twoLocks).map Prod.snd = List.replicate 4 (.failed 0) ++
        .failed 60 :: .passed :: List.replicate 4 (.failed 0) ++ [.failed 120] ∧
      ¬ FollowsSpec {} (cmdLog {} shortToken twoLocks) := by
  refine ⟨⟨by decide, by decide⟩, by decide +kernel, fun h => ?_⟩
  have hspec := h ((cmdLog {} shortToken twoLocks).take 4) (⟨1, false, none⟩, .failed 60)
    ((cmdLog {} shortToken twoLocks).drop 5) (by decide +kernel)
  exact absurd (hspec.lasts 60 rfl (by decide)) (by decide +kernel)

end VirtualHsm.Firmware
