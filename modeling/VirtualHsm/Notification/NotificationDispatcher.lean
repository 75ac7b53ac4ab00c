import Mathlib.Data.List.Infix
import Mathlib.Data.List.TakeWhile
import VirtualHsm.CS.Backoff
import VirtualHsm.Core.Utils
import VirtualHsm.Notification.BoundedNotificationBus

/-!
# The notification dispatcher

For each event the dispatcher goes through the subscribers, asks whether the event matches, and if
so hands it to the adapter of the subscriber's channel, with retries for warnings and critical
events.

The filter of a subscriber is a list of texts separated by commas, and the scan over it accepts what
one expects. The log is less reliable: a delivery is always recorded as one attempt.
-/

namespace VirtualHsm

open CS

/-- What the dispatcher reads of a subscriber. -/
structure NotificationSubscriber where
  id : String
  channel : String
  minSeverity : String
  eventFilter : Option Bytes
  enabled : Bool := true
  deriving DecidableEq, Repr

/-- `severity_rank`: a text that is no severity has the rank -1. -/
def severityRank (severity : String) : Int :=
  if severity = "CRITICAL" then 3
  else if severity = "WARN" then 2
  else if severity = "INFO" then 1
  else -1

/-- `event_type_name`. -/
def NotificationEvent.EventType.name : NotificationEvent.EventType → String
  | .signCreated => "SIGN_CREATED"
  | .dbWriteFailed => "DB_WRITE_FAILED"
  | .ledgerCommitFailed => "LEDGER_COMMIT_FAILED"
  | .ledgerCommitted => "LEDGER_COMMITTED"
  | .ledgerVerifyFailed => "LEDGER_VERIFY_FAILED"
  | .verifyCompleted => "VERIFY_COMPLETED"
  | .verifyFailed => "VERIFY_FAILED"
  | .encryptCompleted => "ENCRYPT_COMPLETED"
  | .decryptCompleted => "DECRYPT_COMPLETED"
  | .wrapKeyCompleted => "WRAP_KEY_COMPLETED"
  | .unwrapKeyCompleted => "UNWRAP_KEY_COMPLETED"
  | .keyRotated => "KEY_ROTATED"
  | .keyDestroyed => "KEY_DESTROYED"
  | .integrityAlert => "INTEGRITY_ALERT"
  | .adminLogin => "ADMIN_LOGIN"
  | .pinLockout => "PIN_LOCKOUT"

def NotificationEvent.Severity.rank : NotificationEvent.Severity → Int
  | .critical => 3
  | .warning => 2
  | .info => 1

namespace NotificationDispatcher

/-! ### Matching -/

/-- A space or a tab. -/
def isBlank (c : UInt8) : Bool := c = ' '.toUInt8 || c = '\t'.toUInt8

/-- The token between its first and its last character that is not blank; without one it stays as it
is. An index that is not found is the length here. -/
def trim (token : Bytes) : Bytes :=
  let first := token.findIdx (!isBlank ·)
  let last := token.length - 1 - token.reverse.findIdx (!isBlank ·)
  if first ≠ token.length then (token.drop first).take (last - first + 1) else token

/-- The loop over the filter, from an index on. -/
def scan (name filter : Bytes) (start : Nat) : Bool :=
  if start ≤ filter.length then
    let rest := filter.drop start
    -- The comma's distance from the start; the whole length when there is none.
    let width := rest.idxOf ','.toUInt8
    let token := trim (rest.take width)
    if token ≠ [] ∧ token <:+: name then true
    else if width = rest.length then false
    else scan name filter (start + width + 1)
  else false
termination_by filter.length + 1 - start

/-- `matches`. -/
def matchesEvent (sub : NotificationSubscriber) (event : NotificationEvent) : Bool :=
  if sub.enabled = false then false
  else if 0 < severityRank sub.minSeverity ∧ event.severity.rank < severityRank sub.minSeverity then
    false
  else
    match sub.eventFilter with
    | none => true
    | some filter => if filter = [] then true else scan event.type.name.toUTF8.toList filter 0

/-- A text without the blanks at its ends. -/
def strip (token : Bytes) : Bytes := (token.reverse.dropWhile isBlank).reverse.dropWhile isBlank

/-- A part of a filter names the event. -/
def Names (name part : Bytes) : Prop := strip part ≠ [] ∧ strip part <:+: name

theorem trim_eq_strip {token : Bytes} (h : ∃ c ∈ token, (!isBlank c) = true) :
    trim token = strip token := by
  -- The token without the blanks at its end is the part up to the last character that is none.
  let j := token.reverse.findIdx (!isBlank ·)
  have hfront : (token.reverse.dropWhile isBlank).reverse = token.take (token.length - j) := by
    rw [List.dropWhile_eq_drop_findIdx_not, List.reverse_drop, List.reverse_reverse,
      List.length_reverse]
  have hmem : ∃ c ∈ token.take (token.length - j), (!isBlank c) = true := by
    obtain ⟨c, hc, hblank⟩ := h
    have hsplit := List.takeWhile_append_dropWhile (p := isBlank) (l := token.reverse)
    rw [← List.mem_reverse, ← hsplit, List.mem_append] at hc
    refine ⟨c, hfront ▸ List.mem_reverse.mpr (hc.resolve_left fun hc => ?_), hblank⟩
    rw [List.mem_takeWhile_imp hc] at hblank
    cases hblank
  have hlt := List.findIdx_lt_length_of_exists hmem
  have hfirst : token.findIdx (!isBlank ·) =
      (token.take (token.length - j)).findIdx (!isBlank ·) := by
    conv_lhs =>
      rw [← List.take_append_drop (token.length - j) token, List.findIdx_append, if_pos hlt]
  rw [← hfirst, List.length_take] at hlt
  have hwidth : token.length - 1 - j - token.findIdx (!isBlank ·) + 1 =
      token.length - j - token.findIdx (!isBlank ·) := by omega
  rw [strip, hfront, List.dropWhile_eq_drop_findIdx_not, ← hfirst, List.drop_take, trim,
    if_pos (by omega), hwidth]

/-- The names of events have no blanks, so that a token of blanks is not found in them. -/
theorem trim_iff_names {name token : Bytes} (hname : ∀ c ∈ name, isBlank c = false) :
    trim token ≠ [] ∧ trim token <:+: name ↔ Names name token := by
  by_cases h : ∃ c ∈ token, (!isBlank c) = true
  · rw [trim_eq_strip h, Names]
  · have hblank : ∀ c ∈ token, isBlank c = true := by simpa using h
    have hstrip : token.reverse.dropWhile isBlank = [] :=
      List.dropWhile_eq_nil_iff.mpr fun c hc => hblank c (List.mem_reverse.mp hc)
    have hfirst : token.findIdx (!isBlank ·) = token.length :=
      List.findIdx_eq_length.mpr fun c hc => by rw [hblank c hc]; rfl
    refine iff_of_false ?_ fun hnames => hnames.1 (by rw [strip, hstrip]; rfl)
    rw [trim, if_neg (not_not.mpr hfirst)]
    rintro ⟨hne, hocc⟩
    obtain ⟨c, hc⟩ := List.exists_mem_of_ne_nil token hne
    exact absurd (hblank c hc) (by rw [hname c (hocc.subset hc)]; decide)

theorem splitOn_eq (c : UInt8) (l : Bytes) :
    l.splitOn c = l.take (l.idxOf c) ::
      if l.idxOf c = l.length then [] else (l.drop (l.idxOf c + 1)).splitOn c := by
  induction l with
  | nil => rfl
  | cons x l ih =>
    rw [List.splitOn_cons_eq_if_modifyHead, List.idxOf_cons]
    by_cases hx : (x == c) = true
    · simp [hx]
    · rw [Bool.not_eq_true] at hx
      simp [hx, ih]

theorem scan_iff {name filter : Bytes} (hname : ∀ c ∈ name, isBlank c = false) {start : Nat}
    (hstart : start ≤ filter.length) :
    scan name filter start = true ↔
      ∃ part ∈ (filter.drop start).splitOn ','.toUInt8, Names name part := by
  fun_induction scan name filter start with
  | case1 start h rest width token hhit =>
    rw [splitOn_eq]
    exact iff_of_true rfl ⟨_, List.mem_cons_self, (trim_iff_names hname).mp hhit⟩
  | case2 start h rest width token hmiss hend =>
    rw [trim_iff_names hname] at hmiss
    rw [splitOn_eq, if_pos hend]
    simpa using hmiss
  | case3 start h rest width token hmiss hmore ih =>
    rw [trim_iff_names hname] at hmiss
    have hwidth : width ≤ rest.length := List.idxOf_le_length
    have hnext : start + width + 1 ≤ filter.length := by
      rw [List.length_drop] at hwidth hmore
      omega
    have hrest : rest.drop (width + 1) = filter.drop (start + width + 1) := List.drop_drop
    rw [ih hnext, splitOn_eq ','.toUInt8 (filter.drop start), if_neg hmore, ← hrest]
    simp only [List.mem_cons, exists_eq_or_imp]
    exact (or_iff_right hmiss).symm
  | case4 start h => exact absurd hstart h

theorem isBlank_of_mem_name (type : NotificationEvent.EventType) :
    ∀ c ∈ type.name.toUTF8.toList, isBlank c = false := by
  cases type <;> decide +kernel

theorem severityRank_pos_iff (severity : String) :
    0 < severityRank severity ↔ severity ∈ ["INFO", "WARN", "CRITICAL"] := by
  unfold severityRank
  split_ifs with h3 h2 h1
  · simp [h3]
  · simp [h2]
  · simp [h1]
  · simp [h1, h2, h3]

/-- **Subscriber filters mean what they say.** An event matches when the subscriber is enabled, the
severity is at least the minimum or the minimum is no severity, and without a filter or when a part
of the filter between commas, without the blanks around it, is not empty and occurs in the name of
the event. -/
theorem matchesEvent_iff (sub : NotificationSubscriber) (event : NotificationEvent) :
    matchesEvent sub event = true ↔ sub.enabled = true ∧
      (sub.minSeverity ∈ ["INFO", "WARN", "CRITICAL"] →
        severityRank sub.minSeverity ≤ event.severity.rank) ∧
      ∀ filter ∈ sub.eventFilter, filter = [] ∨
        ∃ part ∈ filter.splitOn ','.toUInt8,
          strip part ≠ [] ∧ strip part <:+: event.type.name.toUTF8.toList := by
  rw [matchesEvent, ← severityRank_pos_iff]
  split_ifs with henabled hrank
  · simp [henabled]
  · exact iff_of_false not_false fun h => absurd (h.2.1 hrank.1) (Int.not_le.mpr hrank.2)
  · have hrank' : 0 < severityRank sub.minSeverity →
        severityRank sub.minSeverity ≤ event.severity.rank := fun hpos =>
      Int.not_lt.mp fun hlt => hrank ⟨hpos, hlt⟩
    rw [and_iff_right (Bool.not_eq_false _ ▸ henabled), and_iff_right hrank']
    cases sub.eventFilter with
    | none => simp
    | some filter =>
      have hscan := @scan_iff _ filter (isBlank_of_mem_name event.type) 0 (Nat.zero_le _)
      rw [List.drop_zero] at hscan
      by_cases hempty : filter = []
      · simp [hempty]
      · simpa [hempty, Names] using hscan

/-! ### Delivery -/

/-- `NotificationDispatcher::RetryPolicy`, with its defaults. -/
structure RetryPolicy where
  maxRetries : Int := 3
  baseDelayMs : Int := 500
  maxDelayMs : Int := 30000
  multiplier : Int := 2
  deriving DecidableEq, Repr

inductive LogStatus
  | skipped
  | retrying
  | failed
  | delivered
  deriving DecidableEq, Repr

/-- A row of `notification_log`. -/
structure LogRow where
  timestamp : Int
  eventType : String
  subscriberId : String
  status : LogStatus
  attemptCount : Nat
  error : String
  deriving DecidableEq, Repr

/-- What a delivery did. -/
structure Delivery where
  attempts : Nat := 0
  pauses : List Int := []
  rows : List LogRow := []
  delivered : Bool := false

section Deliver

variable (p : RetryPolicy) (sub : NotificationSubscriber) (event : NotificationEvent)

/-- A row about the event and the subscriber. -/
def logRow (status : LogStatus) (attemptCount : Nat) (error : String) : LogRow :=
  ⟨event.timestamp, event.type.name, sub.id, status, attemptCount, error⟩

/-- Only warnings and critical events are retried. -/
def RetryPolicy.retries (severity : NotificationEvent.Severity) : Int :=
  if severity = .info then 0 else p.maxRetries

/-- The pause after a failed attempt. -/
def RetryPolicy.pause (attempt : Nat) : Option Int :=
  scaleUpTo p.maxDelayMs p.multiplier attempt p.baseDelayMs

/-- The row of a failed attempt. -/
def failureRow (attempt : Nat) : LogRow :=
  logRow sub event (if attempt < p.retries event.severity then .retrying else .failed) (attempt + 1)
    ("attempt " ++ toString (attempt + 1) ++ " failed")

/-- The rows of a loop of attempts and the answer of the call. A failed attempt is logged in the
loop, a success after it. -/
def deliveryOf (t : Attempts Unit Int) : Delivery where
  attempts := t.count
  pauses := t.pauses
  rows := t.failures.map (failureRow p sub event) ++
    if t.result.isSome then [logRow sub event .delivered 1 ""] else []
  delivered := t.result.isSome

/-- `deliver_with_retry`, with what the adapter answers to each attempt; nothing when a pause or the
number of a failed attempt, which starts from 1 in its row, is not defined. -/
def deliverWithRetry (registered : Bool) (deliver : Nat → Bool) : Option Delivery :=
  if registered = false then
    some { rows := [logRow sub event .skipped 1 ("no adapter for channel: " ++ sub.channel)] }
  else if p.retries event.severity < 0 then some {}
  else
    (retry (fun _ => true) (fun a => if deliver a then some () else none) p.pause
      (p.retries event.severity).toNat 0).bind fun t =>
      if t.failures.length < intLimit then some (deliveryOf p sub event t) else none

/-- What a delivery should be: one attempt for information, otherwise attempts until the first
success or the last retry; capped pauses; a row for each attempt that was followed by another and
one for the end, each with the number of attempts so far. -/
structure Truthful (deliver : Nat → Bool) (d : Delivery) : Prop where
  info : event.severity = .info → d.attempts = 1
  attempts_le : d.attempts ≤ p.retries event.severity + 1
  refused : ∀ a, a + 1 < d.attempts → deliver a = false
  delivered : d.delivered = deliver (d.attempts - 1)
  exhausted : d.delivered = false → d.attempts = p.retries event.severity + 1
  pauses : d.pauses = (List.range (d.attempts - 1)).map fun a =>
    min (p.baseDelayMs * p.multiplier ^ a) p.maxDelayMs
  rows : d.rows.map (fun r => (r.status, r.attemptCount)) =
    (List.range (d.attempts - 1)).map (fun a => (.retrying, a + 1)) ++
      [(if d.delivered then .delivered else .failed, d.attempts)]

/-- Non-negative fields and a multiplier of at least 1. -/
structure RetryPolicy.Valid : Prop where
  maxRetries : 0 ≤ p.maxRetries
  baseDelayMs : 0 ≤ p.baseDelayMs
  maxDelayMs : 0 ≤ p.maxDelayMs
  multiplier : 1 ≤ p.multiplier

end Deliver

variable {p : RetryPolicy} {sub : NotificationSubscriber} {event : NotificationEvent}
  {deliver : Nat → Bool}

theorem RetryPolicy.Valid.retries_nonneg (hp : p.Valid) (severity : NotificationEvent.Severity) :
    0 ≤ p.retries severity := by
  unfold retries
  split_ifs
  · exact Int.le_refl 0
  · exact hp.maxRetries

/-- A loop in which every attempt failed is logged as it should be. -/
theorem truthful_of_refused {t : Attempts Unit Int} {n : Nat} (hr : p.retries event.severity = n)
    (hrefused : ∀ a ≤ n, deliver a = false) (hresult : t.result = none)
    (hfailures : t.failures = List.range (n + 1))
    (hpauses : t.pauses = (List.range n).map fun a =>
      min (p.baseDelayMs * p.multiplier ^ a) p.maxDelayMs) :
    Truthful p event deliver (deliveryOf p sub event t) := by
  have hattempts : (deliveryOf p sub event t).attempts = n + 1 := by
    simp [deliveryOf, Attempts.count, hfailures, hresult]
  have hdelivered : (deliveryOf p sub event t).delivered = false := by simp [deliveryOf, hresult]
  constructor
  case info =>
    intro hinfo
    rw [RetryPolicy.retries, if_pos hinfo] at hr
    omega
  case attempts_le => omega
  case refused => exact fun a ha => hrefused a (by omega)
  case delivered => rw [hdelivered, hattempts, Nat.add_sub_cancel, hrefused n (Nat.le_refl n)]
  case exhausted => exact fun _ => by omega
  case pauses =>
    rw [hattempts]
    exact hpauses
  case rows =>
    have hrow (a : Nat) (ha : a ∈ List.range n) :
        ((failureRow p sub event a).status, (failureRow p sub event a).attemptCount) =
          (.retrying, a + 1) := by
      rw [failureRow, hr, if_pos (Int.ofNat_lt.mpr (List.mem_range.mp ha))]
      rfl
    have hlast : (failureRow p sub event n).status = .failed := by
      rw [failureRow, hr, if_neg (lt_irrefl _)]
      rfl
    rw [hattempts, hdelivered, deliveryOf, hresult, hfailures, List.range_succ, Nat.add_sub_cancel]
    simp only [List.map_append, List.map_map, List.map_cons, List.map_nil, hlast,
      Option.isSome_none, Bool.false_eq_true, if_false, List.append_nil]
    exact congrArg₂ (· ++ ·) (List.map_congr_left hrow) rfl

/-- **Deliveries are logged truthfully** exactly when the first attempt succeeds, or none does,
their number fits into an `int` and every pause is computed as it should: the base is not above the
cap, and no product that follows one up to the cap overflows. -/
theorem truthful_iff (hp : p.Valid) :
    (∃ d, deliverWithRetry p sub event true deliver = some d ∧ Truthful p event deliver d) ↔
      deliver 0 = true ∨
        (∀ a : Nat, a ≤ p.retries event.severity → deliver a = false) ∧
        p.retries event.severity + 1 < intLimit ∧
        (p.retries event.severity = 0 ∨ p.baseDelayMs ≤ p.maxDelayMs ∧
          ∀ i : Nat, i + 1 < p.retries event.severity →
            p.baseDelayMs * p.multiplier ^ i ≤ p.maxDelayMs →
              p.baseDelayMs * p.multiplier ^ (i + 1) < intLimit) := by
  have hnonneg := hp.retries_nonneg event.severity
  obtain ⟨r, hr⟩ := Int.eq_ofNat_of_zero_le hnonneg
  have hscale := @forall_scaleUpTo_iff _ _ p.maxDelayMs hp.baseDelayMs hp.multiplier r
  rw [deliverWithRetry, if_neg (by decide), if_neg (Int.not_lt.mpr hnonneg), hr, Int.toNat_natCast]
  simp only [Option.bind_eq_some_iff, Option.ite_none_right_eq_some, Option.some.injEq]
  constructor
  · rintro ⟨_, ⟨t, ht, hfits, rfl⟩, htruth⟩
    obtain ⟨n, hn, hcount, hbefore, hresult, hpauses, hfailures, hbudget⟩ := retry_zero ht
    have hattempts : (deliveryOf p sub event t).attempts = n + 1 := hcount
    cases hlast : deliver n with
    | true =>
      -- The last row says one attempt.
      rw [hlast, if_pos rfl] at hresult
      have hrows := htruth.rows
      rw [hattempts, deliveryOf, hresult, List.map_append] at hrows
      have hone := (List.append_inj' hrows rfl).2
      obtain rfl : n = 0 := by simpa [logRow] using hone
      exact .inl hlast
    | false =>
      rw [hlast, if_neg Bool.false_ne_true] at hresult
      obtain rfl := hbudget (fun _ => rfl) hresult
      refine .inr ⟨fun a ha => ?_, ?_, ?_⟩
      · rcases Nat.lt_or_eq_of_le (Int.ofNat_le.mp ha) with hlt | rfl
        · simpa using hbefore a hlt
        · exact hlast
      · simpa [hfailures, hresult] using hfits
      · have hall : t.pauses = _ := htruth.pauses
        rw [hattempts, Nat.add_sub_cancel] at hall
        have hpause : (List.range n).map p.pause = (List.range n).map fun a =>
            some (min (p.baseDelayMs * p.multiplier ^ a) p.maxDelayMs) := by
          rw [← hpauses, hall, List.map_map]
          rfl
        have hformula := hscale.mp fun a ha =>
          List.map_inj_left.mp hpause a (List.mem_range.mpr ha)
        exact_mod_cast hformula
  · rintro (hfirst | ⟨hrefused, hfits, hformula⟩)
    · -- The loop ends before it comes to a pause.
      refine ⟨deliveryOf p sub event { result := some () }, ⟨{ result := some () }, ?_, ?_⟩, ?_⟩
      · simp [retry, hfirst]
      · exact ⟨by decide, rfl⟩
      · have hone : ((1 : Nat) : Int) ≤ p.retries event.severity + 1 := by omega
        have hnone (a : Nat) : ¬ a + 1 < 1 := by omega
        exact ⟨fun _ => rfl, hone, fun a ha => absurd ha (hnone a), hfirst.symm, nofun, rfl, rfl⟩
    · have hpause := hscale.mpr (by exact_mod_cast hformula)
      have hends : ∃ t, retry (fun _ => true) (fun a => if deliver a then some () else none)
          p.pause r 0 = some t := exists_retry fun a ha => by
        rw [Nat.zero_add, RetryPolicy.pause, hpause a ha]
        rfl
      obtain ⟨t, ht⟩ := hends
      obtain ⟨n, hn, hcount, -, hresult, hpauses, hfailures, hbudget⟩ := retry_zero ht
      rw [hrefused n (Int.ofNat_le.mpr hn), if_neg Bool.false_ne_true] at hresult
      obtain rfl := hbudget (fun _ => rfl) hresult
      rw [hresult] at hfailures
      refine ⟨_, ⟨t, ht, by simpa [hfailures] using hfits, rfl⟩, ?_⟩
      have hall : t.pauses = (List.range n).map fun a =>
          min (p.baseDelayMs * p.multiplier ^ a) p.maxDelayMs := by
        refine List.map_injective_iff.mpr (Option.some_injective Int) (hpauses.trans ?_)
        rw [List.map_map]
        exact List.map_congr_left fun a ha => hpause a (List.mem_range.mp ha)
      exact truthful_of_refused hr (fun a ha => hrefused a (Int.ofNat_le.mpr ha)) hresult
        hfailures hall

/-- A subscriber by mail and a warning for it. -/
def operators : NotificationSubscriber :=
  { id := "ops", channel := "email", minSeverity := "WARN", eventFilter := none }

def lockout : NotificationEvent := ⟨.pinLockout, .warning, 0, "pkcs11", "user", "", "", "hsm"⟩

theorem truthful_lockout_refused :
    ({} : RetryPolicy).Valid ∧
      ∃ d, deliverWithRetry {} operators lockout true (fun _ => false) = some d ∧
        Truthful {} lockout (fun _ => false) d := by
  have hp : ({} : RetryPolicy).Valid := ⟨by decide, by decide, by decide, by decide⟩
  refine ⟨hp, (truthful_iff hp).mpr (.inr ⟨fun _ _ => rfl, by decide, .inr ⟨by decide, ?_⟩⟩)⟩
  rintro i (hi : (i : Int) + 1 < 3) -
  obtain rfl | rfl : i = 0 ∨ i = 1 := by omega
  · decide
  · decide

/-- The second attempt succeeds, and the log says that the first did. -/
theorem not_truthful_lockout_second :
    ({} : RetryPolicy).Valid ∧
      ∃ d, deliverWithRetry {} operators lockout true (fun a => a == 1) = some d ∧
        d.attempts = 2 ∧
        d.rows.map (fun r => (r.status, r.attemptCount)) = [(.retrying, 1), (.delivered, 1)] ∧
        ¬ Truthful {} lockout (fun a => a == 1) d := by
  refine ⟨⟨by decide, by decide, by decide, by decide⟩,
    deliveryOf {} operators lockout ⟨[0], [500], some ()⟩, rfl, by decide, by decide, fun h => ?_⟩
  exact absurd h.rows (by decide)

end NotificationDispatcher

end VirtualHsm
