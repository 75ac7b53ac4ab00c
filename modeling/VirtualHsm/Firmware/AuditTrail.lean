import VirtualHsm.Audit.AuditWriter
import VirtualHsm.CS.HashChain

/-!
# The audit trail of the signing firmware

The device appends one line for each event to a file on its card. A line is a record and, behind
its last comma, the hash of the record before it. The hash covers the record only, not the hash
behind it, so each line vouches for one line and not for what came earlier.

SHA-256 is any function of the hashed bytes here. The digest has 32 bytes and its text 64
characters in the source; no function with outputs of one length is injective.
-/

namespace VirtualHsm.Firmware

open CS

/-! ### The device -/

/-- The events that handlers and start-up log. -/
inductive AuditEvent
  | boot
  | keyCreated
  | keyOverwritten
  | sign
  | rateLimited
  | authLocked
  | authFailed
  deriving DecidableEq, Repr

def AuditEvent.text : AuditEvent → String
  | .boot => "boot"
  | .keyCreated => "key_created"
  | .keyOverwritten => "key_overwritten"
  | .sign => "sign"
  | .rateLimited => "rate_limited"
  | .authLocked => "auth_locked"
  | .authFailed => "auth_failed"

/-- `s_audit_seq` and `s_audit_prev_hash`. -/
structure AuditState where
  seq : UInt32
  prevHash : Bytes
  deriving DecidableEq, Repr

/-- The text `%064u` of zero. -/
def initialHash : Bytes := List.replicate 64 48

/-- What `audit_init` starts from when there is no state file, or none that it can read. -/
def AuditState.initial : AuditState := ⟨0, initialHash⟩

structure Device where
  ram : AuditState
  /-- The bytes of `audit.log`. -/
  logFile : Bytes
  /-- The two lines of `.audit_state`, where there are two that can be read. -/
  stateFile : Option AuditState
  deriving DecidableEq, Repr

/-- How an append to the log file ends: it cannot be opened, it takes only some of the bytes, or it
takes them all. -/
inductive Append
  | unopened
  | short (written : Nat)
  | full
  deriving DecidableEq, Repr

/-- What the card does during a call. -/
structure CardIo where
  append : Append
  stateOpens : Bool
  deriving DecidableEq, Repr

/-- What the next start reads from the state file. -/
def Device.stored (dev : Device) : AuditState := dev.stateFile.getD .initial

/-- A device with an empty card, once `audit_init` has looked for a state file. -/
def Device.fresh : Device := ⟨.initial, [], none⟩

/-- `audit_sanitize`. -/
def auditSanitize (s : Bytes) : Bytes :=
  let t := s.map fun c => if c = 44 ∨ c = 10 ∨ c = 13 ∨ c = 34 then 95 else c
  if t = [] then [45] else t

/-- A field from a C string that may be null. -/
def auditField (s : Option Bytes) : Bytes :=
  auditSanitize ((s.map fun t => t.takeWhile (· ≠ 0)).getD [45])

/-- The record: `snprintf` leaves at most 511 characters. -/
def auditRaw (seq ts : UInt32) (event : AuditEvent) (user detail : Option Bytes) : Bytes :=
  (toDecimal seq.toNat ++ 44 :: toDecimal ts.toNat ++ 44 :: event.text.toUTF8.toList ++
    44 :: auditField user ++ 44 :: auditField detail).take 511

section Calls

variable (sha256 : Bytes → Bytes) (enabled : Bool)

def sha256Hex (data : Bytes) : Bytes := toHex (sha256 data)

/-- `audit_log`, at the time `ts`. `enabled` is the build option `HSM_AUDIT_ENABLED`. -/
def auditLog (dev : Device) (event : AuditEvent) (user detail : Option Bytes) (ts : UInt32)
    (io : CardIo) : Device :=
  if !enabled then dev
  else
    let raw := auditRaw dev.ram.seq ts event user detail
    let line := raw ++ 44 :: dev.ram.prevHash
    match io.append with
    | .unopened => dev
    -- After a short write, the newline missing, neither number nor hash move on.
    | .short n => { dev with logFile := dev.logFile ++ line.take n }
    | .full =>
      let ram := ⟨dev.ram.seq + 1, sha256Hex sha256 raw⟩
      { ram
        logFile := dev.logFile ++ (line ++ [10])
        stateFile := if io.stateOpens then some ram else dev.stateFile }

/-- `audit_init`. -/
def auditInit (dev : Device) (ts : UInt32) (io : CardIo) : Device :=
  if !enabled then dev
  else auditLog sha256 enabled { dev with ram := dev.stored } .boot none
    (some "ESP32 signing HSM started".toUTF8.toList) ts io

inductive AuditCall
  | init (ts : UInt32) (io : CardIo)
  | log (event : AuditEvent) (user detail : Option Bytes) (ts : UInt32) (io : CardIo)
  deriving DecidableEq, Repr

def AuditCall.io : AuditCall → CardIo
  | .init _ io => io
  | .log _ _ _ _ io => io

def step (dev : Device) : AuditCall → Unit × Device
  | .init ts io => ((), auditInit sha256 enabled dev ts io)
  | .log event user detail ts io => ((), auditLog sha256 enabled dev event user detail ts io)

end Calls

/-! ### Lines -/

/-- The lines of the rest of a file behind the bytes of `line`. Bytes behind the last newline are
no line. -/
def linesFrom : Bytes → Bytes → List Bytes
  | _, [] => []
  | line, b :: bs => if b = 10 then line :: linesFrom [] bs else linesFrom (line ++ [b]) bs

def fileLines (file : Bytes) : List Bytes := linesFrom [] file

theorem linesFrom_append {text : Bytes} (htext : 10 ∉ text) (line rest : Bytes) :
    linesFrom line (text ++ 10 :: rest) = (line ++ text) :: linesFrom [] rest := by
  induction text generalizing line with
  | nil => simp [linesFrom]
  | cons b text ih =>
    have hb : b ≠ 10 := fun h => htext (h ▸ List.mem_cons_self)
    rw [List.cons_append, linesFrom, if_neg hb, ih fun h => htext (List.mem_cons_of_mem b h),
      List.append_assoc, List.singleton_append]

/-- A record and the hash behind its last comma. -/
structure AuditLine where
  record : Bytes
  prev : Bytes
  deriving DecidableEq, Repr

namespace AuditLine

def text (l : AuditLine) : Bytes := l.record ++ 44 :: l.prev

/-- What the next line carries. -/
def hash (sha256 : Bytes → Bytes) (l : AuditLine) : Bytes := sha256Hex sha256 l.record

end AuditLine

theorem fileLines_flatMap {ls : List AuditLine} (hls : ∀ l ∈ ls, 10 ∉ l.text) :
    fileLines (ls.flatMap fun l => l.text ++ [10]) = ls.map AuditLine.text := by
  induction ls with
  | nil => rfl
  | cons l ls ih =>
    have hrest := ih fun l' hl' => hls l' (List.mem_cons_of_mem l hl')
    rw [fileLines] at hrest ⊢
    rw [List.flatMap_cons, List.append_assoc, List.singleton_append,
      linesFrom_append (hls l List.mem_cons_self), hrest, List.nil_append, List.map_cons]

variable (sha256 : Bytes → Bytes)

/-- The last field of the first line is the initial value, that of every other line the hash of the
record before it. -/
def WellChained (ls : List AuditLine) : Prop :=
  Linked AuditLine.prev (AuditLine.hash sha256) initialHash ls

/-- The lines of the log are the only well-chained ones, of their number, whose final record has the
stored hash. -/
def TailCommits (dev : Device) : Prop :=
  ∀ ls : List AuditLine, WellChained sha256 ls → ls.length = (fileLines dev.logFile).length →
    (∀ last, ls.getLast? = some last → last.hash sha256 = dev.stored.prevHash) →
    ls.map AuditLine.text = fileLines dev.logFile

/-! ### What complete writes leave -/

theorem notMem_auditField (s : Option Bytes) : 10 ∉ auditField s := by
  unfold auditField auditSanitize
  intro h
  simp only at h
  split_ifs at h with hnil
  · cases List.mem_singleton.mp h
  · obtain ⟨c, -, hc⟩ := List.mem_map.mp h
    split_ifs at hc with hspecial
    · cases hc
    · exact hspecial (.inr (.inl hc))

theorem notMem_toDecimal (n : Nat) : 10 ∉ toDecimal n := by
  intro h
  have hrange := (mem_toDecimal h).1
  revert hrange
  decide

theorem notMem_auditRaw (seq ts : UInt32) (event : AuditEvent) (user detail : Option Bytes) :
    10 ∉ auditRaw seq ts event user detail := by
  have hevent : 10 ∉ event.text.toUTF8.toList := by cases event <;> decide +kernel
  intro h
  have hmem := List.mem_of_mem_take h
  simp only [List.cons_append, List.append_assoc, List.mem_append, List.mem_cons,
    notMem_toDecimal, notMem_auditField, hevent, false_or, or_false] at hmem
  revert hmem
  decide

/-- The file consists of well-chained lines, and memory and state file have the hash of the last. -/
structure Wrote (dev : Device) (ls : List AuditLine) : Prop where
  file : dev.logFile = ls.flatMap fun l => l.text ++ [10]
  newlines : ∀ l ∈ ls, 10 ∉ l.text
  chained : WellChained sha256 ls
  tail : dev.ram.prevHash = lastHash (AuditLine.hash sha256) initialHash ls
  stored : dev.stored = dev.ram

/-- The card takes all that the call writes to it. -/
def Complete (_ : Device) (a : AuditCall) : Prop := a.io = ⟨.full, true⟩

instance (dev : Device) (a : AuditCall) : Decidable (Complete dev a) :=
  inferInstanceAs (Decidable (_ = _))

variable {sha256} {dev : Device} {ls : List AuditLine}

theorem notMem_lastHash (sha256 : Bytes → Bytes) (ls : List AuditLine) :
    10 ∉ lastHash (AuditLine.hash sha256) initialHash ls := by
  cases hlast : ls.getLast? with
  | none =>
    obtain rfl := List.getLast?_eq_none_iff.mp hlast
    exact fun h => safe_genesis 10 h (by decide)
  | some last =>
    rw [lastHash_of_getLast? hlast]
    exact fun h => safe_toHex _ 10 h (by decide)

theorem Wrote.fileLines_eq (h : Wrote sha256 dev ls) :
    fileLines dev.logFile = ls.map AuditLine.text := by
  rw [h.file, fileLines_flatMap h.newlines]

theorem Wrote.auditLog (h : Wrote sha256 dev ls) (event : AuditEvent) (user detail : Option Bytes)
    (ts : UInt32) :
    ∃ l, Wrote sha256 (auditLog sha256 true dev event user detail ts ⟨.full, true⟩)
      (ls ++ [l]) := by
  refine ⟨⟨auditRaw dev.ram.seq ts event user detail, dev.ram.prevHash⟩, ?_, ?_, ?_, ?_, rfl⟩
  · simp [Firmware.auditLog, h.file, AuditLine.text]
  · -- Neither the record nor a hash as text has a newline.
    refine List.forall_mem_append.mpr ⟨h.newlines, List.forall_mem_singleton.mpr ?_⟩
    rw [AuditLine.text, List.mem_append, List.mem_cons, h.tail]
    rintro (hraw | hcomma | hprev)
    · exact notMem_auditRaw _ _ _ _ _ hraw
    · cases hcomma
    · exact notMem_lastHash sha256 ls hprev
  · exact linked_concat.mpr ⟨h.chained, h.tail⟩
  · rw [lastHash_concat]
    rfl

theorem wrote_fresh : Wrote sha256 .fresh [] where
  file := rfl
  newlines := by simp
  chained := trivial
  tail := rfl
  stored := rfl

theorem Wrote.step {enabled : Bool} (h : ∃ ls, Wrote sha256 dev ls) (a : AuditCall)
    (hio : Complete dev a) : ∃ ls, Wrote sha256 (step sha256 enabled dev a).2 ls := by
  obtain ⟨ls, h⟩ := h
  cases enabled with
  | false => cases a <;> exact ⟨ls, h⟩
  | true =>
    cases a with
    | log event user detail ts io =>
      obtain rfl : io = ⟨.full, true⟩ := hio
      exact ⟨_, (h.auditLog event user detail ts).choose_spec⟩
    | init ts io =>
      obtain rfl : io = ⟨.full, true⟩ := hio
      -- Reading the state file back changes nothing.
      have hram : { dev with ram := dev.stored } = dev := by rw [h.stored]
      obtain ⟨l, hl⟩ := h.auditLog .boot none
        (some "ESP32 signing HSM started".toUTF8.toList) ts
      refine ⟨ls ++ [l], ?_⟩
      simp only [Firmware.step, auditInit, hram]
      exact hl

/-! ### What the stored hash commits to -/

theorem Wrote.tailCommits (hinj : Function.Injective sha256) (h : Wrote sha256 dev ls)
    (hlength : ls.length ≤ 1) : TailCommits sha256 dev := by
  intro forged hchain hcount hlast
  rw [h.fileLines_eq] at hcount ⊢
  rw [List.length_map] at hcount
  match ls, forged, hlength, hcount with
  | [], [], _, _ => rfl
  | [l], [f], _, _ =>
    have hhash : f.hash sha256 = l.hash sha256 := (hlast f rfl).trans (h.stored ▸ h.tail)
    have hrecord : f.record = l.record := hinj (toHex_injective hhash)
    have hprev : f.prev = l.prev := hchain.1.trans h.chained.1.symm
    rw [List.map_singleton, List.map_singleton, AuditLine.text, AuditLine.text, hrecord, hprev]

theorem Wrote.not_tailCommits (h : Wrote sha256 dev ls) (hlength : 1 < ls.length) :
    ¬ TailCommits sha256 dev := by
  intro hcommits
  match ls, hlength with
  | l₁ :: l₂ :: rest, _ =>
    let forged : AuditLine := ⟨l₁.record ++ [45], l₁.prev⟩
    let relinked : AuditLine := ⟨l₂.record, forged.hash sha256⟩
    have hchain : WellChained sha256 (forged :: relinked :: rest) :=
      ⟨h.chained.1, rfl, h.chained.2.2⟩
    have heq := hcommits (forged :: relinked :: rest) hchain (by rw [h.fileLines_eq]; simp) ?_
    · rw [h.fileLines_eq] at heq
      have hlen := congrArg List.length (List.cons.inj heq).1
      simp [AuditLine.text, forged] at hlen
    · intro last hmem
      -- The last record is the same, and so is its hash.
      have htail : lastHash (AuditLine.hash sha256) initialHash (forged :: relinked :: rest) =
          last.hash sha256 := lastHash_of_getLast? hmem _
      rw [h.stored, h.tail]
      exact htail.symm

/-- Along every run on a card that takes what is written to it, the stored hash commits to the log
exactly as long as the log has at most one line. -/
theorem tailCommits_iff (hinj : Function.Injective sha256) (enabled : Bool) (calls : List AuditCall)
    (hio : Guarded (step sha256 enabled) Complete .fresh calls) :
    TailCommits sha256 (run (step sha256 enabled) .fresh calls) ↔
      (fileLines (run (step sha256 enabled) .fresh calls).logFile).length ≤ 1 := by
  obtain ⟨ls, h⟩ := hio.invariant (fun _ a h hok => Wrote.step h a hok) ⟨[], wrote_fresh⟩
  rw [h.fileLines_eq, List.length_map]
  constructor
  · intro hcommits
    by_contra hlong
    exact h.not_tailCommits (Nat.not_le.mp hlong) hcommits
  · exact h.tailCommits hinj

theorem tailCommits_boot : TailCommits id (run (step id true) .fresh [.init 0 ⟨.full, true⟩]) :=
  (tailCommits_iff Function.injective_id true [.init 0 ⟨.full, true⟩] (by decide)).mpr
    (by decide +kernel)

/-- A start, a failed authentication and a signature. -/
def signedRun : List AuditCall :=
  [.init 0 ⟨.full, true⟩, .log .authFailed none none 5 ⟨.full, true⟩,
    .log .sign (some "bob".toUTF8.toList) none 9 ⟨.full, true⟩]

/-- The same log with another event in the second line. -/
def forgedLines : List AuditLine :=
  let boot := "0,0,boot,-,ESP32 signing HSM started".toUTF8.toList
  let forged := "1,5,rate_limited,-,-".toUTF8.toList
  [⟨boot, initialHash⟩, ⟨forged, toHex boot⟩, ⟨"2,9,sign,bob,-".toUTF8.toList, toHex forged⟩]

/-- The forged lines are well chained and end in the record whose hash is stored. -/
theorem not_tailCommits_signedRun : Function.Injective (id : Bytes → Bytes) ∧
    Guarded (step id true) Complete .fresh signedRun ∧
    ¬ TailCommits id (run (step id true) .fresh signedRun) := by
  refine ⟨Function.injective_id, by decide, fun hcommits => ?_⟩
  have hlast (last : AuditLine) (h : forgedLines.getLast? = some last) :
      last.hash id = (run (step id true) .fresh signedRun).stored.prevHash := by
    cases h
    decide +kernel
  have heq := hcommits forgedLines ⟨rfl, rfl, rfl, trivial⟩ (by decide +kernel) hlast
  exact absurd heq (by decide +kernel)

end VirtualHsm.Firmware
