import Mathlib.Data.List.DropRight
import Mathlib.Data.Nat.Digits.Defs
import VirtualHsm.Firmware.AuditTrail

/-!
# The audit trail over power losses

An event is two writes to the card: a line behind the log, and the number and hash of the next line
into the state file. A start reads the state file and logs itself. When the power goes between the
two writes, the next start repeats a number that the log has already, and names the hash of the
record before the last one.

A write is done or not done here; torn lines are the subject of `auditLog` itself. The build option
for the trail is on, as without it nothing is written.
-/

namespace VirtualHsm.Firmware

open CS

/-! ### Calls that lose the power -/

/-- The power goes in front of the append, between the append and the rewrite of the state file, or
not at all. -/
inductive Cut
  | none
  | beforeAppend
  | beforeState
  deriving DecidableEq, Repr

/-- What the card gets to do. -/
def Cut.io : Cut → CardIo
  | .none => ⟨.full, true⟩
  | .beforeAppend => ⟨.unopened, false⟩
  | .beforeState => ⟨.full, false⟩

structure Powered where
  dev : Device
  on : Bool
  deriving DecidableEq, Repr

/-- A device that has not been started, with an empty card. -/
def Powered.unused : Powered := ⟨.fresh, false⟩

inductive PowerCall
  | boot (ts : UInt32) (cut : Cut)
  | log (event : AuditEvent) (user detail : Option Bytes) (ts : UInt32) (cut : Cut)
  deriving DecidableEq, Repr

def PowerCall.cut : PowerCall → Cut
  | .boot _ cut => cut
  | .log _ _ _ _ cut => cut

section Step

variable (sha256 : Bytes → Bytes)

/-- `audit_init` and `audit_log`. A device without power has to be started before it logs, and a
start is possible at any time. -/
def powerStep (p : Powered) : PowerCall → Unit × Powered
  | .boot ts cut => ((), ⟨auditInit sha256 true p.dev ts cut.io, cut = .none⟩)
  | .log event user detail ts cut =>
    ((), if p.on then ⟨auditLog sha256 true p.dev event user detail ts cut.io, cut = .none⟩ else p)

end Step

/-! ### The parts of a line -/

/-- What stands in front of the first comma. -/
def seqField (line : Bytes) : Bytes := line.takeWhile (· ≠ 44)

/-- What stands behind the last comma. -/
def prevField (line : Bytes) : Bytes := line.rtakeWhile (· ≠ 44)

/-- What stands in front of the last comma. -/
def recordPart (line : Bytes) : Bytes := (line.rdropWhile (· ≠ 44)).dropLast

/-- The lines have the numbers 0, 1, 2 and so on, and every line but the first has the hash of the
record before it behind its last comma. -/
structure ChainIntact (sha256 : Bytes → Bytes) (lines : List Bytes) : Prop where
  seq : ∀ i t, lines[i]? = some t → seqField t = toDecimal i
  prev : ∀ i t u, lines[i]? = some t → lines[i + 1]? = some u →
    prevField u = sha256Hex sha256 (recordPart t)

namespace AuditLine

variable {l : AuditLine}

theorem prevField_text (hl : 44 ∉ l.prev) : prevField l.text = l.prev := by
  rw [prevField, text, List.rtakeWhile, List.reverse_append, List.reverse_cons, List.append_assoc,
    List.takeWhile_append_of_pos]
  · simp
  · intro b hb
    simpa using fun h : b = 44 => hl (h ▸ List.mem_reverse.mp hb)

theorem recordPart_text (hl : 44 ∉ l.prev) : recordPart l.text = l.record := by
  have hparts := @List.rdropWhile_append_rtakeWhile _ (· ≠ 44) l.text
  -- What is behind the last comma is known, so what is left is the record and the comma.
  have hprev := prevField_text hl
  rw [prevField] at hprev
  have htext : l.text = (l.record ++ [44]) ++ l.prev := by simp [text]
  rw [hprev, htext, List.append_cancel_right_eq] at hparts
  rw [recordPart, htext, hparts, List.dropLast_concat]

end AuditLine

theorem length_toDecimal_le (n : UInt32) : (toDecimal n.toNat).length ≤ 10 := by
  rw [toDecimal, List.length_map]
  exact Nat.toDigits_length 10 n.toNat 10 (by decide) (n.toNat_lt.trans (by decide))

/-- The record of an event and the hash behind it. -/
def entry (st : AuditState) (event : AuditEvent) (user detail : Option Bytes) (ts : UInt32) :
    AuditLine :=
  ⟨auditRaw st.seq ts event user detail, st.prevHash⟩

theorem seqField_entry (st : AuditState) (event : AuditEvent) (user detail : Option Bytes)
    (ts : UInt32) : seqField (entry st event user detail ts).text = toDecimal st.seq.toNat := by
  have hlength := length_toDecimal_le st.seq
  have hdigits : ∀ b ∈ toDecimal st.seq.toNat, decide (b ≠ 44) = true := by
    intro b hb
    have hrange := (mem_toDecimal hb).1
    simp only [ne_eq, decide_not, Bool.not_eq_eq_eq_not, Bool.not_true, decide_eq_false_iff_not]
    rintro rfl
    revert hrange
    decide
  obtain ⟨room, hroom⟩ : ∃ room, 511 - (toDecimal st.seq.toNat).length = room + 1 :=
    ⟨510 - (toDecimal st.seq.toNat).length, by omega⟩
  simp only [seqField, AuditLine.text, entry, auditRaw, List.append_assoc, List.cons_append]
  rw [List.take_append, hroom, List.take_of_length_le (by omega), List.append_assoc,
    List.takeWhile_append_of_pos hdigits]
  simp

/-! ### What is in the file -/

/-- A hash as text, with no character that separates fields or lines. -/
def CleanHash (h : Bytes) : Prop := 10 ∉ h ∧ 44 ∉ h

theorem cleanHash_initialHash : CleanHash initialHash :=
  ⟨fun h => safe_genesis 10 h (by decide), fun h => by simp [initialHash] at h⟩

theorem cleanHash_sha256Hex (sha256 : Bytes → Bytes) (data : Bytes) :
    CleanHash (sha256Hex sha256 data) := by
  have hdigit : ∀ k < 16, (hexDigit k).toNat.toUInt8 ≠ 44 := by decide
  refine ⟨fun h => safe_toHex _ 10 h (by decide), fun h => ?_⟩
  obtain ⟨k, hk, heq⟩ := exists_hexDigit_of_mem_toHex h
  exact hdigit k hk heq

/-- The file consists of these lines, each with the number of some state in front. -/
structure Holds (file : Bytes) (ls : List AuditLine) : Prop where
  file : file = ls.flatMap fun l => l.text ++ [10]
  newlines : ∀ l ∈ ls, 10 ∉ l.text
  commas : ∀ l ∈ ls, 44 ∉ l.prev
  numbers : ∀ l ∈ ls, ∃ seq : UInt32, seqField l.text = toDecimal seq.toNat

variable {sha256 : Bytes → Bytes} {p : Powered} {a : PowerCall} {file : Bytes}
  {ls : List AuditLine} {st : AuditState}

theorem Holds.fileLines_eq (h : Holds file ls) : fileLines file = ls.map AuditLine.text := by
  rw [h.file, fileLines_flatMap h.newlines]

theorem Holds.append (h : Holds file ls) (hst : CleanHash st.prevHash) (event : AuditEvent)
    (user detail : Option Bytes) (ts : UInt32) :
    Holds (file ++ ((entry st event user detail ts).text ++ [10]))
      (ls ++ [entry st event user detail ts]) where
  file := by simp [h.file]
  newlines := by
    refine List.forall_mem_append.mpr ⟨h.newlines, List.forall_mem_singleton.mpr ?_⟩
    rw [AuditLine.text, List.mem_append, List.mem_cons]
    rintro (hraw | hcomma | hprev)
    · exact notMem_auditRaw _ _ _ _ _ hraw
    · cases hcomma
    · exact hst.1 hprev
  commas := List.forall_mem_append.mpr ⟨h.commas, List.forall_mem_singleton.mpr hst.2⟩
  numbers := List.forall_mem_append.mpr
    ⟨h.numbers, List.forall_mem_singleton.mpr ⟨st.seq, seqField_entry st event user detail ts⟩⟩

/-! ### What a call does -/

namespace PowerCall

/-- The number and hash that a call goes by; a device without power logs nothing. -/
def source (p : Powered) : PowerCall → Option AuditState
  | .boot _ _ => some p.dev.stored
  | .log _ _ _ _ _ => if p.on then some p.dev.ram else none

/-- The line of a call. -/
def line (st : AuditState) : PowerCall → AuditLine
  | .boot ts _ => entry st .boot none (some "ESP32 signing HSM started".toUTF8.toList) ts
  | .log event user detail ts _ => entry st event user detail ts

/-- Number and hash after a line. -/
def next (sha256 : Bytes → Bytes) (st : AuditState) (a : PowerCall) : AuditState :=
  ⟨st.seq + 1, (a.line st).hash sha256⟩

end PowerCall

theorem Holds.append_line (h : Holds file ls) (hst : CleanHash st.prevHash) (a : PowerCall) :
    Holds (file ++ ((a.line st).text ++ [10])) (ls ++ [a.line st]) := by
  cases a <;> exact h.append hst _ _ _ _

/-- All that a call does: each cut leaves a different part of it undone. -/
theorem powerStep_cases (sha256 : Bytes → Bytes) (p : Powered) (a : PowerCall) :
    (a.source p = none ∧ (powerStep sha256 p a).2 = p) ∨
    ∃ st, a.source p = some st ∧
      (a.cut = .beforeAppend ∧ (powerStep sha256 p a).2 = ⟨{ p.dev with ram := st }, false⟩ ∨
        a.cut = .beforeState ∧ (powerStep sha256 p a).2 =
          ⟨⟨a.next sha256 st, p.dev.logFile ++ ((a.line st).text ++ [10]), p.dev.stateFile⟩,
            false⟩ ∨
        a.cut = .none ∧ (powerStep sha256 p a).2 =
          ⟨⟨a.next sha256 st, p.dev.logFile ++ ((a.line st).text ++ [10]),
            some (a.next sha256 st)⟩, true⟩) := by
  cases a with
  | boot ts cut =>
    refine .inr ⟨p.dev.stored, rfl, ?_⟩
    cases cut with
    | beforeAppend => exact .inl ⟨rfl, rfl⟩
    | beforeState => exact .inr (.inl ⟨rfl, rfl⟩)
    | none => exact .inr (.inr ⟨rfl, rfl⟩)
  | log event user detail ts cut =>
    by_cases hon : p.on = true
    · refine .inr ⟨p.dev.ram, if_pos hon, ?_⟩
      simp only [powerStep, if_pos hon]
      cases cut with
      | beforeAppend => exact .inl ⟨rfl, rfl⟩
      | beforeState => exact .inr (.inl ⟨rfl, rfl⟩)
      | none => exact .inr (.inr ⟨rfl, rfl⟩)
    · refine .inl ⟨if_neg hon, ?_⟩
      simp only [powerStep, if_neg hon]

/-- Whatever happens, the file consists of whole lines, and no hash that a call goes by has a
separator in it. -/
structure Written (p : Powered) (ls : List AuditLine) : Prop where
  holds : Holds p.dev.logFile ls
  ram : CleanHash p.dev.ram.prevHash
  stored : CleanHash p.dev.stored.prevHash

theorem Written.source (h : Written p ls) (hst : a.source p = some st) : CleanHash st.prevHash := by
  cases a with
  | boot ts cut =>
    cases hst
    exact h.stored
  | log event user detail ts cut =>
    by_cases hon : p.on = true
    · obtain rfl : p.dev.ram = st := by simpa [PowerCall.source, hon] using hst
      exact h.ram
    · simp [PowerCall.source, hon] at hst

/-- A call leaves the lines that are there, and appends its own unless it loses the power first. -/
theorem Written.step (h : Written p ls) :
    Written (powerStep sha256 p a).2 ls ∧ (a.source p = none ∨ a.cut = .beforeAppend) ∨
      ∃ st, a.source p = some st ∧ a.cut ≠ .beforeAppend ∧
        Written (powerStep sha256 p a).2 (ls ++ [a.line st]) := by
  rcases powerStep_cases sha256 p a with ⟨hnone, hstep⟩ | ⟨st, hst, hcases⟩
  · rw [hstep]
    exact .inl ⟨h, .inl hnone⟩
  · have hclean := h.source hst
    have hnext : CleanHash (a.next sha256 st).prevHash := cleanHash_sha256Hex sha256 _
    have hholds := h.holds.append_line hclean a
    rcases hcases with ⟨hcut, hstep⟩ | ⟨hcut, hstep⟩ | ⟨hcut, hstep⟩
    · rw [hstep]
      exact .inl ⟨⟨h.holds, hclean, h.stored⟩, .inr hcut⟩
    · rw [hstep, hcut]
      exact .inr ⟨st, hst, Cut.noConfusion, hholds, hnext, h.stored⟩
    · rw [hstep, hcut]
      exact .inr ⟨st, hst, Cut.noConfusion, hholds, hnext, hnext⟩

theorem written_unused : Written .unused [] where
  holds := ⟨rfl, by simp, by simp, by simp⟩
  ram := cleanHash_initialHash
  stored := cleanHash_initialHash

/-! ### Starts that resume in step -/

/-- A start that gets to write its line finds the number of lines in the state file. -/
def ResumesInStep (p : Powered) : PowerCall → Prop
  | .boot _ cut =>
    cut ≠ .beforeAppend → p.dev.stored.seq.toNat = (fileLines p.dev.logFile).length
  | .log _ _ _ _ _ => True

instance (p : Powered) (a : PowerCall) : Decidable (ResumesInStep p a) :=
  match a with
  | .boot _ cut => inferInstanceAs (Decidable (cut ≠ .beforeAppend → _))
  | .log _ _ _ _ _ => inferInstanceAs (Decidable True)

/-- Number and hash for the line behind these. -/
def position (sha256 : Bytes → Bytes) (ls : List AuditLine) : AuditState :=
  ⟨UInt32.ofNat ls.length, lastHash (AuditLine.hash sha256) initialHash ls⟩

/-- The lines are numbered and chained, the device goes on behind the last, and what the state file
has is where some of the lines ended. -/
structure InStep (sha256 : Bytes → Bytes) (p : Powered) (ls : List AuditLine) : Prop
    extends Written p ls where
  seq : ∀ i l, ls[i]? = some l → seqField l.text = toDecimal (i % 2 ^ 32)
  chained : WellChained sha256 ls
  on : p.on = true → p.dev.ram = position sha256 ls
  behind : ∃ k ≤ ls.length, p.dev.stored = position sha256 (ls.take k)

theorem position_concat (a : PowerCall) (ls : List AuditLine) :
    position sha256 (ls ++ [a.line (position sha256 ls)]) =
      a.next sha256 (position sha256 ls) := by
  rw [position, lastHash_concat, List.length_append, List.length_singleton, UInt32.ofNat_add]
  rfl

theorem InStep.stored_eq (h : InStep sha256 p ls) (hseq : p.dev.stored.seq.toNat = ls.length) :
    p.dev.stored = position sha256 ls := by
  obtain ⟨k, hk, hstored⟩ := h.behind
  have hmod : (UInt32.ofNat (ls.take k).length).toNat = ls.length := by rw [← hseq, hstored]; rfl
  rw [UInt32.toNat_ofNat', List.length_take, Nat.min_eq_left hk] at hmod
  have hle := Nat.mod_le k (2 ^ 32)
  obtain rfl : k = ls.length := by omega
  rw [hstored, List.take_length]

theorem InStep.source (h : InStep sha256 p ls) (hok : ResumesInStep p a)
    (hcut : a.cut ≠ .beforeAppend) (hst : a.source p = some st) : st = position sha256 ls := by
  cases a with
  | boot ts cut =>
    cases hst
    have hcount := hok hcut
    rw [h.holds.fileLines_eq, List.length_map] at hcount
    exact h.stored_eq hcount
  | log event user detail ts cut =>
    by_cases hon : p.on = true
    · obtain rfl : p.dev.ram = st := by simpa [PowerCall.source, hon] using hst
      exact h.on hon
    · simp [PowerCall.source, hon] at hst

theorem seqField_line (st : AuditState) (a : PowerCall) :
    seqField (a.line st).text = toDecimal st.seq.toNat := by
  cases a <;> exact seqField_entry _ _ _ _ _

theorem InStep.continues (h : InStep sha256 p ls) (a : PowerCall) :
    (∀ i l, (ls ++ [a.line (position sha256 ls)])[i]? = some l →
      seqField l.text = toDecimal (i % 2 ^ 32)) ∧
    WellChained sha256 (ls ++ [a.line (position sha256 ls)]) := by
  constructor
  · intro i l hl
    rcases Nat.lt_trichotomy i ls.length with hlt | rfl | hlt
    · rw [List.getElem?_append_left hlt] at hl
      exact h.seq i l hl
    · rw [List.getElem?_concat_length] at hl
      cases hl
      rw [seqField_line, position, UInt32.toNat_ofNat']
    · rw [List.getElem?_eq_none (by simp; omega)] at hl
      cases hl
  · refine linked_concat.mpr ⟨h.chained, ?_⟩
    cases a <;> rfl

theorem InStep.step (h : ∃ ls, InStep sha256 p ls) (a : PowerCall) (hok : ResumesInStep p a) :
    ∃ ls, InStep sha256 (powerStep sha256 p a).2 ls := by
  obtain ⟨ls, h⟩ := h
  rcases powerStep_cases sha256 p a with ⟨-, hstep⟩ | ⟨st, hst, hcases⟩
  · rw [hstep]
    exact ⟨ls, h⟩
  · have hclean := h.toWritten.source hst
    have hnext : CleanHash (a.next sha256 st).prevHash := cleanHash_sha256Hex sha256 _
    have hholds := h.holds.append_line hclean a
    rcases hcases with ⟨-, hstep⟩ | ⟨hcut, hstep⟩ | ⟨hcut, hstep⟩
    · rw [hstep]
      exact ⟨ls, ⟨h.holds, hclean, h.stored⟩, h.seq, h.chained, nofun, h.behind⟩
    · obtain rfl := h.source hok (by rw [hcut]; exact Cut.noConfusion) hst
      obtain ⟨hseq, hchained⟩ := h.continues a
      obtain ⟨k, hk, hstored⟩ := h.behind
      rw [hstep]
      -- The state file is a line behind now, and the power is off.
      refine ⟨_, ⟨hholds, hnext, h.stored⟩, hseq, hchained, nofun, k, ?_, ?_⟩
      · rw [List.length_append]
        omega
      · rw [List.take_append_of_le_length hk]
        exact hstored
    · obtain rfl := h.source hok (by rw [hcut]; exact Cut.noConfusion) hst
      obtain ⟨hseq, hchained⟩ := h.continues a
      rw [hstep]
      refine ⟨_, ⟨hholds, hnext, hnext⟩, hseq, hchained, fun _ => (position_concat a ls).symm,
        _, Nat.le_refl _, ?_⟩
      rw [List.take_length, position_concat]
      rfl

theorem inStep_unused : InStep sha256 .unused [] where
  toWritten := written_unused
  seq := by simp
  chained := trivial
  on := nofun
  behind := ⟨0, Nat.le_refl 0, rfl⟩

/-! ### The chain -/

theorem ChainIntact.of_append {xs ys : List Bytes} (h : ChainIntact sha256 (xs ++ ys)) :
    ChainIntact sha256 xs := by
  have hleft {i : Nat} {t : Bytes} (ht : xs[i]? = some t) : (xs ++ ys)[i]? = some t := by
    rw [List.getElem?_append_left (List.getElem?_eq_some_iff.mp ht).1, ht]
  constructor
  · exact fun i t ht => h.seq i t (hleft ht)
  · exact fun i t u ht hu => h.prev i t u (hleft ht) (hleft hu)

theorem InStep.chainIntact (h : InStep sha256 p ls) (hlength : ls.length ≤ 2 ^ 32) :
    ChainIntact sha256 (ls.map AuditLine.text) where
  seq i t ht := by
    rw [List.getElem?_map, Option.map_eq_some_iff] at ht
    obtain ⟨l, hl, rfl⟩ := ht
    have hi := (List.getElem?_eq_some_iff.mp hl).1
    rw [h.seq i l hl, Nat.mod_eq_of_lt (by omega)]
  prev i t u ht hu := by
    rw [List.getElem?_map, Option.map_eq_some_iff] at ht hu
    obtain ⟨l, hl, rfl⟩ := ht
    obtain ⟨m, hm, rfl⟩ := hu
    obtain ⟨d, hd, hprev⟩ := h.chained.prev_succ hm
    obtain rfl : l = d := Option.mem_unique hl hd
    rw [AuditLine.prevField_text (h.holds.commas m (List.mem_of_getElem? hm)),
      AuditLine.recordPart_text (h.holds.commas l (List.mem_of_getElem? hl)), hprev]
    rfl

theorem written_run (sha256 : Bytes → Bytes) (calls : List PowerCall) :
    ∃ ls, Written (run (powerStep sha256) .unused calls) ls := by
  refine @Reachable.invariant _ _ _ _ (fun p => ∃ ls, Written p ls) ?_ _ _ ⟨calls, rfl⟩
    ⟨[], written_unused⟩
  rintro p a ⟨ls, h⟩
  rcases h.step with ⟨h', -⟩ | ⟨st, -, -, h'⟩
  · exact ⟨ls, h'⟩
  · exact ⟨_, h'⟩

/-- A number of 32 bits numbers so many lines. -/
theorem Written.length_le (h : Written p ls) (hchain : ChainIntact sha256 (ls.map AuditLine.text)) :
    ls.length ≤ 2 ^ 32 := by
  by_contra hlong
  have hlt : 2 ^ 32 < ls.length := by omega
  obtain ⟨seq, hseq⟩ := h.holds.numbers _ (List.getElem_mem hlt)
  have hline := hchain.seq (2 ^ 32) _ (by rw [List.getElem?_map, List.getElem?_eq_getElem hlt]; rfl)
  have heq := toDecimal_injective (hseq.symm.trans hline)
  have hbound := seq.toNat_lt
  omega

/-- Lines are only added, so that a wrong one stays. -/
theorem guarded_of_chainIntact (calls : List PowerCall)
    (h : ChainIntact sha256 (fileLines (run (powerStep sha256) .unused calls).dev.logFile)) :
    Guarded (powerStep sha256) ResumesInStep .unused calls := by
  induction calls using List.reverseRecOn with
  | nil => trivial
  | append_singleton calls a ih =>
    obtain ⟨ls, hw⟩ := written_run sha256 calls
    rw [run_append, run_cons, run_nil] at h
    rw [guarded_append]
    rcases hw.step with ⟨hw', hnone⟩ | ⟨st, hst, -, hw'⟩
    · rw [hw'.holds.fileLines_eq, ← hw.holds.fileLines_eq] at h
      refine ⟨ih h, ?_, trivial⟩
      cases a with
      | boot ts cut => exact fun hcut => absurd (hnone.resolve_left nofun) hcut
      | log event user detail ts cut => trivial
    · rw [hw'.holds.fileLines_eq, List.map_append] at h
      refine ⟨ih (hw.holds.fileLines_eq ▸ h.of_append), ?_, trivial⟩
      cases a with
      | boot ts cut =>
        intro _
        cases hst
        have hline := h.seq ls.length _ (by rw [List.getElem?_append_right (by simp)]; simp; rfl)
        rw [seqField_line] at hline
        rw [hw.holds.fileLines_eq, List.length_map]
        exact toDecimal_injective hline
      | log event user detail ts cut => trivial

/-- Over starts, events and losses of power, the lines are numbered from zero and chained exactly
when each start that writes its line finds the number of lines in the state file, and a number of
32 bits suffices for them. -/
theorem chainIntact_run_iff (sha256 : Bytes → Bytes) (calls : List PowerCall) :
    ChainIntact sha256 (fileLines (run (powerStep sha256) .unused calls).dev.logFile) ↔
      Guarded (powerStep sha256) ResumesInStep .unused calls ∧
        (fileLines (run (powerStep sha256) .unused calls).dev.logFile).length ≤ 2 ^ 32 := by
  constructor
  · intro h
    obtain ⟨ls, hw⟩ := written_run sha256 calls
    refine ⟨guarded_of_chainIntact calls h, ?_⟩
    rw [hw.holds.fileLines_eq] at h ⊢
    rw [List.length_map]
    exact hw.length_le h
  · rintro ⟨hguard, hlength⟩
    obtain ⟨ls, h⟩ := hguard.invariant (fun _ a h hok => InStep.step h a hok) ⟨[], inStep_unused⟩
    rw [h.holds.fileLines_eq, List.length_map] at hlength
    rw [h.holds.fileLines_eq]
    exact h.chainIntact hlength

/-- A start, a signature whose state file is not written, and the next start. -/
def tornRun : List PowerCall :=
  [.boot 0 .none, .log .sign none none 5 .beforeState, .boot 9 .none]

/-- The second and the third line have the same number. -/
theorem not_chainIntact_tornRun :
    (fileLines (run (powerStep id) .unused tornRun).dev.logFile).map seqField =
      [toDecimal 0, toDecimal 1, toDecimal 1] ∧
    ¬ ChainIntact id (fileLines (run (powerStep id) .unused tornRun).dev.logFile) :=
  ⟨by decide +kernel, fun h => absurd (guarded_of_chainIntact tornRun h) (by decide +kernel)⟩

end VirtualHsm.Firmware
