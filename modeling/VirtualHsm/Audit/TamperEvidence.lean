import VirtualHsm.Audit.AuditWriter
import VirtualHsm.CS.HashChain

/-!
# Tamper evidence of the audit log

Someone who can write the log file, but does not have the chain key, can put there only hashes
that the log's own appends have produced. Whatever the bytes of the file, if they verify then
the records in them are the first records that were appended: nothing can be altered, inserted,
reordered, repeated or removed, except at the end.

The texts of an event are not restricted here. A record with a separator in one of its fields
does not verify, and no other record has the same bytes.
-/

namespace VirtualHsm

namespace AuditRecord

variable {mac : Hmac} {key prev : Bytes} {e r : AuditRecord} {es : List AuditRecord}

theorem ChainFrom.linked (h : ChainFrom mac key prev es) :
    CS.Linked AuditRecord.prev AuditRecord.hmac prev es := by
  induction es generalizing prev with
  | nil => trivial
  | cons e es ih => exact ⟨h.1, ih h.2.2⟩

theorem ChainFrom.hmac_eq (h : ChainFrom mac key prev es) (he : e ∈ es) :
    e.hmac = e.chainHmac mac key := by
  induction es generalizing prev with
  | nil => cases he
  | cons x xs ih =>
    rcases List.mem_cons.mp he with rfl | hmem
    · exact h.2.1
    · exact ih h.2.2 hmem

theorem ChainFrom.length_prev (h : ChainFrom mac key prev es) (hprev : prev.length = 64)
    (he : e ∈ es) : e.prev.length = 64 := by
  induction es generalizing prev with
  | nil => cases he
  | cons x xs ih =>
    rcases List.mem_cons.mp he with rfl | hmem
    · rw [h.1, hprev]
    · exact ih h.2.2 (h.2.1 ▸ x.length_chainHmac mac key) hmem

theorem recordBytes_eq (e : AuditRecord) :
    e.recordBytes = [124].intercalate [e.seq, e.ts, e.eventId, e.eventType] ++ 124 :: e.prev := by
  simp [recordBytes, List.intercalate]

theorem prev_eq_of_recordBytes_eq (heq : e.recordBytes = r.recordBytes)
    (hlen : e.prev.length = r.prev.length) : e.prev = r.prev := by
  rw [recordBytes_eq, recordBytes_eq] at heq
  exact (List.cons.inj (List.append_inj_right' heq (by simp [hlen]))).2

/-- Only one of the records needs to have fields without separator: bytes with as many separators
as there are places for them have none inside a field. -/
theorem eq_of_recordBytes_eq (hfields : ∀ f ∈ e.fields, 124 ∉ f)
    (heq : e.recordBytes = r.recordBytes) (hlen : e.prev.length = r.prev.length)
    (hhmac : e.hmac = r.hmac) : e = r := by
  have hprev := prev_eq_of_recordBytes_eq heq hlen
  rw [recordBytes_eq, recordBytes_eq, hprev] at heq
  have hfree : ∀ f ∈ [e.seq, e.ts, e.eventId, e.eventType], 124 ∉ f := by
    intro f hf
    exact hfields f (List.mem_append_left [e.prev] hf)
  have hcount : [e.seq, e.ts, e.eventId, e.eventType].length =
      [r.seq, r.ts, r.eventId, r.eventType].length := rfl
  have hfront := CS.intercalate_inj hfree hcount (List.append_cancel_right heq)
  simp only [List.cons.injEq, and_true] at hfront
  obtain ⟨hseq, hts, hid, htype⟩ := hfront
  cases e
  cases r
  exact (AuditRecord.mk.injEq ..).mpr ⟨hseq, hts, hid, htype, hprev, hhmac⟩

end AuditRecord

namespace AuditWriter

open HashChainedAuditLog (genesis)
open AuditRecord (ChainFrom)

variable (mac : Hmac)

/-- An append succeeds; a restart finds the hash that the last process had. -/
def Faithful (w : AuditWriter) : AuditStep → Prop
  | .append time eventId eventType io => (w.append mac time eventId eventType io).1 = .ok
  | .restart => (construct w.toHashChainedAuditLog).tailHex = w.tailHex

instance (w : AuditWriter) : (a : AuditStep) → Decidable (Faithful mac w a)
  | .append _ _ _ _ => inferInstanceAs (Decidable (_ = _))
  | .restart => inferInstanceAs (Decidable (_ = _))

/-- The record of a step. -/
def stepRecords (w : AuditWriter) : AuditStep → List AuditRecord
  | .append time eventId eventType _ => [w.record mac time eventId eventType]
  | .restart => []

/-- The records that a run appends, in order. -/
def recorded : AuditWriter → List AuditStep → List AuditRecord
  | _, [] => []
  | w, a :: as => stepRecords mac w a ++ recorded (w.step mac a).2 as

/-- Every hash in the file that is right for its bytes comes from one of the records. -/
def Unforgeable (key : Bytes) (rs : List AuditRecord) (bytes : Bytes) : Prop :=
  ∀ line ∈ auditLines bytes, ∀ e, AuditRecord.parse line = some e →
    e.hmac = e.chainHmac mac key → ∃ r ∈ rs, r.recordBytes = e.recordBytes ∧ r.hmac = e.hmac

/-- Records with one hash have the same bytes. -/
def CollisionFree (rs : List AuditRecord) : Prop :=
  ∀ r ∈ rs, ∀ r' ∈ rs, r.hmac = r'.hmac → r.recordBytes = r'.recordBytes

variable {mac} {w : AuditWriter} {steps : List AuditStep}

/-- Clean runs are faithful: a restart finds everything as it was. -/
theorem faithful_of_clean {key : Bytes}
    (hsteps : CS.Guarded (step mac) (Clean mac) (construct ⟨key, none⟩) steps) :
    CS.Guarded (step mac) (Faithful mac) (construct ⟨key, none⟩) steps := by
  have hstep : ∀ w a, (∃ es, Wrote mac w es) → Clean mac w a → ∃ es, Wrote mac (step mac w a).2 es :=
    fun w a ⟨es, h⟩ ha => h.step ha
  refine CS.Guarded.imp hstep ?_ hsteps ⟨[], Wrote.fresh key⟩
  rintro w a ⟨es, h⟩ ha
  cases a with
  | append time eventId eventType io => exact ha.2.2.2
  | restart => exact congrArg AuditWriter.tailHex h.construct_eq

theorem chainKey_append {time : BrokenTime} {eventId eventType : Bytes} {io : AppendIo} :
    (w.append mac time eventId eventType io).2.chainKey = w.chainKey := by
  unfold append
  cases io with
  | openFails => rfl
  | written n => rfl
  | done =>
    simp only
    split_ifs <;> rfl

theorem chainFrom_recorded (hsteps : CS.Guarded (step mac) (Faithful mac) w steps) :
    ChainFrom mac w.chainKey w.tailHex (recorded mac w steps) := by
  induction steps generalizing w with
  | nil => trivial
  | cons a as ih =>
    obtain ⟨ha, hrest⟩ := hsteps
    have hnext := ih hrest
    cases a with
    | append time eventId eventType io =>
      obtain ⟨-, hafter⟩ := append_eq_ok ha
      have htail : (w.step mac (.append time eventId eventType io)).2.tailHex =
          (w.record mac time eventId eventType).hmac := by
        rw [step, hafter]
      rw [htail, step, chainKey_append] at hnext
      exact ⟨rfl, rfl, hnext⟩
    | restart =>
      have htail : (w.step mac .restart).2.tailHex = w.tailHex := ha
      rw [htail] at hnext
      exact hnext

/-- Whatever its bytes, a file that verifies holds the first records that were appended. -/
theorem prefix_of_verifyChain {key bytes : Bytes}
    (hsteps : CS.Guarded (step mac) (Faithful mac) (construct ⟨key, none⟩) steps)
    (hcollision : CollisionFree (recorded mac (construct ⟨key, none⟩) steps))
    (hzero : ∀ r ∈ recorded mac (construct ⟨key, none⟩) steps, r.hmac ≠ genesis)
    (hforge : Unforgeable mac key (recorded mac (construct ⟨key, none⟩) steps) bytes)
    (hverify : HashChainedAuditLog.verifyChain mac ⟨key, some bytes⟩ = none) :
    ∃ es, (auditLines bytes).map AuditRecord.parse = es.map some ∧
      es <+: recorded mac (construct ⟨key, none⟩) steps := by
  obtain ⟨es, hlines, hchain⟩ :=
    HashChainedAuditLog.verifyChain_eq_none_iff.mp hverify bytes rfl
  have hhonest := chainFrom_recorded hsteps
  have hgenesis : genesis.length = 64 := rfl
  refine ⟨es, hlines, hhonest.linked.prefix_of_subset ?_ hzero hchain.linked ?_⟩
  · -- Records of the run with one hash name one predecessor.
    intro r hr r' hr' heq
    apply AuditRecord.prev_eq_of_recordBytes_eq (hcollision r hr r' hr' heq)
    rw [hhonest.length_prev hgenesis hr, hhonest.length_prev hgenesis hr']
  · intro e he
    obtain ⟨line, hline, hparse⟩ : ∃ line ∈ auditLines bytes, AuditRecord.parse line = some e := by
      have hmem : some e ∈ (auditLines bytes).map AuditRecord.parse := by
        rw [hlines]
        exact List.mem_map_of_mem he
      exact List.mem_map.mp hmem
    obtain ⟨r, hr, hbytes, hhmac⟩ := hforge line hline e hparse (hchain.hmac_eq he)
    have hfields := (AuditRecord.parse_eq_some_iff.mp hparse).2
    have hlen : e.prev.length = r.prev.length := by
      rw [hchain.length_prev hgenesis he, hhonest.length_prev hgenesis hr]
    rw [AuditRecord.eq_of_recordBytes_eq hfields hbytes.symm hlen hhmac.symm]
    exact hr

/-- The length of the data instead of a hash, for runs on fixed inputs. -/
def lengthMac : Hmac where
  sha256 _ data := List.replicate 31 1 ++ [data.length.toUInt8]
  length_sha256 _ _ := rfl

/-- Two events, with a separator in the second. -/
def twoAppends : List AuditStep :=
  [.append ⟨126, 0, 2, 3, 4, 5, 678⟩ [97] [98] .done,
   .append ⟨126, 0, 2, 3, 4, 6, 7⟩ [99, 124] [100] .done]

/-- The first line of the file that they write. -/
def firstLine : Bytes :=
  ((construct ⟨[1], none⟩).record lengthMac ⟨126, 0, 2, 3, 4, 5, 678⟩ [97] [98]).text ++ [10]

/-- A file that has been cut off behind its first line. -/
theorem prefix_firstLine :
    ∃ es, (auditLines firstLine).map AuditRecord.parse = es.map some ∧
      es <+: recorded lengthMac (construct ⟨[1], none⟩) twoAppends := by
  refine prefix_of_verifyChain ⟨by decide +kernel, by decide +kernel, trivial⟩ ?_ ?_ ?_ ?_
  · unfold CollisionFree
    decide +kernel
  · decide +kernel
  · have hlines : auditLines firstLine = [((construct ⟨[1], none⟩).record lengthMac
        ⟨126, 0, 2, 3, 4, 5, 678⟩ [97] [98]).text] := by decide +kernel
    intro line hline e hparse _
    rw [hlines, List.mem_singleton] at hline
    rw [hline] at hparse
    have hparsed : AuditRecord.parse ((construct ⟨[1], none⟩).record lengthMac
        ⟨126, 0, 2, 3, 4, 5, 678⟩ [97] [98]).text = some ((construct ⟨[1], none⟩).record lengthMac
        ⟨126, 0, 2, 3, 4, 5, 678⟩ [97] [98]) := by decide +kernel
    rw [← Option.mem_unique hparsed hparse]
    exact ⟨_, List.mem_cons_self, rfl, rfl⟩
  · decide +kernel

end AuditWriter

end VirtualHsm
