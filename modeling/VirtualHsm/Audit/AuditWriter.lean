import VirtualHsm.Audit.AuditLog
import VirtualHsm.CS.Decimal
import VirtualHsm.CS.Run

/-!
# Writing the audit log

A process appends records to the log file and keeps the number and the hash of the last one. A
new process reads both back from the file: it takes the number from the front of the last line
that has a separator, and the hash from behind its last separator. Verification splits a line
from the left. For lines without stray separators the two agree, and a log that was only ever
appended to verifies after every step.
-/

namespace VirtualHsm

/-! ### Texts of a record -/

/-- What ends a field, a line or a C string. -/
def stray : Bytes := [124, 10, 0]

/-- The text can stand in a field. -/
def Safe (s : Bytes) : Prop := ∀ b ∈ s, b ∉ stray

instance (s : Bytes) : Decidable (Safe s) := inferInstanceAs (Decidable (∀ b ∈ s, _))

theorem safe_append {s t : Bytes} : Safe (s ++ t) ↔ Safe s ∧ Safe t := List.forall_mem_append

theorem safe_cons {b : UInt8} {s : Bytes} : Safe (b :: s) ↔ b ∉ stray ∧ Safe s :=
  List.forall_mem_cons

theorem notMem_stray {b : UInt8} (hb : 45 ≤ b.toNat ∧ b.toNat ≤ 90) : b ∉ stray := by
  simp only [stray, List.mem_cons, List.not_mem_nil, or_false, not_or]
  refine ⟨?_, ?_, ?_⟩ <;>
  · rintro rfl
    revert hb
    decide

theorem safe_toDecimal (n : Nat) : Safe (CS.toDecimal n) := by
  intro b hb
  have hrange := CS.mem_toDecimal hb
  exact notMem_stray ⟨by omega, by omega⟩

theorem exists_hexDigit_of_mem_toHex {bs : Bytes} {b : UInt8} (hb : b ∈ toHex bs) :
    ∃ k < 16, (hexDigit k).toNat.toUInt8 = b := by
  obtain ⟨x, -, hx⟩ := List.mem_flatMap.mp hb
  have hlt := x.toNat_lt
  simp only [List.mem_cons, List.not_mem_nil, or_false] at hx
  rcases hx with rfl | rfl
  · exact ⟨_, by omega, rfl⟩
  · exact ⟨_, by omega, rfl⟩

theorem safe_toHex (bs : Bytes) : Safe (toHex bs) := by
  have hdigit : ∀ k < 16, (hexDigit k).toNat.toUInt8 ∉ stray := by decide
  intro b hb
  obtain ⟨k, hk, rfl⟩ := exists_hexDigit_of_mem_toHex hb
  exact hdigit k hk

theorem safe_genesis : Safe HashChainedAuditLog.genesis := by
  intro b hb
  rw [List.eq_of_mem_replicate hb]
  decide

/-- `%0wd`: the sign counts for the width. -/
def zeroPadded (w : Nat) (n : Int) : Bytes :=
  let ds := CS.toDecimal n.natAbs
  if n < 0 then 45 :: (List.replicate (w - 1 - ds.length) 48 ++ ds)
  else List.replicate (w - ds.length) 48 ++ ds

theorem safe_zeroPadded (w : Nat) (n : Int) : Safe (zeroPadded w n) := by
  have hzeros (k : Nat) : Safe (List.replicate k 48) := by
    intro b hb
    rw [List.eq_of_mem_replicate hb]
    decide
  have hdigits := safe_toDecimal n.natAbs
  simp only [zeroPadded]
  split_ifs
  · exact safe_cons.mpr ⟨by decide, safe_append.mpr ⟨hzeros _, hdigits⟩⟩
  · exact safe_append.mpr ⟨hzeros _, hdigits⟩

/-- What `gmtime_r` returns, and the milliseconds. -/
structure BrokenTime where
  year : Int
  mon : Int
  mday : Int
  hour : Int
  min : Int
  sec : Int
  ms : Int
  deriving DecidableEq, Repr

/-- `iso8601_now`: the text is cut off where its buffer ends. -/
def BrokenTime.iso8601 (t : BrokenTime) : Bytes :=
  (zeroPadded 4 (t.year + 1900) ++ 45 :: zeroPadded 2 (t.mon + 1) ++ 45 :: zeroPadded 2 t.mday ++
    84 :: zeroPadded 2 t.hour ++ 58 :: zeroPadded 2 t.min ++ 58 :: zeroPadded 2 t.sec ++
    46 :: zeroPadded 3 t.ms ++ [90]).take 47

theorem BrokenTime.safe_iso8601 (t : BrokenTime) : Safe t.iso8601 := by
  intro b hb
  refine (?_ : Safe _) b (List.mem_of_mem_take hb)
  simp only [List.cons_append, List.append_assoc, safe_append, safe_cons, safe_zeroPadded, true_and]
  decide +kernel

/-- `strtoull` with base ten: white space and a sign may come first, and a number that does not
fit is the largest one. -/
def strtoull (s : Bytes) : UInt64 :=
  let rest := s.dropWhile fun b => b = 32 || 9 ≤ b && b ≤ 13
  let unsigned := if rest.head? = some 43 ∨ rest.head? = some 45 then rest.tail else rest
  let n := CS.digitsValue (unsigned.takeWhile fun b => 48 ≤ b && b ≤ 57)
  if 2 ^ 64 ≤ n then UInt64.ofNat (2 ^ 64 - 1)
  else if rest.head? = some 45 then 0 - UInt64.ofNat n
  else UInt64.ofNat n

theorem strtoull_toDecimal {n : Nat} (hn : n < 2 ^ 64) :
    strtoull (CS.toDecimal n) = UInt64.ofNat n := by
  have hdigits : ∀ b ∈ CS.toDecimal n, 48 ≤ b ∧ b ≤ 57 := fun b hb => CS.mem_toDecimal hb
  have hvalue := CS.digitsValue_toDecimal n
  obtain ⟨d, ds, hcons⟩ := List.exists_cons_of_ne_nil (CS.toDecimal_ne_nil n)
  rw [hcons] at hdigits hvalue ⊢
  obtain ⟨hlow, hhigh⟩ := hdigits d List.mem_cons_self
  -- The first digit is neither white space nor a sign.
  have hspace : (d :: ds).dropWhile (fun b => b = 32 || 9 ≤ b && b ≤ 13) = d :: ds := by
    rw [List.dropWhile_cons_of_neg]
    have hne : d ≠ 32 := by rintro rfl; revert hlow; decide
    have hgt : ¬ d ≤ 13 := fun h => absurd (UInt8.le_trans hlow h) (by decide)
    simp [hne, hgt]
  have hsign : ∀ b : UInt8, b < 48 → d ≠ b := by
    rintro b hb rfl
    exact absurd (UInt8.lt_of_lt_of_le hb hlow) (UInt8.lt_irrefl _)
  have hall : (d :: ds).takeWhile (fun b => 48 ≤ b && b ≤ 57) = d :: ds := by
    apply List.takeWhile_eq_self_iff.mpr
    intro b hb
    simpa using hdigits b hb
  have hplus := hsign 43 (by decide)
  have hminus := hsign 45 (by decide)
  simp only [strtoull, hspace, List.head?_cons, Option.some.injEq, hplus, hminus, or_self, if_false,
    hall, hvalue]
  rw [if_neg (by omega)]

/-! ### The object and its file -/

/-- The largest file: sizes are signed 64-bit numbers. -/
def maxFileSize : Nat := 2 ^ 63 - 1

/-- An object of class `HashChainedAuditLog`: the number and the hash of the last record. -/
structure AuditWriter extends HashChainedAuditLog where
  seq : UInt64 := 0
  tailHex : Bytes := HashChainedAuditLog.genesis

/-- How the writing of a line ends: completely, or with an error before anything is written, or
after some bytes have reached the file. -/
inductive AppendIo
  | done
  | openFails
  | written (n : Nat)
  deriving DecidableEq, Repr

inductive AuditStep
  | append (time : BrokenTime) (eventId eventType : Bytes) (io : AppendIo)
  | restart
  deriving DecidableEq, Repr

namespace AuditWriter

open HashChainedAuditLog (genesis)

/-- The loop of `recover_tail`: a line without separator is passed over. -/
def recoverLine (tail : UInt64 × Bytes) (s : Bytes) : UInt64 × Bytes :=
  if 124 ∈ s then (strtoull (s.takeWhile (· ≠ 124)), CS.afterLast 124 s) else tail

/-- `recover_tail`: its buffer has 1024 bytes, half of what `verify_chain` uses. -/
def recoverTail (file : Bytes) : UInt64 × Bytes :=
  ((fgetsFrom 1023 1023 [] file).map lineText).foldl recoverLine (0, genesis)

/-- The constructor. -/
def construct (log : HashChainedAuditLog) : AuditWriter :=
  { log with
    seq := (recoverTail (log.file.getD [])).1
    tailHex := (recoverTail (log.file.getD [])).2 }

variable (mac : Hmac) (w : AuditWriter)

/-- The record that an append writes. -/
def record (time : BrokenTime) (eventId eventType : Bytes) : AuditRecord :=
  let e : AuditRecord :=
    { seq := CS.toDecimal (w.seq + 1).toNat, ts := time.iso8601, eventId, eventType
      prev := w.tailHex, hmac := [] }
  { e with hmac := e.chainHmac mac w.chainKey }

/-- `append`. The number is taken before the line is written, so a failure leaves a gap. -/
def append (time : BrokenTime) (eventId eventType : Bytes) (io : AppendIo) : CkRv × AuditWriter :=
  let e := w.record mac time eventId eventType
  let line := e.text ++ [10]
  let old := w.file.getD []
  match io with
  | .openFails => (.functionFailed, { w with seq := w.seq + 1 })
  | .written n => (.functionFailed, { w with seq := w.seq + 1, file := some (old ++ line.take n) })
  | .done =>
    if maxFileSize < old.length + line.length then
      (.functionFailed,
        { w with seq := w.seq + 1, file := some (old ++ line.take (maxFileSize - old.length)) })
    else
      (.ok, { w with seq := w.seq + 1, file := some (old ++ line), tailHex := e.hmac })

/-- Appends of one process after the other on one file. -/
def step : AuditStep → CkRv × AuditWriter
  | .append time eventId eventType io => w.append mac time eventId eventType io
  | .restart => (.ok, construct w.toHashChainedAuditLog)

/-- The step succeeds, with texts that can stand in a field and a line of less than 1024 bytes. -/
def Clean : AuditStep → Prop
  | .append time eventId eventType io =>
    Safe eventId ∧ Safe eventType ∧
      ((w.record mac time eventId eventType).text ++ [10]).length < 1024 ∧
      (w.append mac time eventId eventType io).1 = .ok
  | .restart => True

/-- The file verifies; the object counts its lines, which carry their own numbers, and knows the
hash in the last of them. -/
structure Sound : Prop where
  verifies : w.toHashChainedAuditLog.verifyChain mac = none
  length_lines : (auditLines (w.file.getD [])).length = (w.file.getD []).count 10
  counts : w.seq.toNat = (w.file.getD []).count 10
  numbered : ∀ k line, (auditLines (w.file.getD []))[k]? = some line →
    ∃ e, AuditRecord.parse line = some e ∧ e.seq = CS.toDecimal (k + 1)
  tail : w.tailHex =
    ((auditLines (w.file.getD [])).getLast?.bind AuditRecord.parse).elim genesis (·.hmac)

end AuditWriter

/-! ### Files of linked records -/

namespace AuditRecord

/-- The fields can be cut apart again, and the line fits into every buffer. -/
structure Plain (e : AuditRecord) : Prop where
  fields : ∀ f ∈ e.fields, Safe f
  hmac : Safe e.hmac
  length : e.text.length < 1023

/-- The hash that the next record names. -/
def lastHmac (prev : Bytes) (es : List AuditRecord) : Bytes := es.getLast?.elim prev (·.hmac)

variable {mac : Hmac} {key prev : Bytes} {e : AuditRecord} {es : List AuditRecord}

theorem notMem_of_safe {s : Bytes} (hs : Safe s) : 124 ∉ s ∧ 10 ∉ s ∧ 0 ∉ s :=
  ⟨fun h => hs 124 h (by decide), fun h => hs 10 h (by decide), fun h => hs 0 h (by decide)⟩

theorem mem_text {b : UInt8} : b ∈ e.text ↔ b = 124 ∨ (∃ f ∈ e.fields, b ∈ f) ∨ b ∈ e.hmac := by
  simp [text, recordBytes, AuditRecord.fields, List.intercalate]
  tauto

theorem Plain.notMem (h : e.Plain) : 10 ∉ e.text ∧ 0 ∉ e.text := by
  have hsafe : ∀ b ∈ e.text, b = 124 ∨ b ∉ stray := by
    intro b hb
    rcases mem_text.mp hb with heq | ⟨f, hf, hbf⟩ | hbh
    · exact .inl heq
    · exact .inr (h.fields f hf b hbf)
    · exact .inr (h.hmac b hbh)
  constructor <;> intro hb
  all_goals exact (hsafe _ hb).elim (by decide) (fun hn => hn (by decide))

theorem Plain.parse_text (h : e.Plain) : parse e.text = some e :=
  parse_eq_some_iff.mpr ⟨rfl, fun f hf => (notMem_of_safe (h.fields f hf)).1⟩

/-- The lines of plain records at the front of a file, for either buffer. -/
theorem map_lineText_plain_append {size : Nat} (hsize : 1023 ≤ size) (hes : ∀ e ∈ es, e.Plain)
    (rest : Bytes) :
    (fgetsFrom size size [] (es.flatMap (·.text ++ [10]) ++ rest)).map lineText =
      es.map text ++ (fgetsFrom size size [] rest).map lineText := by
  have hflat : es.flatMap (·.text ++ [10]) = (es.map text).flatMap (· ++ [10]) := by
    rw [List.flatMap_map]
  rw [hflat, map_lineText_fgets_append]
  intro t ht
  obtain ⟨e, he, rfl⟩ := List.mem_map.mp ht
  exact ⟨(hes e he).notMem.1, (hes e he).notMem.2, Nat.lt_of_lt_of_le (hes e he).length hsize⟩

theorem map_lineText_plain {size : Nat} (hsize : 1023 ≤ size) (hes : ∀ e ∈ es, e.Plain) :
    (fgetsFrom size size [] (es.flatMap (·.text ++ [10]))).map lineText = es.map text := by
  simpa [fgetsFrom] using map_lineText_plain_append hsize hes []

theorem map_parse_plain (hes : ∀ e ∈ es, e.Plain) : (es.map text).map parse = es.map some := by
  rw [List.map_map]
  exact List.map_congr_left fun e he => (hes e he).parse_text

theorem count_newline_plain (hes : ∀ e ∈ es, e.Plain) :
    (es.flatMap (·.text ++ [10])).count 10 = es.length := by
  induction es with
  | nil => rfl
  | cons e es ih =>
    have he : e.text.count 10 = 0 :=
      List.count_eq_zero.mpr (hes e List.mem_cons_self).notMem.1
    rw [List.flatMap_cons, List.count_append, List.count_append, he,
      ih fun x hx => hes x (List.mem_cons_of_mem e hx), List.length_cons]
    simp [Nat.add_comm]

theorem chainFrom_concat :
    ChainFrom mac key prev (es ++ [e]) ↔
      ChainFrom mac key prev es ∧ e.prev = lastHmac prev es ∧ e.hmac = e.chainHmac mac key := by
  induction es generalizing prev with
  | nil => simp [ChainFrom, lastHmac]
  | cons x xs ih =>
    have hlast : lastHmac prev (x :: xs) = lastHmac x.hmac xs := by
      cases xs with
      | nil => rfl
      | cons y ys => simp [lastHmac, List.getLast?_cons]
    rw [List.cons_append, ChainFrom, ih, ChainFrom, hlast]
    tauto

theorem numbered_concat :
    (∀ k x, (es ++ [e])[k]? = some x → x.seq = CS.toDecimal (k + 1)) ↔
      (∀ k x, es[k]? = some x → x.seq = CS.toDecimal (k + 1)) ∧
        e.seq = CS.toDecimal (es.length + 1) := by
  constructor
  · intro h
    refine ⟨?_, h es.length e (by simp)⟩
    intro k x hk
    have hlt : k < es.length := (List.getElem?_eq_some_iff.mp hk).1
    exact h k x (by rw [List.getElem?_append_left hlt, hk])
  · rintro ⟨hes, he⟩ k x hk
    rcases Nat.lt_or_ge k es.length with hlt | hge
    · rw [List.getElem?_append_left hlt] at hk
      exact hes k x hk
    · rw [List.getElem?_append_right hge, List.getElem?_singleton] at hk
      obtain ⟨hzero, rfl⟩ := Option.ite_none_right_eq_some.mp hk |>.imp id Option.some.inj
      have hk' : k = es.length := by omega
      rw [hk', he]

theorem safe_lastHmac (hprev : Safe prev) (hes : ∀ e ∈ es, e.Plain) : Safe (lastHmac prev es) := by
  unfold lastHmac
  cases hlast : es.getLast? with
  | none => exact hprev
  | some e => exact (hes e (List.mem_of_getLast? hlast)).hmac

end AuditRecord

namespace AuditWriter

open HashChainedAuditLog (genesis)
open AuditRecord (lastHmac ChainFrom)

variable (mac : Hmac)

/-- The file consists of the given records, which form a chain, and the object is at its end. -/
structure Wrote (w : AuditWriter) (es : List AuditRecord) : Prop where
  file : w.file.getD [] = es.flatMap (·.text ++ [10])
  plain : ∀ e ∈ es, e.Plain
  chain : ChainFrom mac w.chainKey genesis es
  numbered : ∀ k e, es[k]? = some e → e.seq = CS.toDecimal (k + 1)
  seq : w.seq = UInt64.ofNat es.length
  tail : w.tailHex = lastHmac genesis es
  fits : (w.file.getD []).length ≤ maxFileSize

variable {mac} {w : AuditWriter} {es : List AuditRecord}

/-- Every record takes a line, so there are fewer of them than the counter can count. -/
theorem Wrote.length_lt (h : Wrote mac w es) : es.length < 2 ^ 63 := by
  have hlen : es.length ≤ (w.file.getD []).length := by
    rw [h.file, ← AuditRecord.count_newline_plain h.plain]
    exact List.count_le_length
  have hfits := h.fits
  simp only [maxFileSize] at hfits
  omega

theorem Wrote.toNat_seq (h : Wrote mac w es) : w.seq.toNat = es.length := by
  have hlt := h.length_lt
  rw [h.seq, UInt64.toNat_ofNat_of_lt']
  have hsize : UInt64.size = 2 ^ 64 := rfl
  omega

theorem Wrote.fresh (key : Bytes) : Wrote mac (construct ⟨key, none⟩) [] where
  file := rfl
  plain := by simp
  chain := trivial
  numbered := by simp
  seq := rfl
  tail := rfl
  fits := Nat.zero_le _

/-! ### Steps -/

variable {eventId eventType : Bytes} {time : BrokenTime}

theorem append_eq_ok {io : AppendIo} (h : (w.append mac time eventId eventType io).1 = .ok) :
    (w.file.getD []).length + ((w.record mac time eventId eventType).text ++ [10]).length ≤
        maxFileSize ∧
      (w.append mac time eventId eventType io).2 =
        { w with
          seq := w.seq + 1
          file := some (w.file.getD [] ++ ((w.record mac time eventId eventType).text ++ [10]))
          tailHex := (w.record mac time eventId eventType).hmac } := by
  cases io with
  | openFails => cases h
  | written n => cases h
  | done =>
    simp only [append] at h ⊢
    split_ifs at h ⊢ with hfull
    exact ⟨Nat.le_of_not_lt hfull, rfl⟩

theorem plain_record (htail : Safe w.tailHex) (hid : Safe eventId) (htype : Safe eventType)
    (hlen : ((w.record mac time eventId eventType).text ++ [10]).length < 1024) :
    (w.record mac time eventId eventType).Plain where
  fields := by
    intro f hf
    simp only [AuditRecord.fields, record, List.mem_cons, List.not_mem_nil, or_false] at hf
    rcases hf with rfl | rfl | rfl | rfl | rfl
    · exact safe_toDecimal _
    · exact time.safe_iso8601
    · exact hid
    · exact htype
    · exact htail
  hmac := safe_toHex _
  length := by
    rw [List.length_append, List.length_singleton] at hlen
    omega

theorem seq_record {n : Nat} (hseq : w.seq = UInt64.ofNat n) (hn : n < 2 ^ 64 - 1) :
    (w.record mac time eventId eventType).seq = CS.toDecimal (n + 1) := by
  have hnext : (w.seq + 1).toNat = n + 1 := by
    have hone : (1 : UInt64).toNat = 1 := rfl
    rw [UInt64.toNat_add, hseq, UInt64.toNat_ofNat', hone]
    omega
  simp only [record, hnext]

theorem Wrote.append (h : Wrote mac w es)
    {io : AppendIo} (hclean : w.Clean mac (.append time eventId eventType io)) :
    Wrote mac (w.append mac time eventId eventType io).2
      (es ++ [w.record mac time eventId eventType]) := by
  obtain ⟨hid, htype, hlen, hok⟩ := hclean
  obtain ⟨hfits, hafter⟩ := append_eq_ok hok
  have htail : Safe w.tailHex := h.tail ▸ AuditRecord.safe_lastHmac safe_genesis h.plain
  have hplain := plain_record htail hid htype hlen
  rw [hafter]
  constructor
  · rw [List.flatMap_append, ← h.file]
    simp
  · intro e he
    rcases List.mem_append.mp he with hold | hnew
    · exact h.plain e hold
    · exact List.mem_singleton.mp hnew ▸ hplain
  · exact AuditRecord.chainFrom_concat.mpr ⟨h.chain, h.tail, rfl⟩
  · exact AuditRecord.numbered_concat.mpr
      ⟨h.numbered, seq_record h.seq (Nat.lt_trans h.length_lt (by decide))⟩
  · rw [List.length_append, List.length_singleton, h.seq]
    apply UInt64.toNat.inj
    simp
  · simp [lastHmac]
  · simpa using hfits

/-- From a file of numbered records the number and the hash of the last one are recovered. -/
theorem recoverTail_eq {file : Bytes}
    (hlines : (fgetsFrom 1023 1023 [] file).map lineText = es.map AuditRecord.text)
    (hes : ∀ e ∈ es, e.Plain) (hnum : ∀ k e, es[k]? = some e → e.seq = CS.toDecimal (k + 1))
    (hlen : es.length < 2 ^ 64) :
    recoverTail file = (UInt64.ofNat es.length, lastHmac genesis es) := by
  rw [recoverTail, hlines]
  -- Only the last line counts.
  rcases List.eq_nil_or_concat' es with rfl | ⟨init, e, rfl⟩
  · rfl
  · have he := hes e (by simp)
    have hseq : 124 ∉ e.seq :=
      (AuditRecord.notMem_of_safe (he.fields e.seq (by simp [AuditRecord.fields]))).1
    have hhmac : 124 ∉ e.hmac := (AuditRecord.notMem_of_safe he.hmac).1
    have hfront : e.text.takeWhile (· ≠ 124) = e.seq := by
      simp only [AuditRecord.text, AuditRecord.recordBytes, CS.intercalate_cons_cons,
        List.append_assoc, List.cons_append]
      exact CS.takeWhile_append_cons hseq
    have hback : CS.afterLast 124 e.text = e.hmac := CS.afterLast_append_cons hhmac
    rw [List.length_append, List.length_singleton] at hlen ⊢
    rw [List.map_append, List.foldl_append, List.map_singleton, List.foldl_cons, List.foldl_nil,
      recoverLine, if_pos (by simp [AuditRecord.text]), hfront, hback,
      (AuditRecord.numbered_concat.mp hnum).2, strtoull_toDecimal hlen]
    simp [lastHmac]

theorem Wrote.construct_eq (h : Wrote mac w es) : construct w.toHashChainedAuditLog = w := by
  have hlines := AuditRecord.map_lineText_plain (le_refl 1023) h.plain
  rw [← h.file] at hlines
  have hrecover : recoverTail (w.file.getD []) = (w.seq, w.tailHex) := by
    rw [recoverTail_eq hlines h.plain h.numbered (Nat.lt_trans h.length_lt (by decide)), h.seq,
      h.tail]
  unfold construct
  rw [hrecover]

theorem Wrote.step (h : Wrote mac w es) {a : AuditStep} (ha : w.Clean mac a) :
    ∃ es', Wrote mac (w.step mac a).2 es' := by
  cases a with
  | append time eventId eventType io => exact ⟨_, h.append ha⟩
  | restart => exact ⟨es, h.construct_eq.symm ▸ h⟩

theorem Wrote.sound (h : Wrote mac w es) : w.Sound mac := by
  have hlines : auditLines (w.file.getD []) = es.map AuditRecord.text := by
    rw [auditLines, h.file, AuditRecord.map_lineText_plain (by decide) h.plain]
  have hcount : (w.file.getD []).count 10 = es.length := by
    rw [h.file, AuditRecord.count_newline_plain h.plain]
  constructor
  · exact HashChainedAuditLog.verifyChain_eq_none_iff_getD.mpr
      ⟨es, by rw [hlines, AuditRecord.map_parse_plain h.plain], h.chain⟩
  · rw [hlines, hcount, List.length_map]
  · rw [hcount, h.toNat_seq]
  · intro k line hline
    rw [hlines, List.getElem?_map, Option.map_eq_some_iff] at hline
    obtain ⟨e, he, rfl⟩ := hline
    exact ⟨e, (h.plain e (List.mem_of_getElem? he)).parse_text, h.numbered k e he⟩
  · rw [hlines, h.tail, List.getLast?_map]
    unfold lastHmac
    cases hlast : es.getLast? with
    | none => rfl
    | some e =>
      rw [Option.map_some, Option.bind_some, (h.plain e (List.mem_of_getLast? hlast)).parse_text,
        Option.elim_some]

/-- Along every run of clean steps from a missing file, object and file are sound. -/
theorem sound_always (mac : Hmac) (key : Bytes) {steps : List AuditStep}
    (hsteps : CS.Guarded (step mac) (Clean mac) (construct ⟨key, none⟩) steps) :
    CS.Always (step mac) (Sound mac) (construct ⟨key, none⟩) steps := by
  have hwrote : CS.Always (step mac) (fun w => ∃ es, Wrote mac w es) (construct ⟨key, none⟩)
      steps := by
    apply hsteps.always
    · rintro w a ⟨es, h⟩ ha
      exact h.step ha
    · exact ⟨[], Wrote.fresh key⟩
  exact hwrote.imp fun w ⟨es, h⟩ => h.sound

/-- A record, a restart and another record. -/
def twoProcesses : List AuditStep :=
  [.append ⟨126, 0, 2, 3, 4, 5, 678⟩ [97] [98] .done, .restart,
   .append ⟨126, 0, 2, 3, 4, 6, 7⟩ [99] [] .done]

theorem sound_twoProcesses :
    CS.Always (step Hmac.toy) (Sound Hmac.toy) (construct ⟨[1], none⟩) twoProcesses :=
  sound_always Hmac.toy [1]
    ⟨⟨by decide +kernel, by decide +kernel, by decide +kernel, by decide +kernel⟩, trivial,
      ⟨by decide +kernel, by decide +kernel, by decide +kernel, by decide +kernel⟩, trivial⟩

end AuditWriter

end VirtualHsm
