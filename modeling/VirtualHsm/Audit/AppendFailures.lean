import VirtualHsm.Audit.TamperEvidence

/-!
# Appends that fail

An append takes the number of its record before it opens the file, and the hash of its record after
the file has been written to the disk. When it fails in between, the object and its file no longer
agree, and a part of the line may stay in the file. The next process reads the file again, so it
continues the chain; the same process does not.
-/

namespace VirtualHsm

namespace AuditRecord

variable {mac : Hmac} {key : Bytes} {e e' : AuditRecord} {es : List AuditRecord} {s r : Bytes}

theorem parse_append (h : parse s = some e) :
    parse (s ++ r) = some { e with hmac := e.hmac ++ r } := by
  obtain ⟨rfl, hfields⟩ := parse_eq_some_iff.mp h
  refine parse_eq_some_iff.mpr ⟨?_, hfields⟩
  simp [text, recordBytes]

/-- Hashes have one length, so a record with its hash is not the beginning of another one. -/
theorem eq_nil_of_parse_append (h : parse s = some e) (hhash : e.hmac = e.chainHmac mac key)
    (h' : parse (s ++ r) = some e') (hhash' : e'.hmac = e'.chainHmac mac key) : r = [] := by
  have hlen : e.hmac.length = 64 := by rw [hhash, length_chainHmac]
  have hlen' : e'.hmac.length = 64 := by rw [hhash', length_chainHmac]
  have hlong : e'.hmac = e.hmac ++ r := by
    rw [parse_append h, Option.some.injEq] at h'
    rw [← h']
  rw [hlong, List.length_append] at hlen'
  exact List.length_eq_zero_iff.mp (by omega)

theorem text_ne_nil (e : AuditRecord) : e.text ≠ [] := by simp [text]

end AuditRecord

namespace AuditWriter

open HashChainedAuditLog (genesis)
open AuditRecord (lastHmac ChainFrom)

variable (mac : Hmac) (w : AuditWriter)

/-! ### Files that verify -/

/-- No line is reported, and the records are numbered one after the other from one. -/
structure Intact : Prop where
  verifies : w.toHashChainedAuditLog.verifyChain mac = none
  numbered : ∀ k line, (auditLines (w.file.getD []))[k]? = some line →
    ∃ e, AuditRecord.parse line = some e ∧ e.seq = CS.toDecimal (k + 1)

variable {mac w}

/-- The lines of an intact file are the records of a chain. -/
theorem intact_iff :
    w.Intact mac ↔ ∃ es : List AuditRecord,
      (auditLines (w.file.getD [])).map AuditRecord.parse = es.map some ∧
        ChainFrom mac w.chainKey genesis es ∧
        ∀ k e, es[k]? = some e → e.seq = CS.toDecimal (k + 1) := by
  have hline {es : List AuditRecord} {k : Nat}
      (hlines : (auditLines (w.file.getD [])).map AuditRecord.parse = es.map some) :
      (auditLines (w.file.getD []))[k]?.map AuditRecord.parse = es[k]?.map some := by
    rw [← List.getElem?_map, hlines, List.getElem?_map]
  constructor
  · rintro ⟨hnone, hnum⟩
    obtain ⟨es, hlines, hchain⟩ := HashChainedAuditLog.verifyChain_eq_none_iff_getD.mp hnone
    refine ⟨es, hlines, hchain, ?_⟩
    intro k e hk
    have hparse := hline (k := k) hlines
    rw [hk, Option.map_some, Option.map_eq_some_iff] at hparse
    obtain ⟨line, hget, hparse⟩ := hparse
    obtain ⟨e', he', hseq⟩ := hnum k line hget
    rw [hparse, Option.some.injEq] at he'
    rw [he', hseq]
  · rintro ⟨es, hlines, hchain, hnum⟩
    refine ⟨HashChainedAuditLog.verifyChain_eq_none_iff_getD.mpr ⟨es, hlines, hchain⟩, ?_⟩
    intro k line hget
    have hparse := hline (k := k) hlines
    rw [hget, Option.map_some, eq_comm, Option.map_eq_some_iff] at hparse
    obtain ⟨e, he, hparse⟩ := hparse
    exact ⟨e, hparse.symm, hnum k e he⟩

/-- Whether a file is intact is decided by the line behind its records. -/
theorem intact_iff_of_lines {es : List AuditRecord} {line : Bytes} (hes : ∀ e ∈ es, e.Plain)
    (hchain : ChainFrom mac w.chainKey genesis es)
    (hnum : ∀ k e, es[k]? = some e → e.seq = CS.toDecimal (k + 1))
    (hlines : auditLines (w.file.getD []) = es.map AuditRecord.text ++ [line]) :
    w.Intact mac ↔ ∃ e, AuditRecord.parse line = some e ∧ e.prev = lastHmac genesis es ∧
      e.hmac = e.chainHmac mac w.chainKey ∧ e.seq = CS.toDecimal (es.length + 1) := by
  rw [intact_iff, hlines, List.map_append, AuditRecord.map_parse_plain hes, List.map_singleton]
  constructor
  · rintro ⟨es', hparse, hchain', hnum'⟩
    rcases List.eq_nil_or_concat' es' with rfl | ⟨init, e, rfl⟩
    · exact absurd hparse (by simp)
    · rw [List.map_append, List.map_singleton] at hparse
      obtain ⟨hinit, hlast⟩ := List.append_inj' hparse rfl
      obtain rfl := List.map_injective_iff.mpr (Option.some_injective _) hinit
      obtain ⟨-, hprev, hhash⟩ := AuditRecord.chainFrom_concat.mp hchain'
      exact ⟨e, List.singleton_inj.mp hlast, hprev, hhash,
        (AuditRecord.numbered_concat.mp hnum').2⟩
  · rintro ⟨e, hparse, hprev, hhash, hseq⟩
    exact ⟨es ++ [e], by rw [hparse, List.map_append, List.map_singleton],
      AuditRecord.chainFrom_concat.mpr ⟨hchain, hprev, hhash⟩,
      AuditRecord.numbered_concat.mpr ⟨hnum, hseq⟩⟩

/-! ### What an append leaves behind -/

section Reached

variable (mac w) (time : BrokenTime) (eventId eventType : Bytes) (io : AppendIo)

/-- The bytes of its line that an append leaves in the file. -/
def reached : Bytes :=
  let line := (w.record mac time eventId eventType).text ++ [10]
  match io with
  | .openFails => []
  | .written n => line.take n
  | .done => line.take (maxFileSize - (w.file.getD []).length)

theorem getD_file_append :
    (w.append mac time eventId eventType io).2.file.getD [] =
      w.file.getD [] ++ w.reached mac time eventId eventType io := by
  cases io with
  | openFails | written n => simp [append, reached]
  | done =>
    simp only [append, reached]
    split_ifs with hfull
    · rfl
    · rw [List.take_of_length_le (by omega)]
      rfl

theorem safe_tailHex_append (htail : Safe w.tailHex) :
    Safe (w.append mac time eventId eventType io).2.tailHex := by
  cases io with
  | openFails => exact htail
  | written n => exact htail
  | done =>
    simp only [append]
    split_ifs
    · exact htail
    · exact safe_toHex _

theorem reached_isPrefix :
    w.reached mac time eventId eventType io <+:
      (w.record mac time eventId eventType).text ++ [10] := by
  cases io with
  | openFails => exact List.nil_prefix
  | written n | done => exact List.take_prefix _ _

/-- Some text of the record reaches the file, and perhaps the newline after the whole of it. -/
theorem reached_cases (hne : w.reached mac time eventId eventType io ≠ []) :
    ∃ q ≠ [], q <+: (w.record mac time eventId eventType).text ∧
      (w.reached mac time eventId eventType io = q ∨
        w.reached mac time eventId eventType io = q ++ [10] ∧
          q = (w.record mac time eventId eventType).text) := by
  rcases List.prefix_concat_iff.mp (w.reached_isPrefix mac time eventId eventType io) with
    hwhole | hpart
  · exact ⟨_, AuditRecord.text_ne_nil _, List.prefix_refl _, .inr ⟨hwhole, rfl⟩⟩
  · exact ⟨_, hne, hpart, .inl rfl⟩

end Reached

variable (mac w)

/-- The texts can stand in a field, and the line fits into the buffers and into the file. -/
def Legible : AuditStep → Prop
  | .append time eventId eventType _ =>
    Safe eventId ∧ Safe eventType ∧
      ((w.record mac time eventId eventType).text ++ [10]).length < 1024 ∧
      (w.file.getD []).length + ((w.record mac time eventId eventType).text ++ [10]).length ≤
        maxFileSize
  | .restart => True

instance (a : AuditStep) : Decidable (w.Legible mac a) :=
  match a with
  | .append _ _ _ _ => inferInstanceAs (Decidable (_ ∧ _ ∧ _ ∧ _))
  | .restart => instDecidableTrue

/-- Another process would recover the number and the hash that the object has. -/
def InStep : Prop := recoverTail (w.file.getD []) = (w.seq, w.tailHex)

instance : Decidable w.InStep := inferInstanceAs (Decidable (_ = _))

/-- The step leaves no byte in the file; or it leaves a whole record, of which only the newline may
be missing, on a line of its own, and the object was in step with the file. -/
def Harmless : AuditStep → Prop
  | .append time eventId eventType io =>
    w.reached mac time eventId eventType io = [] ∨
      ((w.file.getD []).getLast?.getD 10 = 10 ∧
        (w.record mac time eventId eventType).text <+: w.reached mac time eventId eventType io ∧
        w.InStep)
  | .restart => True

/-! ### Files of linked records -/

/-- The file consists of linked records with their ends and perhaps of one more without. -/
structure Stands (es : List AuditRecord) (last : Option AuditRecord) : Prop where
  file : w.file.getD [] = es.flatMap (·.text ++ [10]) ++ last.elim [] (·.text)
  plain : ∀ e ∈ es ++ last.toList, e.Plain
  chain : ChainFrom mac w.chainKey genesis (es ++ last.toList)
  numbered : ∀ k e, (es ++ last.toList)[k]? = some e → e.seq = CS.toDecimal (k + 1)
  tail : Safe w.tailHex
  fits : (w.file.getD []).length ≤ maxFileSize

variable {mac w} {es : List AuditRecord} {last : Option AuditRecord}

theorem Stands.fresh (key : Bytes) : Stands mac (construct ⟨key, none⟩) [] none where
  file := rfl
  plain := by simp
  chain := trivial
  numbered := by simp
  tail := safe_genesis
  fits := Nat.zero_le _

namespace Stands

variable (h : Stands mac w es last)
include h

theorem plain_ended : ∀ e ∈ es, e.Plain := fun e he => h.plain e (List.mem_append_left _ he)

theorem chain_ended : ChainFrom mac w.chainKey genesis es := by
  cases last with
  | none => simpa using h.chain
  | some e => exact (AuditRecord.chainFrom_concat.mp h.chain).1

theorem numbered_ended : ∀ k e, es[k]? = some e → e.seq = CS.toDecimal (k + 1) := by
  cases last with
  | none => simpa using h.numbered
  | some e => exact (AuditRecord.numbered_concat.mp h.numbered).1

theorem lines {size : Nat} (hsize : 1023 ≤ size) :
    (fgetsFrom size size [] (w.file.getD [])).map lineText =
      (es ++ last.toList).map AuditRecord.text := by
  rw [h.file, AuditRecord.map_lineText_plain_append hsize h.plain_ended, List.map_append]
  cases last with
  | none => simp [fgetsFrom]
  | some e =>
    have he := h.plain e (by simp)
    rw [Option.elim_some, map_lineText_fgets_last he.notMem.1 he.notMem.2
      (Nat.lt_of_lt_of_le he.length hsize) e.text_ne_nil (.inl rfl)]
    rfl

theorem intact : w.Intact mac :=
  intact_iff.mpr ⟨es ++ last.toList,
    by rw [auditLines, h.lines (by decide), AuditRecord.map_parse_plain h.plain],
    h.chain, h.numbered⟩

theorem length_lt : (es ++ last.toList).length < 2 ^ 63 := by
  have hcount := AuditRecord.count_newline_plain h.plain_ended
  have hended : es.length ≤ (es.flatMap (·.text ++ [10])).length :=
    hcount ▸ List.count_le_length
  have hopen : last.toList.length ≤ (last.elim [] (·.text)).length := by
    cases last with
    | none => exact Nat.zero_le _
    | some e => exact List.length_pos_of_ne_nil e.text_ne_nil
  have hfits := h.fits
  rw [h.file, List.length_append, maxFileSize] at hfits
  rw [List.length_append]
  omega

theorem recoverTail_file : recoverTail (w.file.getD []) =
    (UInt64.ofNat (es ++ last.toList).length, lastHmac genesis (es ++ last.toList)) :=
  recoverTail_eq (h.lines (le_refl _)) h.plain h.numbered (Nat.lt_trans h.length_lt (by decide))

theorem restart : Stands mac (construct w.toHashChainedAuditLog) es last :=
  { h with
    tail := by
      simp only [construct, h.recoverTail_file]
      exact AuditRecord.safe_lastHmac safe_genesis h.plain }

theorem getLast_eq_newline_iff : (w.file.getD []).getLast?.getD 10 = 10 ↔ last = none := by
  rw [h.file]
  cases last with
  | none =>
    rcases List.eq_nil_or_concat' es with rfl | ⟨init, e, rfl⟩
    · simp
    · simp
  | some e =>
    -- The text of a record has no newline in it, so the file does not end with one.
    have hnewline := (h.plain e (by simp)).notMem.1
    rw [Option.elim_some, List.getLast?_append_of_ne_nil _ e.text_ne_nil,
      List.getLast?_eq_some_getLast e.text_ne_nil, Option.getD_some]
    simp only [reduceCtorEq, iff_false]
    exact fun heq => hnewline (heq ▸ List.getLast_mem e.text_ne_nil)

theorem inStep_iff : w.InStep ↔ w.seq = UInt64.ofNat (es ++ last.toList).length ∧
    w.tailHex = lastHmac genesis (es ++ last.toList) := by
  rw [InStep, h.recoverTail_file, Prod.mk.injEq, eq_comm, eq_comm (a := lastHmac _ _)]

end Stands

/-! ### One step -/

/-- The number in a record is the next one exactly when the object has the number before. -/
theorem seq_record_iff {n : Nat} (hn : n < 2 ^ 64 - 1) {time : BrokenTime}
    {eventId eventType : Bytes} :
    (w.record mac time eventId eventType).seq = CS.toDecimal (n + 1) ↔ w.seq = UInt64.ofNat n := by
  constructor
  · intro hseq
    have hnext : (w.seq + 1).toNat = n + 1 := CS.toDecimal_injective hseq
    have hone : (1 : UInt64).toNat = 1 := rfl
    have hlt := w.seq.toNat_lt
    rw [UInt64.toNat_add, hone] at hnext
    apply UInt64.toNat.inj
    rw [UInt64.toNat_ofNat']
    omega
  · intro hseq
    exact seq_record hseq hn

namespace Stands

variable {time : BrokenTime} {eventId eventType : Bytes} {io : AppendIo}

theorem plain_record (h : Stands mac w es last)
    (ha : w.Legible mac (.append time eventId eventType io)) :
    (w.record mac time eventId eventType).Plain :=
  AuditWriter.plain_record h.tail ha.1 ha.2.1 ha.2.2.1

theorem append_nothing (h : Stands mac w es last)
    (hnil : w.reached mac time eventId eventType io = []) :
    Stands mac (w.append mac time eventId eventType io).2 es last := by
  have hfile := w.getD_file_append mac time eventId eventType io
  rw [hnil, List.append_nil] at hfile
  constructor
  · rw [hfile, h.file]
  · exact h.plain
  · rw [chainKey_append]
    exact h.chain
  · exact h.numbered
  · exact safe_tailHex_append _ _ _ _ _ _ h.tail
  · rw [hfile]
    exact h.fits

/-- A whole record of an object that is in step continues the file, with its end or without. -/
theorem append_whole (h : Stands mac w es none)
    (ha : w.Legible mac (.append time eventId eventType io)) (hstep : w.InStep) {es' last'}
    (hrecords : es' ++ Option.toList last' = es ++ [w.record mac time eventId eventType])
    (hfile : es'.flatMap (·.text ++ [10]) ++ last'.elim [] (·.text) =
      es.flatMap (·.text ++ [10]) ++ w.reached mac time eventId eventType io) :
    Stands mac (w.append mac time eventId eventType io).2 es' last' := by
  obtain ⟨hseq, htail⟩ := h.inStep_iff.mp hstep
  have hlen := h.length_lt
  rw [Option.toList_none, List.append_nil] at hseq htail hlen
  have hold : w.file.getD [] = es.flatMap (·.text ++ [10]) := by simpa using h.file
  constructor
  · rw [getD_file_append, hold, hfile]
  · rw [hrecords]
    exact List.forall_mem_append.mpr
      ⟨h.plain_ended, List.forall_mem_singleton.mpr (h.plain_record ha)⟩
  · rw [hrecords, chainKey_append]
    exact AuditRecord.chainFrom_concat.mpr ⟨h.chain_ended, htail, rfl⟩
  · rw [hrecords]
    exact AuditRecord.numbered_concat.mpr
      ⟨h.numbered_ended, seq_record hseq (Nat.lt_trans hlen (by decide))⟩
  · exact safe_tailHex_append _ _ _ _ _ _ h.tail
  · rw [getD_file_append, List.length_append]
    have hreached := (w.reached_isPrefix mac time eventId eventType io).length_le
    exact Nat.le_trans (Nat.add_le_add_left hreached _) ha.2.2.2

section

variable (h : Stands mac w es last) (ha : w.Legible mac (.append time eventId eventType io))
include h ha

theorem append_harmless (hok : w.Harmless mac (.append time eventId eventType io)) :
    ∃ es' last', Stands mac (w.append mac time eventId eventType io).2 es' last' := by
  rcases hok with hnil | ⟨hline, hwhole, hstep⟩
  · exact ⟨es, last, h.append_nothing hnil⟩
  · obtain rfl := h.getLast_eq_newline_iff.mp hline
    -- Either the newline has reached the file too, or the new record is the open one.
    rcases List.prefix_concat_iff.mp (w.reached_isPrefix mac time eventId eventType io) with
      hend | hopen
    · refine ⟨es ++ [w.record mac time eventId eventType], none, h.append_whole ha hstep ?_ ?_⟩
      · simp
      · simp [hend]
    · have htext := hopen.eq_of_length_le hwhole.length_le
      refine ⟨es, some (w.record mac time eventId eventType), h.append_whole ha hstep rfl ?_⟩
      rw [htext, Option.elim_some]

section

variable {q : Bytes} (hne : q ≠ []) (hq : q <+: (w.record mac time eventId eventType).text)
  (hreached : w.reached mac time eventId eventType io = q ∨
    w.reached mac time eventId eventType io = q ++ [10])
include hne hq hreached

/-- Bytes that reach the file continue its last line when that has no end yet. -/
theorem auditLines_append :
    auditLines ((w.append mac time eventId eventType io).2.file.getD []) =
      es.map AuditRecord.text ++ [last.elim [] (·.text) ++ q] := by
  have hnew := h.plain_record ha
  have hopen : 10 ∉ last.elim [] (·.text) ∧ 0 ∉ last.elim [] (·.text) ∧
      (last.elim [] (·.text)).length < 1023 := by
    cases last with
    | none => simp
    | some e =>
      have he := h.plain e (by simp)
      exact ⟨he.notMem.1, he.notMem.2, he.length⟩
  -- The two texts on one line still fit into the buffer of `verify_chain`.
  have hshort := Nat.lt_of_le_of_lt hq.length_le hnew.length
  rw [getD_file_append, h.file, List.append_assoc, auditLines,
    AuditRecord.map_lineText_plain_append (by decide) h.plain_ended]
  congr 1
  apply map_lineText_fgets_last
  · rw [List.mem_append]
    exact not_or.mpr ⟨hopen.1, fun hmem => hnew.notMem.1 (hq.subset hmem)⟩
  · rw [List.mem_append]
    exact not_or.mpr ⟨hopen.2.1, fun hmem => hnew.notMem.2 (hq.subset hmem)⟩
  · rw [List.length_append]
    omega
  · simp [hne]
  · rw [List.append_assoc]
    exact hreached.imp (congrArg _) (congrArg _)

/-- In an intact file the line that an append has left is a record that continues the file. -/
theorem parse_of_intact (hintact : (w.append mac time eventId eventType io).2.Intact mac) :
    ∃ e, AuditRecord.parse (last.elim [] (·.text) ++ q) = some e ∧ e.prev = lastHmac genesis es ∧
      e.hmac = e.chainHmac mac w.chainKey ∧ e.seq = CS.toDecimal (es.length + 1) := by
  have hkey : (w.append mac time eventId eventType io).2.chainKey = w.chainKey := chainKey_append
  have hchain := h.chain_ended
  rw [← hkey] at hchain ⊢
  exact (intact_iff_of_lines h.plain_ended hchain h.numbered_ended
    (h.auditLines_append ha hne hq hreached)).mp hintact

end

/-- Only a harmless append leaves an intact file. -/
theorem harmless_of_intact (hintact : (w.append mac time eventId eventType io).2.Intact mac) :
    w.Harmless mac (.append time eventId eventType io) := by
  by_cases hnil : w.reached mac time eventId eventType io = []
  · exact .inl hnil
  obtain ⟨q, hne, ⟨r, hr⟩, hreached⟩ := w.reached_cases mac time eventId eventType io hnil
  obtain ⟨e, hparse, hprev, hhash, hseq⟩ :=
    h.parse_of_intact ha hne ⟨r, hr⟩ (hreached.imp id And.left) hintact
  cases last with
  | some x =>
    -- The line has a record with its hash and then more.
    have hx := (h.plain x (by simp)).parse_text
    have hhash' := (AuditRecord.chainFrom_concat.mp h.chain).2.2
    exact absurd (AuditRecord.eq_nil_of_parse_append hx hhash' hparse hhash) hne
  | none =>
    -- A record with its hash is not a part of the one that was to be written, so it is that one.
    have hnew := (h.plain_record ha).parse_text
    obtain rfl := AuditRecord.eq_nil_of_parse_append hparse hhash (hr ▸ hnew) rfl
    rw [List.append_nil] at hr
    rw [Option.elim_none, List.nil_append, hr, hnew, Option.some.injEq] at hparse
    subst hparse
    have hlen := h.length_lt
    have hstep := h.inStep_iff
    rw [Option.toList_none, List.append_nil] at hlen hstep
    refine .inr ⟨h.getLast_eq_newline_iff.mpr rfl, ?_, hstep.mpr ⟨?_, hprev⟩⟩
    · rw [← hr]
      rcases hreached with heq | ⟨heq, -⟩
      · exact heq ▸ List.prefix_refl q
      · exact heq ▸ List.prefix_append q [10]
    · exact (seq_record_iff (Nat.lt_trans hlen (by decide))).mp hseq

end

theorem step_harmless (h : Stands mac w es last) {a : AuditStep} (ha : w.Legible mac a)
    (hok : w.Harmless mac a) : ∃ es' last', Stands mac (w.step mac a).2 es' last' := by
  cases a with
  | append time eventId eventType io => exact h.append_harmless ha hok
  | restart => exact ⟨es, last, h.restart⟩

theorem intact_step_iff (h : Stands mac w es last) {a : AuditStep} (ha : w.Legible mac a) :
    (w.step mac a).2.Intact mac ↔ w.Harmless mac a := by
  constructor
  · intro hintact
    cases a with
    | append time eventId eventType io => exact h.harmless_of_intact ha hintact
    | restart => trivial
  · intro hok
    obtain ⟨es', last', h'⟩ := h.step_harmless ha hok
    exact h'.intact

end Stands

/-! ### Runs -/

/-- From a missing file on, with lines that can be read back, the file is intact after every step
exactly when every step was harmless. -/
theorem always_intact_iff (mac : Hmac) (key : Bytes) {steps : List AuditStep}
    (hsteps : CS.Guarded (step mac) (Legible mac) (construct ⟨key, none⟩) steps) :
    CS.Always (step mac) (Intact mac) (construct ⟨key, none⟩) steps ↔
      CS.Guarded (step mac) (Harmless mac) (construct ⟨key, none⟩) steps := by
  refine @CS.Guarded.always_iff _ _ _ (step mac) _ _ (Legible mac) (Harmless mac) (Intact mac)
    (fun w => ∃ es last, Stands mac w es last) ?_ ?_ ?_ hsteps ⟨[], none, .fresh key⟩
  · rintro w ⟨es, last, h⟩
    exact h.intact
  · rintro w a ⟨es, last, h⟩ ha
    exact h.intact_step_iff ha
  · rintro w a ⟨es, last, h⟩ ha hok
    exact h.step_harmless ha hok

/-- Failures of every kind, each followed by a restart: the file cannot be opened; the whole line is
written, but not to the disk; the newline is missing. -/
def failuresThenRestarts : List AuditStep :=
  [.append ⟨126, 0, 2, 3, 4, 5, 678⟩ [97] [98] .openFails, .restart,
   .append ⟨126, 0, 2, 3, 4, 6, 7⟩ [97] [98] .done,
   .append ⟨126, 0, 2, 3, 4, 7, 8⟩ [99] [] (.written 1000), .restart,
   .append ⟨126, 0, 2, 3, 4, 8, 9⟩ [97] [] (.written 159), .restart]

theorem always_intact_failuresThenRestarts :
    CS.Always (step lengthMac) (Intact lengthMac) (construct ⟨[1], none⟩) failuresThenRestarts := by
  refine (always_intact_iff lengthMac [1] ?_).mpr ?_
  · exact ⟨by decide +kernel, trivial, by decide +kernel, by decide +kernel, trivial,
      by decide +kernel, trivial, trivial⟩
  · exact ⟨.inl rfl, trivial, .inr (by decide +kernel), .inr (by decide +kernel), trivial,
      .inr (by decide +kernel), trivial, trivial⟩

/-- A line whose `fsync` fails, and the next append of the same process. -/
def staleHash : List AuditStep :=
  [.append ⟨126, 0, 2, 3, 4, 5, 678⟩ [97] [98] (.written 1000),
   .append ⟨126, 0, 2, 3, 4, 6, 7⟩ [99] [] .done]

/-- The second record names the hash of no record, and its line is reported. -/
theorem not_always_intact_staleHash :
    ¬ CS.Always (step lengthMac) (Intact lengthMac) (construct ⟨[1], none⟩) staleHash := by
  intro h
  have hreported : (CS.run (step lengthMac) (construct ⟨[1], none⟩)
      staleHash).toHashChainedAuditLog.verifyChain lengthMac = some 2 := by
    decide +kernel
  rw [h.last.verifies] at hreported
  cases hreported

end AuditWriter

end VirtualHsm
