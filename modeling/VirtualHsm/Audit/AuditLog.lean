import VirtualHsm.CS.Fields
import VirtualHsm.Crypto.Hmac

/-!
# The hash-chained audit log

A log file has one record a line. A record ends with the hash of the record before it and with
the keyed hash of everything in front. Verification reads the file from its start; it knows
neither how many records there were nor which hash the last of them had.
-/

namespace VirtualHsm

/-! ### Reading lines -/

/-- What successive calls of `fgets` return for a buffer with `size` bytes of text: a piece ends
with a newline, or when the buffer is full. `room` is left in the buffer, `piece` is in it. -/
def fgetsFrom (size : Nat) : Nat → Bytes → Bytes → List Bytes
  | _, piece, [] => if piece = [] then [] else [piece]
  | room, piece, b :: bs =>
    -- A line longer than the buffer is read as several.
    if b = 10 ∨ room ≤ 1 then (piece ++ [b]) :: fgetsFrom size size [] bs
    else fgetsFrom size (room - 1) (piece ++ [b]) bs

/-- A piece as a C string, without the newline at its end. -/
def lineText (piece : Bytes) : Bytes :=
  let s := piece.takeWhile (· ≠ 0)
  if s.getLast? = some 10 then s.dropLast else s

/-- A line that fits into the buffer is one piece. -/
theorem fgetsFrom_line {size room : Nat} {text : Bytes} (htext : 10 ∉ text)
    (hroom : text.length < room) (piece rest : Bytes) :
    fgetsFrom size room piece (text ++ 10 :: rest) =
      (piece ++ text ++ [10]) :: fgetsFrom size size [] rest := by
  induction text generalizing room piece with
  | nil => simp [fgetsFrom]
  | cons b text ih =>
    have hb : b ≠ 10 := fun h => htext (h ▸ List.mem_cons_self)
    have hlong : ¬ room ≤ 1 := by
      simp only [List.length_cons] at hroom
      omega
    have hrest : text.length < room - 1 := by
      simp only [List.length_cons] at hroom
      omega
    rw [List.cons_append, fgetsFrom, if_neg (by simp [hb, hlong]),
      ih (fun h => htext (List.mem_cons_of_mem b h)) hrest]
    simp

theorem lineText_append {text : Bytes} (hnul : 0 ∉ text) : lineText (text ++ [10]) = text := by
  have hall : (text ++ [10]).takeWhile (· ≠ 0) = text ++ [10] := by
    apply List.takeWhile_eq_self_iff.mpr
    intro b hb
    rcases List.mem_append.mp hb with h | h
    · simpa using fun (h0 : b = 0) => hnul (h0 ▸ h)
    · rw [List.mem_singleton.mp h]
      decide
  simp only [lineText, hall, List.getLast?_concat, if_true, List.dropLast_concat]

/-- Lines without newline and null byte that fit into the buffer are read back, whatever follows. -/
theorem map_lineText_fgets_append {size : Nat} {texts : List Bytes}
    (htexts : ∀ t ∈ texts, 10 ∉ t ∧ 0 ∉ t ∧ t.length < size) (rest : Bytes) :
    (fgetsFrom size size [] (texts.flatMap (· ++ [10]) ++ rest)).map lineText =
      texts ++ (fgetsFrom size size [] rest).map lineText := by
  induction texts with
  | nil => rfl
  | cons t texts ih =>
    obtain ⟨hline, hnul, hlen⟩ := htexts t List.mem_cons_self
    rw [List.flatMap_cons, List.append_assoc, List.append_assoc, List.singleton_append,
      fgetsFrom_line hline hlen, List.map_cons, List.nil_append, lineText_append hnul,
      ih fun u hu => htexts u (List.mem_cons_of_mem t hu), List.cons_append]

theorem fgetsFrom_rest {size room : Nat} {text : Bytes} (htext : 10 ∉ text)
    (hroom : text.length < room) (piece : Bytes) :
    fgetsFrom size room piece text = if piece ++ text = [] then [] else [piece ++ text] := by
  induction text generalizing room piece with
  | nil => simp [fgetsFrom]
  | cons b text ih =>
    rw [List.length_cons] at hroom
    have hb : b ≠ 10 := fun h => htext (h ▸ List.mem_cons_self)
    have hlong : ¬ room ≤ 1 := by omega
    rw [fgetsFrom, if_neg (by simp [hb, hlong]),
      ih (fun h => htext (List.mem_cons_of_mem b h)) (by omega)]
    simp

theorem lineText_eq_self {text : Bytes} (hline : 10 ∉ text) (hnul : 0 ∉ text) :
    lineText text = text := by
  have hall : text.takeWhile (· ≠ 0) = text := by
    apply List.takeWhile_eq_self_iff.mpr
    intro b hb
    simpa using fun (h0 : b = 0) => hnul (h0 ▸ hb)
  have hlast : text.getLast? ≠ some 10 := fun h => hline (List.mem_of_getLast? h)
  simp only [lineText, hall, hlast, if_false]

/-- A last line is read with or without its newline. -/
theorem map_lineText_fgets_last {size : Nat} {text piece : Bytes} (hline : 10 ∉ text)
    (hnul : 0 ∉ text) (hlen : text.length < size) (hne : text ≠ [])
    (hpiece : piece = text ∨ piece = text ++ [10]) :
    (fgetsFrom size size [] piece).map lineText = [text] := by
  rcases hpiece with rfl | rfl
  · rw [fgetsFrom_rest hline hlen, List.nil_append, if_neg hne, List.map_singleton,
      lineText_eq_self hline hnul]
  · rw [fgetsFrom_line hline hlen, List.nil_append, List.map_cons, lineText_append hnul]
    rfl

/-- The lines that `verify_chain` looks at: its buffer has 2048 bytes. -/
def auditLines (file : Bytes) : List Bytes := (fgetsFrom 2047 2047 [] file).map lineText

/-! ### Records -/

/-- `SEQ|TS|ID|TYPE|PREV|HMAC`. -/
structure AuditRecord where
  seq : Bytes
  ts : Bytes
  eventId : Bytes
  eventType : Bytes
  prev : Bytes
  hmac : Bytes
  deriving DecidableEq, Repr

/-- The text before the first separator, and the text after it. -/
def cutField (s : Bytes) : Option (Bytes × Bytes) :=
  if 124 ∈ s then some (s.takeWhile (· ≠ 124), (s.dropWhile (· ≠ 124)).tail) else none

theorem cutField_eq_some_iff {s a b : Bytes} :
    cutField s = some (a, b) ↔ s = a ++ 124 :: b ∧ 124 ∉ a := by
  unfold cutField
  constructor
  · intro h
    split_ifs at h with hs
    cases h
    exact ⟨(CS.takeWhile_append_tail_dropWhile hs).symm, CS.notMem_takeWhile⟩
  · rintro ⟨rfl, ha⟩
    rw [if_pos (by simp), CS.takeWhile_append_cons ha, CS.dropWhile_append_cons ha, List.tail_cons]

/-- `to_hex`. -/
def toHex (bs : Bytes) : Bytes :=
  bs.flatMap fun b =>
    [(hexDigit (b.toNat / 16)).toNat.toUInt8, (hexDigit (b.toNat % 16)).toNat.toUInt8]

theorem length_toHex (bs : Bytes) : (toHex bs).length = 2 * bs.length := by
  induction bs with
  | nil => rfl
  | cons b bs ih =>
    rw [toHex, List.flatMap_cons, List.length_append, ← toHex, ih]
    simp only [List.length_cons, List.length_nil]
    omega

theorem toHex_injective : Function.Injective toHex := by
  have hdigit : ∀ i < 16, ∀ j < 16,
      (hexDigit i).toNat.toUInt8 = (hexDigit j).toNat.toUInt8 → i = j := by decide
  intro bs cs h
  induction bs generalizing cs with
  | nil =>
    cases cs with
    | nil => rfl
    | cons c cs => cases h
  | cons b bs ih =>
    cases cs with
    | nil => cases h
    | cons c cs =>
      obtain ⟨hhigh, hrest⟩ := List.cons.inj h
      obtain ⟨hlow, htail⟩ := List.cons.inj hrest
      have hb := b.toNat_lt
      have hc := c.toNat_lt
      have hhigh := hdigit _ (by omega) _ (by omega) hhigh
      have hlow := hdigit _ (by omega) _ (by omega) hlow
      rw [ih htail, UInt8.toNat_inj.mp (by omega : b.toNat = c.toNat)]

namespace AuditRecord

/-- The first five fields end at a separator; the sixth is the rest. -/
def parse (s : Bytes) : Option AuditRecord := do
  let (seq, s) ← cutField s
  let (ts, s) ← cutField s
  let (eventId, s) ← cutField s
  let (eventType, s) ← cutField s
  let (prev, hmac) ← cutField s
  return { seq, ts, eventId, eventType, prev, hmac }

/-- What the hash of a record covers. -/
def recordBytes (e : AuditRecord) : Bytes :=
  [124].intercalate [e.seq, e.ts, e.eventId, e.eventType, e.prev]

/-- The record as a line without its end. -/
def text (e : AuditRecord) : Bytes := e.recordBytes ++ 124 :: e.hmac

/-- The fields that end at a separator. -/
def fields (e : AuditRecord) : List Bytes := [e.seq, e.ts, e.eventId, e.eventType, e.prev]

theorem parse_eq_some_iff {s : Bytes} {e : AuditRecord} :
    parse s = some e ↔ s = e.text ∧ ∀ f ∈ e.fields, 124 ∉ f := by
  obtain ⟨seq, ts, eventId, eventType, prev, hmac⟩ := e
  simp only [parse, Option.bind_eq_bind, Option.bind_eq_some_iff, Prod.exists,
    cutField_eq_some_iff, Option.pure_def, Option.some.injEq, mk.injEq, text, recordBytes, fields,
    List.mem_cons, List.not_mem_nil, or_false, forall_eq_or_imp, forall_eq]
  constructor
  · rintro ⟨_, _, ⟨rfl, h₁⟩, _, _, ⟨rfl, h₂⟩, _, _, ⟨rfl, h₃⟩, _, _, ⟨rfl, h₄⟩, _, _, ⟨rfl, h₅⟩,
      rfl, rfl, rfl, rfl, rfl, rfl⟩
    exact ⟨by simp [List.intercalate], h₁, h₂, h₃, h₄, h₅⟩
  · rintro ⟨rfl, h₁, h₂, h₃, h₄, h₅⟩
    exact ⟨seq, _, ⟨by simp [List.intercalate], h₁⟩, ts, _, ⟨rfl, h₂⟩, eventId, _, ⟨rfl, h₃⟩,
      eventType, _, ⟨rfl, h₄⟩, prev, hmac, ⟨rfl, h₅⟩, rfl, rfl, rfl, rfl, rfl, rfl⟩

variable (mac : Hmac) (key : Bytes)

/-- `chain_hmac` in hexadecimal. -/
def chainHmac (e : AuditRecord) : Bytes := toHex (mac.sha256 key e.recordBytes)

theorem length_chainHmac (e : AuditRecord) : (e.chainHmac mac key).length = 64 := by
  rw [chainHmac, length_toHex, mac.length_sha256]

/-- Each record names the hash of the one before it and carries its own. -/
def ChainFrom : Bytes → List AuditRecord → Prop
  | _, [] => True
  | prev, e :: es => e.prev = prev ∧ e.hmac = e.chainHmac mac key ∧ ChainFrom e.hmac es

end AuditRecord

/-! ### Verification -/

structure HashChainedAuditLog where
  chainKey : Bytes
  /-- The contents of the file, when it can be opened. -/
  file : Option Bytes

namespace HashChainedAuditLog

/-- The hash in front of the first record. -/
def genesis : Bytes := List.replicate 64 48

section Lines

variable (mac : Hmac) (key : Bytes)

/-- The loop of `verify_chain`: `prev` is the hash of the last line, `lineno` the number of lines
read. -/
def verifyLines : Bytes → Nat → List Bytes → Option Nat
  | _, _, [] => none
  | prev, lineno, line :: lines =>
    match AuditRecord.parse line with
    | none => some (lineno + 1)
    | some e =>
      -- Sequence numbers and times are not compared with the line before.
      if e.hmac.length ≠ 64 ∨ e.prev ≠ prev then some (lineno + 1)
      else if e.chainHmac mac key ≠ e.hmac then some (lineno + 1)
      else verifyLines e.hmac (lineno + 1) lines

variable {mac key}

/-- The check of the length is implied by the comparison with the hash. -/
theorem verifyLines_eq_none_iff (lines : List Bytes) (prev : Bytes) (lineno : Nat) :
    verifyLines mac key prev lineno lines = none ↔
      ∃ es : List AuditRecord, lines.map AuditRecord.parse = es.map some ∧
        AuditRecord.ChainFrom mac key prev es := by
  induction lines generalizing prev lineno with
  | nil =>
    constructor
    · intro _
      exact ⟨[], rfl, trivial⟩
    · intro _
      rfl
  | cons line lines ih =>
    cases hparse : AuditRecord.parse line with
    | none =>
      simp only [verifyLines, hparse, List.map_cons, reduceCtorEq, false_iff, not_exists]
      rintro (_ | ⟨e, es⟩) ⟨heq, -⟩
      · cases heq
      · cases (List.cons.inj heq).1
    | some e =>
      -- The two tests of the loop together say that the record continues the chain.
      have hstep : verifyLines mac key prev lineno (line :: lines) = none ↔
          e.prev = prev ∧ e.hmac = e.chainHmac mac key ∧
            verifyLines mac key e.hmac (lineno + 1) lines = none := by
        have hlen := e.length_chainHmac mac key
        simp only [verifyLines, hparse]
        split_ifs with hshape hhash
        · simp only [false_iff]
          rintro ⟨hprev, heq, -⟩
          rcases hshape with h | h
          · exact h (heq ▸ hlen)
          · exact h hprev
        · simp only [false_iff]
          rintro ⟨-, heq, -⟩
          exact hhash heq.symm
        · push Not at hshape hhash
          simp only [hshape.2, hhash, true_and]
      rw [hstep, ih]
      constructor
      · rintro ⟨hprev, hhash, es, hlines, hchain⟩
        exact ⟨e :: es, by rw [List.map_cons, List.map_cons, hparse, hlines],
          hprev, hhash, hchain⟩
      · rintro ⟨es, heq, hchain⟩
        cases es with
        | nil => cases heq
        | cons e' es =>
          rw [List.map_cons, List.map_cons, hparse] at heq
          obtain ⟨hhead, htail⟩ := List.cons.inj heq
          cases hhead
          exact ⟨hchain.1, hchain.2.1, es, htail, hchain.2.2⟩

end Lines

variable (mac : Hmac) (log : HashChainedAuditLog)

/-- `verify_chain`: the first bad line. A file that cannot be opened has none. -/
def verifyChain : Option Nat :=
  log.file.elim none fun bytes => verifyLines mac log.chainKey genesis 0 (auditLines bytes)

/-- The lines of a file are the records of a chain. -/
def Verifies (bytes : Bytes) (es : List AuditRecord) : Prop :=
  (auditLines bytes).map AuditRecord.parse = es.map some ∧
    AuditRecord.ChainFrom mac log.chainKey genesis es

variable {mac log}

theorem verifyChain_eq_none_iff :
    log.verifyChain mac = none ↔
      ∀ bytes, log.file = some bytes → ∃ es, log.Verifies mac bytes es := by
  unfold verifyChain
  cases hfile : log.file with
  | none => simp
  | some bytes =>
    rw [Option.elim_some, verifyLines_eq_none_iff]
    constructor
    · rintro hes bytes' heq
      cases heq
      exact hes
    · intro h
      exact h bytes rfl

theorem verifyChain_eq_none_iff_getD :
    log.verifyChain mac = none ↔ ∃ es, log.Verifies mac (log.file.getD []) es := by
  rw [verifyChain_eq_none_iff]
  cases hfile : log.file with
  | none => exact iff_of_true nofun ⟨[], rfl, trivial⟩
  | some bytes => simp

end HashChainedAuditLog

end VirtualHsm
