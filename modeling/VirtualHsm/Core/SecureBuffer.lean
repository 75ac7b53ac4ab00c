import Mathlib.Algebra.Group.Nat.Defs
import VirtualHsm.CS.Run
import VirtualHsm.Core.Utils

/-!
# Secure buffers

A secure buffer owns a mapping whose first and last page are guards, and hands out bytes between
them. The pages it asks for are counted in machine words: rounding the size up to whole pages and
adding the guards can wrap, and then the constructor succeeds with too small a mapping. Buffers are
moved from one object to another, which leaves the source empty and releases what the target held.

Bytes are named by their addresses. What stands in them, and that a release wipes them, is left out.
-/

namespace VirtualHsm

/-! ### The system's side -/

/-- The size of a page in bytes. -/
structure PageSize where
  bytes : UInt64
  pow : ∃ k, bytes.toNat = 2 ^ k

theorem PageSize.pos (ps : PageSize) : 0 < ps.bytes.toNat := by
  obtain ⟨k, hk⟩ := ps.pow
  rw [hk]
  exact Nat.two_pow_pos k

/-- Mapped bytes: not at the null address, and within the address space. -/
structure Mapping where
  base : UInt64
  length : Nat
  base_ne : base ≠ 0
  fits : base.toNat + length ≤ 2 ^ 64

/-- What the calls of a constructor to the system return: a mapping if there is one, and whether
the guards were protected and the pages locked. -/
structure SystemAnswers where
  mapping : Option Mapping
  frontGuard : Bool := true
  rearGuard : Bool := true
  locked : Bool := true

/-! ### Buffers -/

/-- The fields of a buffer; all are zero when it owns nothing. -/
structure SecureBuffer where
  data : UInt64 := 0
  size : UInt64 := 0
  allocBase : UInt64 := 0
  allocSize : UInt64 := 0

inductive BufferError
  | runtimeError (what : String)
  | invalidArgument (what : String)
  | outOfRange (what : String)

/-- The address and the number of the bytes that a call touches, if it touches any. -/
abbrev Touched := Option (UInt64 × UInt64)

namespace SecureBuffer

variable (ps : PageSize) (file : String)

/-- `v_sb_round_up_to_page`, in machine words. -/
def roundUpToPage (n : UInt64) : UInt64 := (n + ps.bytes - 1) / ps.bytes * ps.bytes

/-- What the constructor asks `mmap` for: the data pages and a guard at either end. -/
def request (size : UInt64) : UInt64 := ps.bytes + roundUpToPage ps size + ps.bytes

/-- The constructor. After a failure nothing stays mapped. -/
def construct (size : UInt64) (answers : SystemAnswers) :
    Except String (SecureBuffer × Mapping) := do
  checkMsg (size != 0) "SecureBuffer: size must be > 0" file 93
  let some m := answers.mapping | .error "SecureBuffer: mmap failed"
  if !answers.frontGuard then .error "SecureBuffer: mprotect (front guard) failed"
  if !answers.rearGuard then .error "SecureBuffer: mprotect (rear guard) failed"
  if !answers.locked then
    .error ("SecureBuffer: mlock(2) failed. Check RLIMIT_MEMLOCK (see 'ulimit -l'). " ++
      "On Linux you can raise it in /etc/security/limits.conf.")
  return (⟨m.base + ps.bytes, size, m.base, request ps size⟩, m)

/-- A copy of `len` bytes at an offset; `null` says whether the caller's pointer is. A copy of no
bytes returns before anything is checked. -/
def copy (name pointer : String) (b : SecureBuffer) (offset : UInt64) (null : Bool)
    (len : UInt64) : Except BufferError Touched :=
  if len = 0 then .ok none
  else if null then
    .error (.invalidArgument ("SecureBuffer::" ++ name ++ ": " ++ pointer ++ " is null"))
  else if offset > b.size ∨ len > b.size - offset then
    .error (.outOfRange ("SecureBuffer::" ++ name ++ ": offset=" ++ toString offset ++ " len=" ++
      toString len ++ " size=" ++ toString b.size))
  else .ok (some (b.data + offset, len))

def read := copy "read" "dst"

def write := copy "write" "src"

/-- The address of the rear guard. -/
def rearGuard (b : SecureBuffer) : UInt64 := b.allocBase + ps.bytes + roundUpToPage ps b.size

/-- The buffer's bytes lie between the guards, and the guards inside the mapping. -/
def Contained (b : SecureBuffer) (m : Mapping) : Prop :=
  b.allocBase = m.base ∧ m.base.toNat + ps.bytes.toNat ≤ b.data.toNat ∧
    b.data.toNat + b.size.toNat ≤ (b.rearGuard ps).toNat ∧
    (b.rearGuard ps).toNat + ps.bytes.toNat ≤ m.base.toNat + m.length

/-- The size in whole pages, with both guards, is a machine word. -/
def Fits (size : UInt64) : Prop :=
  (size.toNat + ps.bytes.toNat - 1) / ps.bytes.toNat * ps.bytes.toNat + 2 * ps.bytes.toNat < 2 ^ 64

/-! ### What the constructor returns -/

variable {ps file} {size offset len addr n : UInt64} {answers : SystemAnswers} {b : SecureBuffer}
  {m : Mapping} {name pointer : String} {null : Bool}

theorem toNat_roundUpToPage (h : size.toNat + ps.bytes.toNat - 1 < 2 ^ 64) :
    (roundUpToPage ps size).toNat =
      (size.toNat + ps.bytes.toNat - 1) / ps.bytes.toNat * ps.bytes.toNat := by
  have hpos := ps.pos
  have hsum : (size + ps.bytes - 1).toNat = size.toNat + ps.bytes.toNat - 1 := by
    rw [UInt64.toNat_sub, UInt64.toNat_add, UInt64.toNat_one]
    omega
  have hle := Nat.div_mul_le_self (size.toNat + ps.bytes.toNat - 1) ps.bytes.toNat
  rw [roundUpToPage, UInt64.toNat_mul, UInt64.toNat_div, hsum, Nat.mod_eq_of_lt (by omega)]

/-- Rounding up a size near the top of the range gives no pages. -/
theorem roundUpToPage_of_wrap (h : 2 ^ 64 ≤ size.toNat + ps.bytes.toNat - 1) :
    (roundUpToPage ps size).toNat = 0 := by
  have hsum : (size + ps.bytes - 1).toNat < ps.bytes.toNat := by
    have := size.toNat_lt
    have := ps.bytes.toNat_lt
    rw [UInt64.toNat_sub, UInt64.toNat_add, UInt64.toNat_one]
    omega
  rw [roundUpToPage, UInt64.toNat_mul, UInt64.toNat_div, Nat.div_eq_of_lt hsum, Nat.zero_mul,
    Nat.zero_mod]

theorem construct_eq_ok (h : construct ps file size answers = .ok (b, m)) :
    size ≠ 0 ∧ answers.mapping = some m ∧
      b = ⟨m.base + ps.bytes, size, m.base, request ps size⟩ := by
  obtain ⟨mapping, front, rear, locked⟩ := answers
  unfold construct checkMsg at h
  by_cases hsize : size = 0
  · simp [hsize, bind, Except.bind] at h
  cases mapping with
  | none => simp [hsize, bind, Except.bind] at h
  | some m' =>
    cases front <;> cases rear <;> cases locked <;>
      simp [hsize, bind, Except.bind, pure, Except.pure] at h
    exact ⟨hsize, congrArg some h.2, by rw [← h.1, h.2]⟩

/-- The bytes of a buffer lie between its guards exactly when nothing wrapped. -/
theorem contained_iff (h : construct ps file size answers = .ok (b, m))
    (hlength : (request ps size).toNat ≤ m.length) : b.Contained ps m ↔ Fits ps size := by
  obtain ⟨hsize, -, rfl⟩ := construct_eq_ok h
  have hpos := ps.pos
  have hsize : size.toNat ≠ 0 := fun h0 => hsize (UInt64.toNat_inj.mp h0)
  have hbase : m.base.toNat ≠ 0 := fun h0 => m.base_ne (UInt64.toNat_inj.mp h0)
  have hfits := m.fits
  have hdiv := Nat.div_add_mod' (size.toNat + ps.bytes.toNat - 1) ps.bytes.toNat
  have hmod := Nat.mod_lt (size.toNat + ps.bytes.toNat - 1) hpos
  simp only [request, UInt64.toNat_add] at hlength
  simp only [Contained, Fits, rearGuard, UInt64.toNat_add, true_and]
  by_cases hround : size.toNat + ps.bytes.toNat - 1 < 2 ^ 64
  · rw [toNat_roundUpToPage hround] at hlength ⊢
    generalize (size.toNat + ps.bytes.toNat - 1) / ps.bytes.toNat * ps.bytes.toNat = pages at *
    omega
  · -- No page is left for the data, so the buffer begins at the rear guard.
    rw [roundUpToPage_of_wrap (Nat.not_lt.mp hround)]
    omega

/-! ### What a copy touches -/

theorem copy_cases (b : SecureBuffer) (name pointer : String) (offset : UInt64) (null : Bool)
    (len : UInt64) :
    (len = 0 ∧ b.copy name pointer offset null len = .ok none) ∨
    (len ≠ 0 ∧ ∃ e, b.copy name pointer offset null len = .error e) ∨
    (len ≠ 0 ∧ offset.toNat + len.toNat ≤ b.size.toNat ∧
      b.copy name pointer offset null len = .ok (some (b.data + offset, len))) := by
  unfold copy
  split_ifs with hlen hnull hbeyond
  · exact .inl ⟨hlen, rfl⟩
  · exact .inr (.inl ⟨hlen, _, rfl⟩)
  · exact .inr (.inl ⟨hlen, _, rfl⟩)
  · obtain ⟨hoffset, hrest⟩ := not_or.mp hbeyond
    rw [gt_iff_lt, UInt64.not_lt, UInt64.le_iff_toNat_le] at hrest
    have hoffset := UInt64.not_lt.mp hoffset
    rw [UInt64.toNat_sub_of_le _ _ hoffset] at hrest
    have := UInt64.le_iff_toNat_le.mp hoffset
    exact .inr (.inr ⟨hlen, by omega, rfl⟩)

end SecureBuffer

/-! ### Objects -/

/-- The buffer objects of a program, and what constructors returned that is still mapped. -/
structure Buffers where
  objects : Nat → SecureBuffer := fun _ => {}
  /-- The number of objects so far. -/
  count : Nat := 0
  live : List (SecureBuffer × Mapping) := []

inductive BufferCall
  | construct (size : UInt64) (answers : SystemAnswers)
  | moveConstruct (source : Nat)
  | moveAssign (target source : Nat)
  | read (object : Nat) (offset : UInt64) (null : Bool) (len : UInt64)
  | write (object : Nat) (offset : UInt64) (null : Bool) (len : UInt64)

namespace Buffers

open SecureBuffer (Contained Fits request)

variable (ps : PageSize) (file : String) (w : Buffers)

/-- `v_sb_release`: a buffer that owns nothing unmaps nothing. -/
def release (b : SecureBuffer) : List (SecureBuffer × Mapping) :=
  if b.allocBase = 0 then w.live else w.live.filter fun x => x.2.base ≠ b.allocBase

/-- The fields of the source go to the target, and the source is empty. -/
def handOver (target source : Nat) : Nat → SecureBuffer :=
  Function.update (Function.update w.objects source {}) target (w.objects source)

/-- The call with what it touches and what it leaves behind. -/
def step : BufferCall → Except BufferError Touched × Buffers
  | .construct size answers =>
    match SecureBuffer.construct ps file size answers with
    | .error e => (.error (.runtimeError e), w)
    | .ok made =>
      (.ok none, ⟨Function.update w.objects w.count made.1, w.count + 1, made :: w.live⟩)
  | .moveConstruct source =>
    (.ok none, ⟨w.handOver w.count source, w.count + 1, w.live⟩)
  | .moveAssign target source =>
    (.ok none,
      if target = source then w
      else { w with objects := w.handOver target source, live := w.release (w.objects target) })
  | .read i offset null len => ((w.objects i).read offset null len, w)
  | .write i offset null len => ((w.objects i).write offset null len, w)

/-- `mmap` returns at least as many bytes as it is asked for, and no mapping that there is. Moves
are between objects that were constructed. -/
def Legal : BufferCall → Prop
  | .construct size answers => ∀ m ∈ answers.mapping,
    (request ps size).toNat ≤ m.length ∧ ∀ x ∈ w.live, x.2.base ≠ m.base
  | .moveConstruct source => source < w.count
  | .moveAssign target source => target < w.count ∧ source < w.count
  | .read .. | .write .. => True

/-- A copy touches only bytes that a constructor returned, in a mapping that is still there, and it
throws when it would end behind the buffer. -/
def CopyInside (b : SecureBuffer) (offset len : UInt64) (r : Except BufferError Touched) : Prop :=
  (∀ addr n, r = .ok (some (addr, n)) →
    ∃ m, (b, m) ∈ w.live ∧ Contained ps b m ∧ b.data.toNat ≤ addr.toNat ∧
      addr.toNat + n.toNat ≤ b.data.toNat + b.size.toNat) ∧
  (b.size.toNat < offset.toNat + len.toNat → ∃ e, r = .error e)

/-- A constructor that returns has its bytes between the guards, and copies stay inside. -/
def Inside (call : BufferCall) : Prop :=
  match call with
  | .construct size answers => ∀ made, SecureBuffer.construct ps file size answers = .ok made →
    Contained ps made.1 made.2
  | .moveConstruct _ | .moveAssign .. => True
  | .read i offset _ len | .write i offset _ len =>
    w.CopyInside ps (w.objects i) offset len (w.step ps file call).1

/-- No constructor returns a buffer whose pages wrapped, and no copy of no bytes begins behind the
buffer. -/
def Harmless : BufferCall → Prop
  | .construct size answers => ∀ made, SecureBuffer.construct ps file size answers = .ok made →
    Fits ps size
  | .moveConstruct _ | .moveAssign .. => True
  | .read i offset _ len | .write i offset _ len => len = 0 → offset ≤ (w.objects i).size

/-- Every object is empty or owns what one constructor returned, and no two own the same. -/
structure Sound : Prop where
  contained : ∀ x ∈ w.live, Contained ps x.1 x.2
  owned : ∀ i, w.objects i = {} ∨ ∃ m, (w.objects i, m) ∈ w.live
  distinct : ∀ i j, (w.objects i).allocBase = (w.objects j).allocBase →
    (w.objects i).allocBase = 0 ∨ i = j

variable {ps file w} {i : Nat}

/-- Among copies the harmless ones are those that stay inside. -/
theorem Sound.copy_iff (h : w.Sound ps) (name pointer : String) (offset : UInt64) (null : Bool)
    (len : UInt64) :
    w.CopyInside ps (w.objects i) offset len ((w.objects i).copy name pointer offset null len) ↔
      (len = 0 → offset ≤ (w.objects i).size) := by
  unfold CopyInside
  obtain ⟨rfl, hcopy⟩ | ⟨hlen, e, hcopy⟩ | ⟨hlen, hle, hcopy⟩ :=
    (w.objects i).copy_cases name pointer offset null len
  · simp [hcopy, UInt64.le_iff_toNat_le]
  · simp [hcopy, hlen]
  · have hpos : len.toNat ≠ 0 := fun h0 => hlen (UInt64.toNat_inj.mp h0)
    refine iff_of_true ⟨?_, fun hlt => by omega⟩ fun h0 => absurd h0 hlen
    intro addr n hok
    cases hcopy.symm.trans hok
    obtain hempty | ⟨m, hm⟩ := h.owned i
    · rw [hempty] at hle
      exact absurd (Nat.le_zero.mp (Nat.le_trans (Nat.le_add_left _ _) hle)) hpos
    have hcontained : Contained ps (w.objects i) m := h.contained _ hm
    refine ⟨m, hm, hcontained, ?_⟩
    obtain ⟨-, -, hrear, -⟩ := hcontained
    have hlt := ((w.objects i).rearGuard ps).toNat_lt
    rw [UInt64.toNat_add, Nat.mod_eq_of_lt (by omega)]
    omega

theorem Sound.inside_iff (h : w.Sound ps) {call : BufferCall} (hlegal : w.Legal ps call) :
    w.Inside ps file call ↔ w.Harmless ps file call := by
  cases call with
  | construct size answers =>
    refine forall_congr' fun made => forall_congr' fun hmade => ?_
    obtain ⟨-, hmapping, -⟩ := SecureBuffer.construct_eq_ok hmade
    exact SecureBuffer.contained_iff hmade (hlegal _ hmapping).1
  | moveConstruct | moveAssign => exact Iff.rfl
  | read i offset null len => exact h.copy_iff "read" "dst" offset null len
  | write i offset null len => exact h.copy_iff "write" "src" offset null len

/-- A buffer moves from one object to another, and nothing is unmapped but what the target had. -/
theorem Sound.handOver (h : w.Sound ps) {target source n : Nat} (hne : target ≠ source)
    {live : List (SecureBuffer × Mapping)} (hsub : ∀ x ∈ live, x ∈ w.live)
    (hlive : ∀ k, k ≠ target → ∀ m, (w.objects k, m) ∈ w.live → (w.objects k, m) ∈ live) :
    Sound ps ⟨w.handOver target source, n, live⟩ := by
  have howned (k : Nat) (hk : k ≠ target) :
      w.objects k = {} ∨ ∃ m, (w.objects k, m) ∈ live :=
    (h.owned k).imp_right fun ⟨m, hm⟩ => ⟨m, hlive k hk m hm⟩
  refine ⟨fun x hx => h.contained x (hsub x hx), fun k => ?_, fun k l => ?_⟩
  · simp only [Buffers.handOver, Function.update_apply]
    split_ifs with hk
    · exact howned source hne.symm
    · exact .inl rfl
    · exact howned k hk
  · simp only [Buffers.handOver, Function.update_apply]
    -- The source is empty now, so a buffer that it had is seen at the target only.
    split_ifs with hk hl hsl hks hl hsl
    · exact fun _ => .inr (hk.trans hl.symm)
    · exact .inl
    · exact fun hbase => (h.distinct source l hbase).imp_right fun heq => absurd heq.symm hsl
    · exact fun _ => .inl rfl
    · exact fun _ => .inl rfl
    · exact fun _ => .inl rfl
    · exact fun hbase => (h.distinct k source hbase).imp_right fun heq => absurd heq hks
    · exact .inl
    · exact h.distinct k l

theorem Sound.step (h : w.Sound ps) {call : BufferCall} (hlegal : w.Legal ps call)
    (hok : w.Harmless ps file call) : (w.step ps file call).2.Sound ps := by
  cases call with
  | construct size answers =>
    rw [Buffers.step]
    cases hmade : SecureBuffer.construct ps file size answers with
    | error e => exact h
    | ok made =>
      obtain ⟨b, m⟩ := made
      obtain ⟨-, hmapping, -⟩ := SecureBuffer.construct_eq_ok hmade
      obtain ⟨hlength, hfresh⟩ := hlegal m hmapping
      have hcontained := (SecureBuffer.contained_iff hmade hlength).mpr (hok _ hmade)
      -- No object owns a mapping at the new one's address.
      have hnew (k : Nat) : (w.objects k).allocBase ≠ b.allocBase := by
        rw [hcontained.1]
        obtain hempty | ⟨m', hm'⟩ := h.owned k
        · rw [hempty]
          exact m.base_ne.symm
        · rw [(h.contained _ hm').1]
          exact hfresh _ hm'
      refine ⟨List.forall_mem_cons.mpr ⟨hcontained, h.contained⟩, fun k => ?_, fun k l => ?_⟩
      · simp only [Function.update_apply]
        split_ifs
        · exact .inr ⟨m, List.mem_cons_self⟩
        · exact (h.owned k).imp_right fun ⟨m', hm'⟩ => ⟨m', List.mem_cons_of_mem _ hm'⟩
      · simp only [Function.update_apply]
        split_ifs with hk hl hl
        · exact fun _ => .inr (hk.trans hl.symm)
        · exact fun hbase => absurd hbase.symm (hnew l)
        · exact fun hbase => absurd hbase (hnew k)
        · exact h.distinct k l
  | moveConstruct source =>
    exact h.handOver (Nat.ne_of_gt hlegal) (fun _ hx => hx) fun _ _ _ hm => hm
  | moveAssign target source =>
    rw [Buffers.step]
    dsimp only [release]
    split_ifs with hself hempty
    · exact h
    · exact h.handOver hself (fun _ hx => hx) fun _ _ _ hm => hm
    refine h.handOver hself (fun x hx => (List.mem_filter.mp hx).1) fun k hk m hm => ?_
    -- What the target had is at another address.
    refine List.mem_filter.mpr ⟨hm, decide_eq_true fun heq => ?_⟩
    obtain hzero | heq := h.distinct k target ((h.contained _ hm).1.trans heq)
    · exact m.base_ne ((h.contained _ hm).1.symm.trans hzero)
    · exact hk heq
  | read | write => exact h

/-- Whatever is constructed, moved, read and written: each constructor that returns has its bytes
between the guards and each copy stays inside them or throws, exactly when no size wraps and no copy
of no bytes begins behind its buffer. -/
theorem inside_run_iff {calls : List BufferCall}
    (hlegal : CS.Guarded (step ps file) (Legal ps) {} calls) :
    CS.Guarded (step ps file) (Inside ps file) {} calls ↔
      CS.Guarded (step ps file) (Harmless ps file) {} calls := by
  have hstart : Sound ps {} := ⟨nofun, fun _ => .inl rfl, fun _ _ _ => .inl rfl⟩
  exact hlegal.congr (fun _ _ h => h.inside_iff) (fun _ _ h => h.step) hstart

def pages4096 : PageSize := ⟨4096, 12, rfl⟩

/-- Every call to the system succeeds. -/
def mapped (length : Nat) (h : 0x10000 + length ≤ 2 ^ 64) : SystemAnswers where
  mapping := some ⟨0x10000, length, by decide, h⟩

theorem legal_mapped {length : Nat} {h : 0x10000 + length ≤ 2 ^ 64} {size : UInt64}
    (hlength : (request ps size).toNat ≤ length) :
    Legal ps {} (.construct size (mapped length h)) := by
  intro m hm
  cases hm
  exact ⟨hlength, nofun⟩

/-- A buffer of 32 bytes is moved, written to its end, and read where it was moved from. -/
def movedCalls : List BufferCall :=
  [.construct 32 (mapped 0x3000 (by decide)), .moveConstruct 0, .write 1 8 false 24, .read 0 0 false 1]

theorem inside_movedCalls :
    CS.Guarded (step pages4096 "") (Legal pages4096) {} movedCalls ∧
    CS.Guarded (step pages4096 "") (Inside pages4096 "") {} movedCalls := by
  have hlegal : CS.Guarded (step pages4096 "") (Legal pages4096) {} movedCalls :=
    ⟨legal_mapped (by decide), Nat.zero_lt_one, trivial, trivial, trivial⟩
  refine ⟨hlegal, (inside_run_iff hlegal).mpr ⟨fun _ _ => ?_, trivial, nofun, nofun, trivial⟩⟩
  unfold Fits
  decide

/-- The largest size rounds up to no pages, and the first byte of the buffer is one of the rear guard.
A copy of no bytes behind a buffer does not throw. -/
theorem not_inside_wrapped :
    let wrapped := .construct 0xFFFFFFFFFFFFFFFF (mapped 0x2000 (by decide))
    let behind := [.construct 32 (mapped 0x3000 (by decide)), .read 0 33 false 0]
    (CS.Guarded (step pages4096 "") (Legal pages4096) {} [wrapped] ∧
      ¬ CS.Guarded (step pages4096 "") (Inside pages4096 "") {} [wrapped] ∧
      CS.answers (step pages4096 "") {} [wrapped, .read 0 0 false 1] =
        [.ok none, .ok (some (0x11000, 1))]) ∧
    CS.Guarded (step pages4096 "") (Legal pages4096) {} behind ∧
      ¬ CS.Guarded (step pages4096 "") (Inside pages4096 "") {} behind := by
  refine ⟨⟨⟨legal_mapped (by decide), trivial⟩, fun h => ?_, rfl⟩,
    ⟨legal_mapped (by decide), trivial, trivial⟩, fun h => ?_⟩
  · have hcontained := h.1 _ rfl
    exact absurd hcontained.2.2.1 (by decide)
  · obtain ⟨e, he⟩ := h.2.1.2 (by decide)
    cases he

end Buffers

end VirtualHsm
