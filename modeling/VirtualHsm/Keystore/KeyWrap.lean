import VirtualHsm.CS.LittleEndian
import VirtualHsm.CS.Run
import VirtualHsm.Crypto.Backend

/-!
# AES key wrap

The key-wrap algorithm over the block cipher of the library: six rounds over the eight-byte
blocks of the key, with an integrity register that absorbs each step's number.
-/

namespace VirtualHsm.KeyWrap

/-- The initial value of the integrity register. -/
def aiv : Bytes := List.replicate 8 0xA6

/-- The number of a step as eight bytes, most significant first. -/
def stepBytes (t : Nat) : Bytes := (CS.toLe 8 (t % 2 ^ 64)).reverse

def xorBytes (a b : Bytes) : Bytes := List.zipWith (· ^^^ ·) a b

/-- Cut into blocks of eight bytes. -/
def blocks : Nat → Bytes → List Bytes
  | 0, _ => []
  | n + 1, bs => bs.take 8 :: blocks n (bs.drop 8)

variable (be : Backend) (kek : Bytes)

/-- Round `j` over the blocks from number `i` on: each block is encrypted with the register in
front of it. -/
def wrapRound (n j : Nat) : Nat → Bytes → List Bytes → Bytes × List Bytes
  | _, a, [] => (a, [])
  | i, a, r :: rs =>
    let block := be.aesEncryptBlock kek (a ++ r)
    let rest := wrapRound n j (i + 1) (xorBytes (block.take 8) (stepBytes (n * j + i))) rs
    (rest.1, (block.drop 8).take 8 :: rest.2)

/-- Round `j` of unwrapping, from the last block back to number `i`. -/
def unwrapRound (n j : Nat) : Nat → Bytes → List Bytes → Bytes × List Bytes
  | _, a, [] => (a, [])
  | i, a, r :: rs =>
    let rest := unwrapRound n j (i + 1) a rs
    let block := be.aesDecryptBlock kek (xorBytes rest.1 (stepBytes (n * j + i)) ++ r)
    (block.take 8, (block.drop 8).take 8 :: rest.2)

/-- `KeyWrap::wrap`. -/
def wrap (key : Bytes) : Option Bytes :=
  if 16 ≤ key.length ∧ key.length % 8 = 0 then
    let n := key.length / 8
    let r := [0, 1, 2, 3, 4, 5].foldl (fun r j => wrapRound be kek n j 1 r.1 r.2)
      (aiv, blocks n key)
    some (r.1 ++ r.2.flatten)
  else none

/-- `KeyWrap::unwrap`. -/
def unwrap (wrapped : Bytes) : Option Bytes :=
  if 24 ≤ wrapped.length ∧ wrapped.length % 8 = 0 then
    let n := wrapped.length / 8 - 1
    let r := [5, 4, 3, 2, 1, 0].foldl (fun r j => unwrapRound be kek n j 1 r.1 r.2)
      (wrapped.take 8, blocks n (wrapped.drop 8))
    if r.1 = aiv then some r.2.flatten else none
  else none

/-! ### Blocks -/

/-- Register and blocks have eight bytes each, and there are `n` blocks. -/
structure Aligned (n : Nat) (s : Bytes × List Bytes) : Prop where
  register : s.1.length = 8
  blocks : ∀ r ∈ s.2, r.length = 8
  count : s.2.length = n

theorem length_stepBytes (t : Nat) : (stepBytes t).length = 8 := by
  rw [stepBytes, List.length_reverse, CS.length_toLe]

theorem length_xorBytes {a b : Bytes} (h : a.length = b.length) :
    (xorBytes a b).length = a.length := by
  rw [xorBytes, List.length_zipWith, ← h, Nat.min_self]

theorem xorBytes_cancel {a b : Bytes} (h : a.length = b.length) :
    xorBytes (xorBytes a b) b = a := by
  induction a generalizing b with
  | nil => rfl
  | cons x a ih =>
    cases b with
    | nil => cases h
    | cons y b =>
      have hbyte : x ^^^ y ^^^ y = x := by rw [UInt8.xor_assoc, UInt8.xor_self, UInt8.xor_zero]
      have htail := ih (Nat.succ.inj h)
      simp only [xorBytes, List.zipWith_cons_cons, hbyte] at htail ⊢
      rw [htail]

theorem length_blocks (n : Nat) (bs : Bytes) : (blocks n bs).length = n := by
  induction n generalizing bs with
  | zero => rfl
  | succ n ih => rw [blocks, List.length_cons, ih]

theorem aligned_blocks {n : Nat} {bs : Bytes} (h : 8 * n ≤ bs.length) :
    ∀ r ∈ blocks n bs, r.length = 8 := by
  induction n generalizing bs with
  | zero => exact fun r hr => nomatch hr
  | succ n ih =>
    intro r hr
    rcases List.mem_cons.mp hr with rfl | hr
    · rw [List.length_take]
      omega
    · refine ih ?_ r hr
      rw [List.length_drop]
      omega

theorem flatten_blocks {n : Nat} {bs : Bytes} (h : bs.length = 8 * n) :
    (blocks n bs).flatten = bs := by
  induction n generalizing bs with
  | zero => exact (List.eq_nil_of_length_eq_zero h).symm
  | succ n ih =>
    have hrest : (bs.drop 8).length = 8 * n := by
      rw [List.length_drop]
      omega
    rw [blocks, List.flatten_cons, ih hrest, List.take_append_drop]

theorem length_flatten_aligned {rs : List Bytes} (h : ∀ r ∈ rs, r.length = 8) :
    rs.flatten.length = 8 * rs.length := by
  rw [List.length_flatten, List.map_congr_left h, List.map_const', List.sum_replicate_nat,
    Nat.mul_comm]

theorem blocks_flatten {rs : List Bytes} (h : ∀ r ∈ rs, r.length = 8) :
    blocks rs.length rs.flatten = rs := by
  induction rs with
  | nil => rfl
  | cons r rs ih =>
    have hr : r.length = 8 := h r List.mem_cons_self
    have hrs := ih fun x hx => h x (List.mem_cons_of_mem r hx)
    rw [List.length_cons, blocks, List.flatten_cons, List.take_left' hr, List.drop_left' hr, hrs]

/-! ### Unwrapping undoes wrapping -/

section Inverse

variable {be kek} {n j : Nat} {a : Bytes} {rs : List Bytes} {s : Bytes × List Bytes}

theorem blocks_of_aligned (h : Aligned n s) : blocks n s.2.flatten = s.2 := by
  rw [← h.count]
  exact blocks_flatten h.blocks

/-- Rounds that keep the alignment and can each be undone are undone in reverse order. -/
theorem Aligned.foldl_reverse_foldl {f g : Nat → Bytes → List Bytes → Bytes × List Bytes}
    (hkeep : ∀ j a rs, a.length = 8 → (∀ r ∈ rs, r.length = 8) → Aligned rs.length (f j a rs))
    (hundo : ∀ j a rs, a.length = 8 → (∀ r ∈ rs, r.length = 8) →
      g j (f j a rs).1 (f j a rs).2 = (a, rs)) (hs : Aligned n s) (js : List Nat) :
    Aligned n (js.foldl (fun r j => f j r.1 r.2) s) ∧
    js.reverse.foldl (fun r j => g j r.1 r.2) (js.foldl (fun r j => f j r.1 r.2) s) = s := by
  refine @CS.foldl_reverse_foldl _ _ (Aligned n) _ _ (fun r j hr => ?_) (fun r j hr => ?_) js s hs
  · rw [← hr.count]
    exact hkeep j _ _ hr.register hr.blocks
  · exact hundo j _ _ hr.register hr.blocks

theorem length_next {block : Bytes} (h : block.length = 16) (t : Nat) :
    (block.take 8).length = (stepBytes t).length ∧
      (xorBytes (block.take 8) (stepBytes t)).length = 8 := by
  have htake : (block.take 8).length = 8 := by
    rw [List.length_take, h]
    rfl
  have hstep := htake.trans (length_stepBytes t).symm
  exact ⟨hstep, (length_xorBytes hstep).trans htake⟩

variable (hbe : be.InvertsBlocks) (hkek : kek.length = 32)
include hbe hkek

theorem length_encrypt {r : Bytes} (ha : a.length = 8) (hr : r.length = 8) :
    (be.aesEncryptBlock kek (a ++ r)).length = 16 := by
  refine hbe.length_encrypt kek _ hkek ?_
  rw [List.length_append, ha, hr]

theorem aligned_wrapRound (i : Nat) (ha : a.length = 8) (hrs : ∀ r ∈ rs, r.length = 8) :
    Aligned rs.length (wrapRound be kek n j i a rs) := by
  induction rs generalizing i a with
  | nil => exact ⟨ha, hrs, rfl⟩
  | cons r rs ih =>
    have hblock := length_encrypt hbe hkek ha (hrs r List.mem_cons_self)
    have hnext := (length_next hblock (n * j + i)).2
    have hrest := ih (i + 1) hnext fun x hx => hrs x (List.mem_cons_of_mem r hx)
    refine ⟨hrest.register, fun x hx => ?_, congrArg (· + 1) hrest.count⟩
    rcases List.mem_cons.mp hx with rfl | hx
    · rw [List.length_take, List.length_drop, hblock]
      rfl
    · exact hrest.blocks x hx

theorem unwrapRound_wrapRound (i : Nat) (ha : a.length = 8) (hrs : ∀ r ∈ rs, r.length = 8) :
    unwrapRound be kek n j i (wrapRound be kek n j i a rs).1 (wrapRound be kek n j i a rs).2 =
      (a, rs) := by
  -- Wrapping goes through the blocks forwards and unwrapping backwards, so the recursion undoes the
  -- later blocks first and hands the register that this step left behind to this step.
  induction rs generalizing i a with
  | nil => rfl
  | cons r rs ih =>
    have hr : r.length = 8 := hrs r List.mem_cons_self
    have hblock := length_encrypt hbe hkek ha hr
    obtain ⟨hstep, hnext⟩ := length_next hblock (n * j + i)
    have hrest := @ih
      (xorBytes ((be.aesEncryptBlock kek (a ++ r)).take 8) (stepBytes (n * j + i))) (i + 1) hnext
      fun x hx => hrs x (List.mem_cons_of_mem r hx)
    have hsecond : ((be.aesEncryptBlock kek (a ++ r)).drop 8).take 8 =
        (be.aesEncryptBlock kek (a ++ r)).drop 8 := by
      refine List.take_of_length_le ?_
      rw [List.length_drop, hblock]
    have hdecrypt : be.aesDecryptBlock kek (be.aesEncryptBlock kek (a ++ r)) = a ++ r := by
      refine hbe.decrypt_encrypt kek _ hkek ?_
      rw [List.length_append, ha, hr]
    simp only [wrapRound, unwrapRound, hrest, xorBytes_cancel hstep, hsecond,
      List.take_append_drop, hdecrypt, List.take_left' ha, List.drop_left' ha]
    rw [List.take_of_length_le (Nat.le_of_eq hr)]

theorem unwrap_wrap {key out : Bytes} (h : wrap be kek key = some out) :
    unwrap be kek out = some key := by
  unfold wrap at h
  split_ifs at h with hkey
  have hlen : key.length = 8 * (key.length / 8) := by omega
  have hstart : Aligned (key.length / 8) (aiv, blocks (key.length / 8) key) :=
    ⟨rfl, aligned_blocks (Nat.le_of_eq hlen.symm), length_blocks _ _⟩
  obtain ⟨hend, hundo⟩ := hstart.foldl_reverse_foldl
    (f := fun j => wrapRound be kek (key.length / 8) j 1) (fun _ _ _ => aligned_wrapRound hbe hkek 1)
    (fun _ _ _ => unwrapRound_wrapRound hbe hkek 1) [0, 1, 2, 3, 4, 5]
  simp only at h
  generalize [0, 1, 2, 3, 4, 5].foldl (fun r j => wrapRound be kek (key.length / 8) j 1 r.1 r.2)
    (aiv, blocks (key.length / 8) key) = r at h hend hundo
  cases h
  -- The wrapped key is the register and one block for each block of the key.
  have hout : (r.1 ++ r.2.flatten).length = 8 + 8 * (key.length / 8) := by
    rw [List.length_append, hend.register, length_flatten_aligned hend.blocks, hend.count]
  have hcount : (r.1 ++ r.2.flatten).length / 8 - 1 = key.length / 8 := by omega
  have hback : [5, 4, 3, 2, 1, 0].foldl
      (fun r j => unwrapRound be kek (key.length / 8) j 1 r.1 r.2) (r.1, r.2) =
        (aiv, blocks (key.length / 8) key) := hundo
  rw [unwrap, if_pos (by omega)]
  simp only [hcount, List.take_left' hend.register, List.drop_left' hend.register,
    blocks_of_aligned hend, hback, if_true, flatten_blocks hlen]

end Inverse

end VirtualHsm.KeyWrap
