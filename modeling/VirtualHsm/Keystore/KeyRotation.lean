import Mathlib.Data.FinEnum
import Mathlib.Data.Fintype.Vector
import VirtualHsm.Keystore.KeyWrap

/-!
# Wrapping a key again under another key

Rotation of the key-encryption key unwraps a wrapped key with the old one and wraps it with the
new one. That this loses nothing rests on both directions of the key wrap: unwrapping undoes
wrapping, and what unwrapping accepts is exactly what wrapping gives for the key that it returns.
-/

namespace VirtualHsm

/-! ### Blocks the other way round -/

namespace Backend.InvertsBlocks

variable {be : Backend} {kek block : Bytes} (hbe : be.InvertsBlocks) (hkek : kek.length = 32)
  (hblock : block.length = 16)
include hbe hkek hblock

theorem exists_encrypt_eq :
    ∃ plain : Bytes, plain.length = 16 ∧ be.aesEncryptBlock kek plain = block := by
  let encrypt (b : List.Vector UInt8 16) : List.Vector UInt8 16 :=
    ⟨be.aesEncryptBlock kek b.1, hbe.length_encrypt kek b.1 hkek b.2⟩
  have hinj : Function.Injective encrypt := by
    intro b b' heq
    have hdecrypt := congrArg (be.aesDecryptBlock kek) (congrArg Subtype.val heq)
    rw [hbe.decrypt_encrypt kek b.1 hkek b.2, hbe.decrypt_encrypt kek b'.1 hkek b'.2] at hdecrypt
    exact Subtype.ext hdecrypt
  obtain ⟨plain, hplain⟩ := Finite.injective_iff_surjective.mp hinj ⟨block, hblock⟩
  exact ⟨plain.1, plain.2, congrArg Subtype.val hplain⟩

theorem encrypt_decrypt : be.aesEncryptBlock kek (be.aesDecryptBlock kek block) = block := by
  obtain ⟨plain, hplain, rfl⟩ := hbe.exists_encrypt_eq hkek hblock
  rw [hbe.decrypt_encrypt kek plain hkek hplain]

theorem length_decrypt : (be.aesDecryptBlock kek block).length = 16 := by
  obtain ⟨plain, hplain, rfl⟩ := hbe.exists_encrypt_eq hkek hblock
  rw [hbe.decrypt_encrypt kek plain hkek hplain, hplain]

end Backend.InvertsBlocks

namespace KeyWrap

/-! ### Wrapping undoes unwrapping -/

section Inverse

variable {be : Backend} {kek : Bytes} {n j : Nat} {a : Bytes} {rs : List Bytes}

theorem length_unmasked {r : Bytes} (ha : a.length = 8) (hr : r.length = 8) (t : Nat) :
    (xorBytes a (stepBytes t) ++ r).length = 16 := by
  rw [List.length_append, length_xorBytes (ha.trans (length_stepBytes t).symm), ha, hr]

variable (hbe : be.InvertsBlocks) (hkek : kek.length = 32)
include hbe hkek

theorem aligned_unwrapRound (i : Nat) (ha : a.length = 8) (hrs : ∀ r ∈ rs, r.length = 8) :
    Aligned rs.length (unwrapRound be kek n j i a rs) := by
  induction rs generalizing i with
  | nil => exact ⟨ha, hrs, rfl⟩
  | cons r rs ih =>
    have hrest := ih (i + 1) fun x hx => hrs x (List.mem_cons_of_mem r hx)
    have hblock := hbe.length_decrypt hkek
      (length_unmasked hrest.register (hrs r List.mem_cons_self) (n * j + i))
    refine ⟨?_, fun x hx => ?_, congrArg (· + 1) hrest.count⟩
    · rw [unwrapRound, List.length_take, hblock]
      rfl
    · rcases List.mem_cons.mp hx with rfl | hx
      · rw [List.length_take, List.length_drop, hblock]
        rfl
      · exact hrest.blocks x hx

theorem wrapRound_unwrapRound (i : Nat) (ha : a.length = 8) (hrs : ∀ r ∈ rs, r.length = 8) :
    wrapRound be kek n j i (unwrapRound be kek n j i a rs).1 (unwrapRound be kek n j i a rs).2 =
      (a, rs) := by
  -- The step at the front was the last one of unwrapping, so it is the first to be done again, and
  -- it leaves the register that unwrapping had behind it.
  induction rs generalizing i with
  | nil => rfl
  | cons r rs ih =>
    have hr : r.length = 8 := hrs r List.mem_cons_self
    have hrs' : ∀ x ∈ rs, x.length = 8 := fun x hx => hrs x (List.mem_cons_of_mem r hx)
    have hrest := ih (i + 1) hrs'
    have haligned := aligned_unwrapRound (n := n) (j := j) hbe hkek (i + 1) ha hrs'
    generalize hun : unwrapRound be kek n j (i + 1) a rs = rest at hrest haligned
    have hmask := haligned.register.trans (length_stepBytes (n * j + i)).symm
    have hxor : (xorBytes rest.1 (stepBytes (n * j + i))).length = 8 :=
      (length_xorBytes hmask).trans haligned.register
    have hlen := length_unmasked haligned.register hr (n * j + i)
    have hblock := hbe.length_decrypt hkek hlen
    have hencrypt := hbe.encrypt_decrypt hkek hlen
    simp only [unwrapRound, hun]
    generalize be.aesDecryptBlock kek (xorBytes rest.1 (stepBytes (n * j + i)) ++ r) = block
      at hblock hencrypt ⊢
    have hsecond : (block.drop 8).take 8 = block.drop 8 := by
      refine List.take_of_length_le ?_
      rw [List.length_drop, hblock]
    simp only [wrapRound, hsecond, List.take_append_drop, hencrypt, List.take_left' hxor,
      List.drop_left' hxor, xorBytes_cancel hmask, hrest]
    rw [List.take_of_length_le (Nat.le_of_eq hr)]

/-- What unwrapping accepts is the wrapped form of the key that it returns, and that key can be
wrapped. -/
theorem wrap_unwrap {key wrapped : Bytes} (h : unwrap be kek wrapped = some key) :
    16 ≤ key.length ∧ key.length % 8 = 0 ∧ wrap be kek key = some wrapped := by
  unfold unwrap at h
  split_ifs at h with hwrapped
  have hrest : (wrapped.drop 8).length = 8 * (wrapped.length / 8 - 1) := by
    rw [List.length_drop]
    omega
  have hfirst : (wrapped.take 8).length = 8 := by
    rw [List.length_take]
    omega
  have hstart : Aligned (wrapped.length / 8 - 1)
      (wrapped.take 8, blocks (wrapped.length / 8 - 1) (wrapped.drop 8)) :=
    ⟨hfirst, aligned_blocks (Nat.le_of_eq hrest.symm), length_blocks _ _⟩
  obtain ⟨hend, hundo⟩ := hstart.foldl_reverse_foldl
    (f := fun j => unwrapRound be kek (wrapped.length / 8 - 1) j 1)
    (fun _ _ _ => aligned_unwrapRound hbe hkek 1) (fun _ _ _ => wrapRound_unwrapRound hbe hkek 1)
    [5, 4, 3, 2, 1, 0]
  simp only at h
  -- All that is needed of the rounds is that they can be undone.
  generalize [5, 4, 3, 2, 1, 0].foldl
    (fun r j => unwrapRound be kek (wrapped.length / 8 - 1) j 1 r.1 r.2)
    (wrapped.take 8, blocks (wrapped.length / 8 - 1) (wrapped.drop 8)) = r at h hend hundo
  split_ifs at h with hregister
  cases h
  have hlen : r.2.flatten.length = 8 * (wrapped.length / 8 - 1) := by
    rw [length_flatten_aligned hend.blocks, hend.count]
  have hcount : r.2.flatten.length / 8 = wrapped.length / 8 - 1 := by omega
  have hback : [0, 1, 2, 3, 4, 5].foldl
      (fun r j => wrapRound be kek (wrapped.length / 8 - 1) j 1 r.1 r.2) (r.1, r.2) =
        (wrapped.take 8, blocks (wrapped.length / 8 - 1) (wrapped.drop 8)) := hundo
  rw [hregister] at hback
  refine ⟨by omega, by omega, ?_⟩
  rw [wrap, if_pos ⟨by omega, by omega⟩]
  simp only [hcount, blocks_of_aligned hend, hback, flatten_blocks hrest, List.take_append_drop]

omit hbe hkek in
variable (be kek) in
theorem exists_wrap_eq {key : Bytes} (hlen : 16 ≤ key.length) (hmod : key.length % 8 = 0) :
    ∃ wrapped, wrap be kek key = some wrapped := by
  rw [wrap, if_pos ⟨hlen, hmod⟩]
  exact ⟨_, rfl⟩

end Inverse

end KeyWrap

/-! ### Rotation -/

/-- `key_rewrap_wrapped`: an exception of either step is passed on. -/
def keyRewrapWrapped (be : Backend) (oldKek newKek wrapped : Bytes) : Option Bytes := do
  let raw ← KeyWrap.unwrap be oldKek wrapped
  KeyWrap.wrap be newKek raw

namespace KeyWrap

variable {be : Backend} {kek : Bytes}

/-- Wrapping again under a new key goes through for what the old key unwraps, and the new key
unwraps the result to the same key. -/
theorem exists_rewrap (hbe : be.InvertsBlocks) (hkek : kek.length = 32) {newKek : Bytes}
    (hnew : newKek.length = 32) {key wrapped : Bytes} (h : unwrap be kek wrapped = some key) :
    ∃ again, keyRewrapWrapped be kek newKek wrapped = some again ∧
      unwrap be newKek again = some key := by
  obtain ⟨hlen, hmod, -⟩ := wrap_unwrap hbe hkek h
  obtain ⟨again, hagain⟩ := exists_wrap_eq be newKek hlen hmod
  refine ⟨again, ?_, unwrap_wrap hbe hnew hagain⟩
  rw [keyRewrapWrapped, h]
  exact hagain

/-- Under a key-encryption key of 32 bytes every key of whole blocks is wrapped, and its wrapped
form is the only one that unwraps to it; what unwrapping accepts is the wrapped form of what it
returns; and wrapping again under a new key accepts what the old key unwraps and keeps the key. -/
theorem wrap_bijective (hbe : be.InvertsBlocks) (hkek : kek.length = 32) :
    (∀ key : Bytes, 16 ≤ key.length → key.length % 8 = 0 →
      (∃ wrapped, wrap be kek key = some wrapped ∧ unwrap be kek wrapped = some key) ∧
        ∃! wrapped, unwrap be kek wrapped = some key) ∧
    (∀ wrapped key, unwrap be kek wrapped = some key → wrap be kek key = some wrapped) ∧
    ∀ newKek : Bytes, newKek.length = 32 → ∀ wrapped,
      ((∃ again, keyRewrapWrapped be kek newKek wrapped = some again) ↔
        ∃ key, unwrap be kek wrapped = some key) ∧
      ∀ key again, unwrap be kek wrapped = some key →
        keyRewrapWrapped be kek newKek wrapped = some again →
          unwrap be newKek again = some key := by
  refine ⟨fun key hlen hmod => ?_, fun wrapped key h => (wrap_unwrap hbe hkek h).2.2,
    fun newKek hnew wrapped => ⟨⟨?_, ?_⟩, ?_⟩⟩
  · -- Anything else that unwraps to the key is wrapped again to the same bytes.
    obtain ⟨wrapped, hwrapped⟩ := exists_wrap_eq be kek hlen hmod
    have hback := unwrap_wrap hbe hkek hwrapped
    refine ⟨⟨wrapped, hwrapped, hback⟩, wrapped, hback, fun other hother => ?_⟩
    have hsame := (wrap_unwrap hbe hkek hother).2.2
    rw [hwrapped] at hsame
    exact (Option.some.inj hsame).symm
  · rintro ⟨again, hagain⟩
    cases hkey : unwrap be kek wrapped with
    | none =>
      rw [keyRewrapWrapped, hkey] at hagain
      cases hagain
    | some key => exact ⟨key, rfl⟩
  · rintro ⟨key, hkey⟩
    obtain ⟨again, hagain, -⟩ := exists_rewrap hbe hkek hnew hkey
    exact ⟨again, hagain⟩
  · intro key again hkey hagain
    obtain ⟨again', hagain', hunwrap⟩ := exists_rewrap hbe hkek hnew hkey
    rw [hagain] at hagain'
    exact Option.some.inj hagain' ▸ hunwrap

/-- A cipher that turns blocks around. -/
def reversing : Backend :=
  { Backend.toy with
    aesEncryptBlock := fun _ block => block.reverse
    aesDecryptBlock := fun _ block => block.reverse }

theorem invertsBlocks_reversing : reversing.InvertsBlocks where
  length_encrypt _ block _ h := by
    change block.reverse.length = 16
    rw [List.length_reverse, h]
  decrypt_encrypt _ block _ _ := List.reverse_reverse block

/-- A key of sixteen bytes under the cipher that turns blocks around. -/
theorem wrap_bijective_reversing :
    reversing.InvertsBlocks ∧
      ∃! wrapped, unwrap reversing (List.replicate 32 1) wrapped = some (List.replicate 16 7) :=
  ⟨invertsBlocks_reversing,
    ((wrap_bijective invertsBlocks_reversing List.length_replicate).1 (List.replicate 16 7)
      (by decide) (by decide)).2⟩

end KeyWrap

end VirtualHsm
