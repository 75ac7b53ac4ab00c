import VirtualHsm.CS.Buffer
import VirtualHsm.Persistence.TokenSerializer

/-!
# Reading a token snapshot

`deserialize_token_snapshot` reads the vector at offsets of its own. The offsets are of type
`size_t`, and the lengths that move them come from the vector, one of them 64 bits wide. Sums and
differences are taken modulo `2 ^ 64`, so a check on a difference that wrapped around would pass, and
the read after it would leave the vector.

Here a read outside of the vector is an outcome of its own, and it does not occur.
-/

namespace VirtualHsm

namespace TokenReader

open CS

variable (data : Bytes) (off : UInt64)

/-- `data.size()`. -/
def size : UInt64 := .ofNat data.length

def getLe32 : Except (Stop String) UInt32 := do
  return VirtualHsm.getLe32 (← readMany data off.toNat 4)

def getLe64 : Except (Stop String) UInt64 := do
  return VirtualHsm.getLe64 (← readMany data off.toNat 8)

/-- `assign`: the elements between two offsets. -/
def assign (last : UInt64) : Except (Stop String) Bytes :=
  if off ≤ last then readMany data off.toNat (last.toNat - off.toNat) else .error .outOfRange

/-- The string at the offset, and the offset behind it. -/
def readString : Except (Stop String) (Bytes × UInt64) := do
  check (off < size data) "deserialize_token_snapshot: truncated string length"
  let len ← readAt data off.toNat
  let off := off + 1
  check (len.toUInt64 ≤ size data - off) "deserialize_token_snapshot: truncated string"
  let s ← readMany data off.toNat len.toNat
  return (s, off + len.toUInt64)

/-- The fields behind the strings. -/
def readFields (label id : Bytes) : Except (Stop String) TokenSnapshot := do
  check (8 + 8 + 8 + 8 + 1 + 4 + 4 + 4 + 8 ≤ size data - off)
    "deserialize_token_snapshot: truncated numeric fields"
  let maxSessionCount ← getLe64 data off
  let off := off + 8
  let sessionCount ← getLe64 data off
  let off := off + 8
  let maxRwSessionCount ← getLe64 data off
  let off := off + 8
  let rwSessionCount ← getLe64 data off
  let off := off + 8
  let flags ← readAt data off.toNat
  let off := off + 1
  let maxFailedAttempts ← getLe32 data off
  let off := off + 4
  let userFailedAttempts ← getLe32 data off
  let off := off + 4
  let soFailedAttempts ← getLe32 data off
  let off := off + 4
  let kekLen ← getLe64 data off
  let off := off + 8
  check (kekLen ≤ size data - off) "deserialize_token_snapshot: truncated KEK"
  let kek ← assign data off (off + kekLen)
  return {
    label, id, maxSessionCount, sessionCount, maxRwSessionCount, rwSessionCount
    tokenInitialized := testFlag flags 0
    userPinSet := testFlag flags 1
    soPinSet := testFlag flags 2
    userLoginRequired := testFlag flags 3
    soLoginRequired := testFlag flags 4
    userPinLocked := testFlag flags 5
    soPinLocked := testFlag flags 6
    maxFailedAttempts, userFailedAttempts, soFailedAttempts, kek }

def deserializeTokenSnapshot : Except (Stop String) TokenSnapshot := do
  check (8 + 2 ≤ size data) "deserialize_token_snapshot: data too short"
  let magic ← getLe32 data 0
  check (magic = kMagic) "deserialize_token_snapshot: bad magic"
  let version ← getLe32 data 4
  check (version = kVersion) "deserialize_token_snapshot: unsupported version"
  let (label, off) ← readString data 8
  let (id, off) ← readString data off
  readFields data off label id

variable {data off}

/-! ### Offsets -/

section Offsets

variable (hsize : data.length < 2 ^ 64)
include hsize

theorem toNat_size : (size data).toNat = data.length := UInt64.toNat_ofNat_of_lt' hsize

theorem toNat_size_sub (hoff : off.toNat ≤ data.length) :
    (size data - off).toNat = data.length - off.toNat := by
  rw [UInt64.toNat_sub_of_le, toNat_size hsize]
  rw [UInt64.le_iff_toNat_le, toNat_size hsize]
  exact hoff

/-- So a check on it compares with what is left. -/
theorem le_size_sub_iff {k : UInt64} (hoff : off.toNat ≤ data.length) :
    k ≤ size data - off ↔ ¬ (data.drop off.toNat).length < k.toNat := by
  rw [UInt64.le_iff_toNat_le, toNat_size_sub hsize hoff, List.length_drop, Nat.not_lt]

theorem toNat_add {m : UInt64} {n k sum : Nat} (hoff : off.toNat = n) (hm : m.toNat = k)
    (hsum : n + k = sum) (h : sum ≤ data.length) : (off + m).toNat = sum := by
  rw [UInt64.toNat_add, hoff, hm, hsum, Nat.mod_eq_of_lt (by omega)]

end Offsets

/-! ### The readers -/

variable {n : Nat}

theorem getLe32_of_le (hoff : off.toNat = n) (h : n + 4 ≤ data.length) :
    getLe32 data off = .ok (VirtualHsm.getLe32 (data.drop n)) := by
  rw [getLe32, hoff, readMany_of_le h]
  rw [ok_bind, VirtualHsm.getLe32, List.take_take, Nat.min_self]
  rfl

theorem getLe64_of_le (hoff : off.toNat = n) (h : n + 8 ≤ data.length) :
    getLe64 data off = .ok (VirtualHsm.getLe64 (data.drop n)) := by
  rw [getLe64, hoff, readMany_of_le h]
  rw [ok_bind, VirtualHsm.getLe64, List.take_take, Nat.min_self]
  rfl

theorem assign_of_le (hsize : data.length < 2 ^ 64) {k : UInt64} (hoff : off.toNat = n)
    (h : n + k.toNat ≤ data.length) :
    assign data off (off + k) = .ok ((data.drop n).take k.toNat) := by
  have hlast : (off + k).toNat = n + k.toNat := toNat_add hsize hoff rfl rfl h
  have hle : off ≤ off + k := by
    rw [UInt64.le_iff_toNat_le, hlast, hoff]
    exact Nat.le_add_right _ _
  rw [assign, if_pos hle, hlast, hoff, Nat.add_sub_cancel_left, readMany_of_le h]

section Readers

variable (hsize : data.length < 2 ^ 64) (hoff : off.toNat ≤ data.length)
include hsize hoff

/-- The reader throws what the reader on lists throws, and leaves what that leaves. -/
theorem readString_cases :
    (∃ e, VirtualHsm.readString (data.drop off.toNat) = .error e ∧
      readString data off = .error (.thrown e)) ∨
    ∃ s off', VirtualHsm.readString (data.drop off.toNat) = .ok (s, data.drop off'.toNat) ∧
      readString data off = .ok (s, off') ∧ off'.toNat ≤ data.length := by
  rw [readString]
  by_cases hlt : off < size data
  · rw [check_of_pos hlt, ok_bind]
    rw [UInt64.lt_iff_toNat_lt, toNat_size hsize] at hlt
    have hdrop : data.drop off.toNat = data[off.toNat] :: data.drop (off.toNat + 1) :=
      List.drop_eq_getElem_cons hlt
    generalize data[off.toNat] = len at hdrop
    have hnext : (off + 1).toNat = off.toNat + 1 := toNat_add hsize rfl rfl rfl hlt
    rw [readAt_of_drop hdrop, ok_bind, hdrop, VirtualHsm.readString, List.length_drop]
    dsimp only
    -- Both readers compare the length octet with what is left behind it.
    have hcheck : len.toUInt64 ≤ size data - (off + 1) ↔
        ¬ data.length - (off.toNat + 1) < len.toNat := by
      rw [le_size_sub_iff hsize (by omega), UInt8.toNat_toUInt64, hnext, List.length_drop]
    by_cases hlen : data.length - (off.toNat + 1) < len.toNat
    · left
      rw [if_pos hlen, check_of_neg (mt hcheck.mp (not_not.mpr hlen))]
      exact ⟨_, rfl, rfl⟩
    · right
      rw [if_neg hlen, check_of_pos (hcheck.mpr hlen), ok_bind, hnext,
        readMany_of_le (by omega), ok_bind]
      have hlast : (off + 1 + len.toUInt64).toNat = off.toNat + 1 + len.toNat :=
        toNat_add hsize hnext (UInt8.toNat_toUInt64 len) rfl (by omega)
      refine ⟨_, off + 1 + len.toUInt64, ?_, rfl, by omega⟩
      rw [hlast, List.drop_drop]
  · left
    rw [check_of_neg hlt]
    rw [UInt64.lt_iff_toNat_lt, toNat_size hsize] at hlt
    have hdrop : data.drop off.toNat = [] := List.drop_eq_nil_of_le (by omega)
    rw [hdrop]
    exact ⟨_, rfl, rfl⟩

theorem readFields_eq (label id : Bytes) :
    readFields data off label id =
      (VirtualHsm.readFields label id (data.drop off.toNat)).mapError .thrown := by
  have hcheck : 8 + 8 + 8 + 8 + 1 + 4 + 4 + 4 + 8 ≤ size data - off ↔
      ¬ (data.drop off.toNat).length < 8 + 8 + 8 + 8 + 1 + 4 + 4 + 4 + 8 :=
    le_size_sub_iff hsize hoff
  rw [readFields, VirtualHsm.readFields]
  by_cases hshort : (data.drop off.toNat).length < 8 + 8 + 8 + 8 + 1 + 4 + 4 + 4 + 8
  · rw [if_pos hshort, check_of_neg (mt hcheck.mp (not_not.mpr hshort))]
    rfl
  rw [if_neg hshort, check_of_pos (hcheck.mpr hshort), ok_bind]
  rw [List.length_drop] at hshort
  clear hcheck
  generalize hn : off.toNat = n at hoff hshort
  have hin (k : Nat) (hk : k ≤ 53) : n + k ≤ data.length := by omega
  -- The offsets of the fields, as numbers.
  have h1 : (off + 8).toNat = n + 8 := toNat_add hsize hn rfl rfl (hin 8 (by decide))
  have h2 : (off + 8 + 8).toNat = n + 16 := toNat_add hsize h1 rfl rfl (hin 16 (by decide))
  have h3 : (off + 8 + 8 + 8).toNat = n + 24 := toNat_add hsize h2 rfl rfl (hin 24 (by decide))
  have h4 : (off + 8 + 8 + 8 + 8).toNat = n + 32 := toNat_add hsize h3 rfl rfl (hin 32 (by decide))
  have h5 : (off + 8 + 8 + 8 + 8 + 1).toNat = n + 33 :=
    toNat_add hsize h4 rfl rfl (hin 33 (by decide))
  have h6 : (off + 8 + 8 + 8 + 8 + 1 + 4).toNat = n + 37 :=
    toNat_add hsize h5 rfl rfl (hin 37 (by decide))
  have h7 : (off + 8 + 8 + 8 + 8 + 1 + 4 + 4).toNat = n + 41 :=
    toNat_add hsize h6 rfl rfl (hin 41 (by decide))
  have h8 : (off + 8 + 8 + 8 + 8 + 1 + 4 + 4 + 4).toNat = n + 45 :=
    toNat_add hsize h7 rfl rfl (hin 45 (by decide))
  have h9 : (off + 8 + 8 + 8 + 8 + 1 + 4 + 4 + 4 + 8).toNat = n + 53 :=
    toNat_add hsize h8 rfl rfl (hin 53 (by decide))
  obtain ⟨flags, rest, hflags⟩ : ∃ flags rest, data.drop (n + 32) = flags :: rest := by
    refine List.exists_cons_of_length_pos ?_
    rw [List.length_drop]
    exact Nat.sub_pos_of_lt (hin 33 (by decide))
  dsimp only
  simp only [List.drop_drop, Nat.add_assoc, Nat.reduceAdd]
  rw [getLe64_of_le hn (hin 8 (by decide)), ok_bind,
    getLe64_of_le h1 (hin 16 (by decide)), ok_bind,
    getLe64_of_le h2 (hin 24 (by decide)), ok_bind,
    getLe64_of_le h3 (hin 32 (by decide)), ok_bind,
    h4, readAt_of_drop hflags, ok_bind,
    getLe32_of_le h5 (hin 37 (by decide)), ok_bind,
    getLe32_of_le h6 (hin 41 (by decide)), ok_bind,
    getLe32_of_le h7 (hin 45 (by decide)), ok_bind,
    getLe64_of_le h8 (hin 53 (by decide)), ok_bind, hflags, List.headD_cons]
  generalize off + 8 + 8 + 8 + 8 + 1 + 4 + 4 + 4 + 8 = off₉ at h9
  clear h1 h2 h3 h4 h5 h6 h7 h8
  -- The length of the key is checked against what is left.
  generalize VirtualHsm.getLe64 (data.drop (n + 45)) = kekLen
  have hkek : kekLen ≤ size data - off₉ ↔ ¬ (data.drop (n + 53)).length < kekLen.toNat := by
    rw [le_size_sub_iff hsize (h9.trans_le (hin 53 (by decide))), h9]
  by_cases hlong : (data.drop (n + 53)).length < kekLen.toNat
  · rw [if_pos hlong, check_of_neg (mt hkek.mp (not_not.mpr hlong))]
    rfl
  · rw [if_neg hlong, check_of_pos (hkek.mpr hlong), ok_bind]
    have hroom : n + 53 + kekLen.toNat ≤ data.length := by
      rw [List.length_drop, Nat.not_lt] at hlong
      have := hin 53 (by decide)
      omega
    rw [assign_of_le hsize h9 hroom]
    rfl

end Readers

theorem deserializeTokenSnapshot_eq (hsize : data.length < 2 ^ 64) :
    deserializeTokenSnapshot data =
      (VirtualHsm.deserializeTokenSnapshot data).mapError .thrown := by
  have hcheck : 8 + 2 ≤ size data ↔ ¬ data.length < 8 + 2 := by
    rw [UInt64.le_iff_toNat_le, toNat_size hsize, Nat.not_lt]
    rfl
  rw [deserializeTokenSnapshot, VirtualHsm.deserializeTokenSnapshot]
  by_cases hshort : data.length < 8 + 2
  · rw [if_pos hshort, check_of_neg (mt hcheck.mp (not_not.mpr hshort))]
    rfl
  have hin (k : Nat) (hk : k ≤ 8 + 2) : k ≤ data.length := by omega
  rw [if_neg hshort, check_of_pos (hcheck.mpr hshort), ok_bind,
    @getLe32_of_le data 0 0 rfl (hin 4 (by decide)), ok_bind, List.drop_zero]
  by_cases hmagic : VirtualHsm.getLe32 data = kMagic
  swap
  · rw [if_pos hmagic, check_of_neg hmagic]
    rfl
  rw [if_neg (not_not.mpr hmagic), check_of_pos hmagic, ok_bind,
    @getLe32_of_le data 4 4 rfl (hin 8 (by decide)), ok_bind]
  by_cases hversion : VirtualHsm.getLe32 (data.drop 4) = kVersion
  swap
  · rw [if_pos hversion, check_of_neg hversion]
    rfl
  rw [if_neg (not_not.mpr hversion), check_of_pos hversion, ok_bind, List.drop_drop]
  -- Each of the two strings is cut short, or moves the offset to what is left behind it.
  obtain ⟨e, hlist, hread⟩ | ⟨label, off₁, hlist, hread, hoff₁⟩ :=
    @readString_cases data 8 hsize (hin 8 (by decide))
  · rw [hread, show 4 + 4 = (8 : UInt64).toNat from rfl, hlist]
    rfl
  rw [hread, ok_bind, show 4 + 4 = (8 : UInt64).toNat from rfl, hlist]
  obtain ⟨e, hlist', hread'⟩ | ⟨id, off₂, hlist', hread', hoff₂⟩ := readString_cases hsize hoff₁
  · simp only [hread', hlist', bind, Except.bind]
    rfl
  · simp only [hread', hlist', bind, Except.bind]
    exact readFields_eq hsize hoff₂ label id

/-- Decoding gives an encoded snapshot back, rejects it when it is cut short, and returns or throws on
whatever it is given, without a read outside of the vector. -/
theorem tokenSnapshot_codec :
    (∀ snap : TokenSnapshot, snap.label.length ≤ 255 → snap.id.length ≤ 255 →
      ∃ data, serializeTokenSnapshot snap = .ok data ∧ (data.length < 2 ^ 64 →
        deserializeTokenSnapshot data = .ok snap ∧
        ∀ n < data.length, ∃ e, deserializeTokenSnapshot (data.take n) = .error (.thrown e))) ∧
    ∀ data : Bytes, data.length < 2 ^ 64 →
      (∃ snap, deserializeTokenSnapshot data = .ok snap) ∨
        ∃ e, deserializeTokenSnapshot data = .error (.thrown e) := by
  constructor
  · intro snap hlabel hid
    obtain ⟨data, hdata⟩ := exists_serialize_eq_ok snap hlabel hid
    refine ⟨data, hdata, fun hsize => ?_⟩
    have hkek : snap.kek.length < 2 ^ 64 := by
      obtain ⟨-, -, rfl⟩ := serialize_eq_ok_iff.mp hdata
      rw [length_image] at hsize
      omega
    constructor
    · rw [deserializeTokenSnapshot_eq hsize, deserializeTokenSnapshot_serialize hkek hdata]
      rfl
    · intro n hn
      obtain ⟨e, he⟩ := exists_deserialize_take_eq_error hkek hdata hn
      refine ⟨e, ?_⟩
      rw [deserializeTokenSnapshot_eq (lt_of_le_of_lt (List.length_take_le' n data) hsize), he]
      rfl
  · intro data hsize
    rw [deserializeTokenSnapshot_eq hsize]
    cases VirtualHsm.deserializeTokenSnapshot data with
    | ok snap => exact .inl ⟨snap, rfl⟩
    | error e => exact .inr ⟨e, rfl⟩

end TokenReader

end VirtualHsm
