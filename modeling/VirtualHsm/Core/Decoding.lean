import Mathlib.Tactic.SplitIfs
import VirtualHsm.Core.Utils

/-!
# Reading base64 and hexadecimal texts back

The decoders take any bytes. A base64 text is read in groups of four characters through a table of
256 entries, with padding in the last group only; a hexadecimal text is read in pairs of digits of
either case.
-/

namespace VirtualHsm

/-! ### The decoders -/

/-- `make_b64_decode_table`: 0xFF for an invalid character, 0xFE for the padding. -/
def b64DecodeTable : List UInt8 :=
  ((List.range 64).foldl (fun t i => t.set (base64Char i).toNat i.toUInt8)
    (List.replicate 256 0xFF)).set '='.toNat 0xFE

/-- The entry of a character. -/
def b64Value (c : UInt8) : UInt8 := b64DecodeTable.getD c.toNat 0xFF

/-- The bytes of four characters, from their entries in the table. -/
def base64Group (c0 c1 c2 c3 : UInt8) (last : Bool) : Option Bytes :=
  if c0 ≥ 0xFE ∨ c1 ≥ 0xFE then none
  else if c2 = 0xFF ∨ c3 = 0xFF then none
  else if c2 = 0xFE ∧ ¬ c3 = 0xFE then none -- xx=x
  else if (c2 = 0xFE ∨ c3 = 0xFE) ∧ ¬ last then none -- padding before the last group
  else
    some ((c0 <<< 2 ||| c1 >>> 4) ::
      ((if ¬ c2 = 0xFE then [c1 <<< 4 ||| c2 >>> 2] else []) ++
        if ¬ c2 = 0xFE ∧ ¬ c3 = 0xFE then [c2 <<< 6 ||| c3] else []))

/-- The loop of `base64_decode`, on the characters it has not read yet. -/
def base64Groups : Bytes → Option Bytes
  | s0 :: s1 :: s2 :: s3 :: rest => do
    let bytes ← base64Group (b64Value s0) (b64Value s1) (b64Value s2) (b64Value s3) rest.isEmpty
    let out ← base64Groups rest
    return bytes ++ out
  | _ => some []

def base64Decode (s : Bytes) : Option Bytes :=
  if s.length % 4 ≠ 0 then none else base64Groups s

/-- `hex_val`; characters from 128 up are negative in C++ and below every digit, here above. -/
def hexVal (c : UInt8) : UInt8 :=
  if '0'.toUInt8 ≤ c ∧ c ≤ '9'.toUInt8 then c - '0'.toUInt8
  else if 'a'.toUInt8 ≤ c ∧ c ≤ 'f'.toUInt8 then c - 'a'.toUInt8 + 10
  else if 'A'.toUInt8 ≤ c ∧ c ≤ 'F'.toUInt8 then c - 'A'.toUInt8 + 10
  else 0xFF

/-- The loop of `hex_decode`. -/
def hexPairs : Bytes → Option Bytes
  | s0 :: s1 :: rest =>
    if hexVal s0 = 0xFF ∨ hexVal s1 = 0xFF then none
    else (hexPairs rest).map ((hexVal s0 <<< 4 ||| hexVal s1) :: ·)
  | _ => some []

def hexDecode (s : Bytes) : Option Bytes :=
  if s.length % 2 ≠ 0 then none else hexPairs s

/-! ### Characters -/

/-- A character of the standard base64 alphabet. -/
def IsBase64 (c : UInt8) : Prop :=
  ('A'.toUInt8 ≤ c ∧ c ≤ 'Z'.toUInt8) ∨ ('a'.toUInt8 ≤ c ∧ c ≤ 'z'.toUInt8) ∨
    ('0'.toUInt8 ≤ c ∧ c ≤ '9'.toUInt8) ∨ c = '+'.toUInt8 ∨ c = '/'.toUInt8

/-- A hexadecimal digit of either case. -/
def IsHexDigit (c : UInt8) : Prop :=
  ('0'.toUInt8 ≤ c ∧ c ≤ '9'.toUInt8) ∨ ('a'.toUInt8 ≤ c ∧ c ≤ 'f'.toUInt8) ∨
    ('A'.toUInt8 ≤ c ∧ c ≤ 'F'.toUInt8)

instance (c : UInt8) : Decidable (IsBase64 c) := inferInstanceAs (Decidable (_ ∨ _))

instance (c : UInt8) : Decidable (IsHexDigit c) := inferInstanceAs (Decidable (_ ∨ _))

theorem forall_byte {p : UInt8 → Prop} (h : ∀ n < 256, p n.toUInt8) (c : UInt8) : p c := by
  have hc := h c.toNat c.toNat_lt
  rwa [Nat.toUInt8_eq, UInt8.ofNat_toNat] at hc

/-- What the table says of a character: a number below 64 for the alphabet, a mark for the padding
and another for the rest. -/
def IsEntry (c v : UInt8) : Prop :=
  (IsBase64 c ∧ c ≠ '='.toUInt8 ∧ v < 64) ∨ (¬ IsBase64 c ∧ c = '='.toUInt8 ∧ v = 0xFE) ∨
    (¬ IsBase64 c ∧ c ≠ '='.toUInt8 ∧ v = 0xFF)

instance (c v : UInt8) : Decidable (IsEntry c v) := inferInstanceAs (Decidable (_ ∨ _))

theorem length_b64DecodeTable : b64DecodeTable.length = 256 := by
  rw [b64DecodeTable, List.length_set]
  have hfold (is : List Nat) (t : List UInt8) :
      (is.foldl (fun t i => t.set (base64Char i).toNat i.toUInt8) t).length = t.length := by
    induction is generalizing t with
    | nil => rfl
    | cons i is ih => rw [List.foldl_cons, ih, List.length_set]
  rw [hfold, List.length_replicate]

theorem isEntry_b64Value (c : UInt8) : IsEntry c (b64Value c) := by
  -- The table is gone through once, not once for each character.
  have hall : (b64DecodeTable.zipIdx.all fun e => decide (IsEntry e.2.toUInt8 e.1)) = true := by
    decide +kernel
  have hlt : c.toNat < b64DecodeTable.length := length_b64DecodeTable ▸ c.toNat_lt
  have hmem : (b64Value c, c.toNat) ∈ b64DecodeTable.zipIdx := by
    rw [List.mem_zipIdx_iff_getElem?, b64Value, List.getD_eq_getElem?_getD,
      List.getElem?_eq_getElem hlt, Option.getD_some]
  have hc := List.all_eq_true.mp hall _ hmem
  simp only [decide_eq_true_eq, Nat.toUInt8_eq, UInt8.ofNat_toNat] at hc
  exact hc

variable {c : UInt8} (d : Bytes) {n : Nat}

theorem b64Value_base64Char (hn : n < 64) : b64Value (base64Char n).toUInt8 = n.toUInt8 := by
  have hall : ∀ n < 64, b64Value (base64Char n).toUInt8 = n.toUInt8 := by decide +kernel
  exact hall n hn

theorem toNat_b64Value_base64Char (hn : n < 64) : (b64Value (base64Char n).toUInt8).toNat = n := by
  rw [b64Value_base64Char hn]
  exact Nat.mod_eq_of_lt (Nat.lt_trans hn (by decide))

theorem hexVal_cases (c : UInt8) :
    (IsHexDigit c ∧ hexVal c < 16) ∨ (¬ IsHexDigit c ∧ hexVal c = 0xFF) := by
  revert c
  exact forall_byte (by decide +kernel)

theorem hexVal_hexDigit (hn : n < 16) : hexVal (hexDigit n).toUInt8 = n.toUInt8 := by
  have hall : ∀ n < 16, hexVal (hexDigit n).toUInt8 = n.toUInt8 := by decide
  exact hall n hn

theorem IsBase64.ne_padding (h : IsBase64 c) : c ≠ '='.toUInt8 := by
  rcases isEntry_b64Value c with ⟨-, hne, -⟩ | ⟨hnot, -⟩ | ⟨-, hne, -⟩
  · exact hne
  · exact absurd h hnot
  · exact hne

theorem b64Value_ge_iff : b64Value c ≥ 0xFE ↔ ¬ IsBase64 c := by
  rcases isEntry_b64Value c with ⟨h, -, hlt⟩ | ⟨hnot, -, heq⟩ | ⟨hnot, -, heq⟩
  · refine iff_of_false (fun hge => ?_) (not_not_intro h)
    exact absurd (UInt8.lt_of_le_of_lt hge hlt) (by decide)
  · exact iff_of_true (by rw [heq]; decide) hnot
  · exact iff_of_true (by rw [heq]; decide) hnot

theorem b64Value_eq_padding_iff : b64Value c = 0xFE ↔ c = '='.toUInt8 := by
  rcases isEntry_b64Value c with ⟨-, hne, hlt⟩ | ⟨-, hpad, heq⟩ | ⟨-, hne, heq⟩
  · exact iff_of_false (fun heq => absurd hlt (heq ▸ by decide)) hne
  · exact iff_of_true heq hpad
  · exact iff_of_false (heq ▸ by decide) hne

theorem b64Value_eq_invalid_iff : b64Value c = 0xFF ↔ ¬ IsBase64 c ∧ c ≠ '='.toUInt8 := by
  rcases isEntry_b64Value c with ⟨h, -, hlt⟩ | ⟨-, hpad, heq⟩ | ⟨hnot, hne, heq⟩
  · exact iff_of_false (fun heq => absurd hlt (heq ▸ by decide)) (fun hnot => hnot.1 h)
  · exact iff_of_false (heq ▸ by decide) (fun hne => hne.2 hpad)
  · exact iff_of_true heq ⟨hnot, hne⟩

/-! ### Bits -/

theorem shiftLeft_or_eq {a b c : UInt8} {k : Nat} (hk : k < 8) (hb : b.toNat < 2 ^ k)
    (hc : a.toNat * 2 ^ k % 256 + b.toNat = c.toNat) : a <<< k.toUInt8 ||| b = c := by
  have hpow : (2 : Nat) ^ 8 = 2 ^ (8 - k) * 2 ^ k := by
    rw [← Nat.pow_add, Nat.sub_add_cancel (Nat.le_of_lt hk)]
  have hshift : k.toUInt8.toNat % 8 = k := by
    rw [Nat.toUInt8_eq, UInt8.toNat_ofNat_of_lt' (Nat.lt_trans hk (by decide)), Nat.mod_eq_of_lt hk]
  -- What is left of the shifted bits is a multiple of the power.
  have hmod : a.toNat * 2 ^ k % 2 ^ 8 = (a.toNat % 2 ^ (8 - k)) <<< k := by
    rw [hpow, Nat.mul_mod_mul_right, Nat.shiftLeft_eq]
  rw [← UInt8.toNat_inj, ← hc, UInt8.toNat_or, UInt8.toNat_shiftLeft, hshift, Nat.shiftLeft_eq,
    hmod, ← Nat.shiftLeft_add_eq_or_of_lt hb]
  exact congrArg (· + b.toNat) hmod.symm

/-! ### Groups of four characters -/

/-- Four characters that are accepted, in the last group or before it. -/
def GroupOk (s0 s1 s2 s3 : UInt8) (last : Bool) : Prop :=
  IsBase64 s0 ∧ IsBase64 s1 ∧ ((IsBase64 s2 ∧ IsBase64 s3) ∨
    (last ∧ (IsBase64 s2 ∨ s2 = '='.toUInt8) ∧ s3 = '='.toUInt8))

instance (s0 s1 s2 s3 : UInt8) (last : Bool) : Decidable (GroupOk s0 s1 s2 s3 last) :=
  inferInstanceAs (Decidable (_ ∧ _))

/-- The bytes that four accepted characters stand for. -/
def groupBytes (s0 s1 s2 s3 : UInt8) : Bytes :=
  (b64Value s0 <<< 2 ||| b64Value s1 >>> 4) ::
    ((if ¬ s2 = '='.toUInt8 then [b64Value s1 <<< 4 ||| b64Value s2 >>> 2] else []) ++
      if ¬ s2 = '='.toUInt8 ∧ ¬ s3 = '='.toUInt8 then [b64Value s2 <<< 6 ||| b64Value s3] else [])

theorem base64Group_eq (s0 s1 s2 s3 : UInt8) (last : Bool) :
    base64Group (b64Value s0) (b64Value s1) (b64Value s2) (b64Value s3) last =
      if GroupOk s0 s1 s2 s3 last then some (groupBytes s0 s1 s2 s3) else none := by
  have h2 := IsBase64.ne_padding (c := s2)
  have h3 := IsBase64.ne_padding (c := s3)
  simp only [base64Group, b64Value_ge_iff, b64Value_eq_invalid_iff, b64Value_eq_padding_iff,
    GroupOk, groupBytes]
  grind

theorem GroupOk.length_groupBytes {s0 s1 s2 s3 : UInt8} {last : Bool}
    (h : GroupOk s0 s1 s2 s3 last) :
    (groupBytes s0 s1 s2 s3).length + [s0, s1, s2, s3].count '='.toUInt8 = 3 := by
  obtain ⟨h0, h1, ⟨h2, h3⟩ | ⟨-, h2 | h2, h3⟩⟩ := h
  · simp [groupBytes, h0.ne_padding, h1.ne_padding, h2.ne_padding, h3.ne_padding]
  · simp [groupBytes, h0.ne_padding, h1.ne_padding, h2.ne_padding, h3]
  · simp [groupBytes, h0.ne_padding, h1.ne_padding, h2, h3]

theorem base64Groups_cons (s0 s1 s2 s3 : UInt8) (rest : Bytes) :
    base64Groups (s0 :: s1 :: s2 :: s3 :: rest) =
      if GroupOk s0 s1 s2 s3 rest.isEmpty then
        (base64Groups rest).map (groupBytes s0 s1 s2 s3 ++ ·)
      else none := by
  rw [base64Groups, base64Group_eq]
  split_ifs
  · cases base64Groups rest <;> rfl
  · rfl

/-- Characters of the alphabet and then at most two of the padding. -/
def Padded (s : Bytes) : Prop :=
  ∃ body pads, s = body ++ List.replicate pads '='.toUInt8 ∧ pads ≤ 2 ∧ ∀ c ∈ body, IsBase64 c

theorem padded_cons_iff {s : Bytes} (hs : 2 ≤ s.length) :
    Padded (c :: s) ↔ IsBase64 c ∧ Padded s := by
  constructor
  · rintro ⟨body, pads, heq, hpads, hbody⟩
    cases body with
    | nil =>
      have hlen := congrArg List.length heq
      simp only [List.length_cons, List.nil_append, List.length_replicate] at hlen
      omega
    | cons b body =>
      obtain ⟨rfl, rfl⟩ := List.cons.inj heq
      exact ⟨hbody c List.mem_cons_self, body, pads, rfl, hpads,
        fun x hx => hbody x (List.mem_cons_of_mem c hx)⟩
  · rintro ⟨hc, body, pads, rfl, hpads, hbody⟩
    exact ⟨c :: body, pads, rfl, hpads, List.forall_mem_cons.mpr ⟨hc, hbody⟩⟩

theorem padded_pair_iff {s2 s3 : UInt8} :
    Padded [s2, s3] ↔ (IsBase64 s2 ∧ IsBase64 s3) ∨
      (IsBase64 s2 ∨ s2 = '='.toUInt8) ∧ s3 = '='.toUInt8 := by
  constructor
  · rintro ⟨body, pads, heq, hpads, hbody⟩
    match body, pads, hpads with
    | [], 2, _ =>
      simp only [List.nil_append, List.replicate, List.cons.injEq, and_true] at heq
      exact .inr ⟨.inr heq.1, heq.2⟩
    | [b], 1, _ =>
      simp only [List.cons_append, List.nil_append, List.replicate, List.cons.injEq,
        and_true] at heq
      exact .inr ⟨.inl (heq.1 ▸ hbody b List.mem_cons_self), heq.2⟩
    | [b, b'], 0, _ =>
      simp only [List.replicate, List.append_nil, List.cons.injEq, and_true] at heq
      obtain ⟨rfl, rfl⟩ := heq
      exact .inl ⟨hbody _ List.mem_cons_self, hbody _ (List.mem_cons_of_mem _ List.mem_cons_self)⟩
  · rintro (⟨h2, h3⟩ | ⟨h2 | rfl, rfl⟩)
    · exact ⟨[s2, s3], 0, rfl, by decide, by simp [h2, h3]⟩
    · exact ⟨[s2], 1, rfl, by decide, by simp [h2]⟩
    · exact ⟨[], 2, rfl, by decide, by simp⟩

theorem padded_group_iff {s0 s1 s2 s3 : UInt8} {rest : Bytes} (hrest : rest.length % 4 = 0) :
    Padded (s0 :: s1 :: s2 :: s3 :: rest) ↔
      GroupOk s0 s1 s2 s3 rest.isEmpty ∧ Padded rest := by
  have hnil : Padded [] := ⟨[], 0, rfl, by decide, by simp⟩
  rw [padded_cons_iff (by simp), padded_cons_iff (by simp)]
  cases rest with
  | nil =>
    rw [padded_pair_iff]
    simp [GroupOk, hnil]
  | cons c rest =>
    -- At least four characters follow.
    have hlen : 2 ≤ (c :: rest).length := by
      simp only [List.length_cons] at hrest ⊢
      omega
    have hlen' : 2 ≤ (s3 :: c :: rest).length := Nat.le_succ_of_le hlen
    rw [padded_cons_iff hlen', padded_cons_iff hlen]
    simp [GroupOk, and_assoc]

/-- What holds of no characters and carries over to four more holds of every text of whole
groups. -/
@[elab_as_elim]
theorem groups_induction {motive : (s : Bytes) → s.length % 4 = 0 → Prop} (nil : motive [] rfl)
    (group : ∀ s0 s1 s2 s3 rest (hrest : rest.length % 4 = 0), motive rest hrest →
      motive (s0 :: s1 :: s2 :: s3 :: rest)
        ((Nat.add_mod_right rest.length 4).trans hrest))
    (s : Bytes) (hs : s.length % 4 = 0) : motive s hs := by
  induction s using base64Groups.induct with
  | case1 s0 s1 s2 s3 rest ih =>
    have hrest : rest.length % 4 = 0 := by
      simp only [List.length_cons] at hs
      omega
    exact group s0 s1 s2 s3 rest hrest (ih hrest)
  | case2 s hshort =>
    match s with
    | [] => exact nil
    | [_] | [_, _] | [_, _, _] => simp at hs
    | s0 :: s1 :: s2 :: s3 :: rest => exact (hshort s0 s1 s2 s3 rest rfl).elim

theorem isSome_base64Groups (s : Bytes) (hs : s.length % 4 = 0) :
    (base64Groups s).isSome ↔ Padded s := by
  induction s, hs using groups_induction with
  | nil => exact iff_of_true rfl ⟨[], 0, rfl, by decide, by simp⟩
  | group s0 s1 s2 s3 rest hrest ih =>
    rw [base64Groups_cons, padded_group_iff hrest, ← ih]
    split_ifs with hok
    · simp [hok]
    · simp [hok]

theorem length_base64Groups (s : Bytes) (hs : s.length % 4 = 0) {out : Bytes}
    (h : base64Groups s = some out) : 4 * (out.length + s.count '='.toUInt8) = 3 * s.length := by
  induction s, hs using groups_induction generalizing out with
  | nil =>
    cases h
    rfl
  | group s0 s1 s2 s3 rest hrest ih =>
    rw [base64Groups_cons] at h
    split_ifs at h with hok
    obtain ⟨out', hout', rfl⟩ := Option.map_eq_some_iff.mp h
    have hgroup := hok.length_groupBytes
    have hcount : (s0 :: s1 :: s2 :: s3 :: rest).count '='.toUInt8 =
        [s0, s1, s2, s3].count '='.toUInt8 + rest.count '='.toUInt8 := by
      rw [← List.count_append]
      rfl
    have hih := ih hout'
    rw [hcount, List.length_append]
    simp only [List.length_cons]
    omega

theorem isSome_base64Decode (s : Bytes) :
    (base64Decode s).isSome ↔ s.length % 4 = 0 ∧ Padded s := by
  unfold base64Decode
  split_ifs with hlen
  · exact iff_of_false (by simp) fun h => hlen h.1
  · rw [isSome_base64Groups s (not_not.mp hlen)]
    exact ⟨fun h => ⟨not_not.mp hlen, h⟩, And.right⟩

theorem length_base64Decode {s out : Bytes} (h : base64Decode s = some out) :
    4 * (out.length + s.count '='.toUInt8) = 3 * s.length := by
  unfold base64Decode at h
  split_ifs at h with hlen
  exact length_base64Groups s (not_not.mp hlen) h

/-! ### Texts of bytes -/

theorem toUTF8_ofList_of_ascii {cs : List Char} (h : ∀ c ∈ cs, c.toNat < 128) :
    (String.ofList cs).toUTF8.toList = cs.map Char.toUInt8 := by
  rw [toList_eq_data, String.toUTF8_eq_toByteArray, String.toByteArray_ofList]
  induction cs with
  | nil => rfl
  | cons c cs ih =>
    obtain ⟨hc, hcs⟩ := List.forall_mem_cons.mp h
    have hsize : c.utf8Size = 1 := by
      rw [Char.utf8Size_eq_one_iff, UInt32.le_iff_toNat_le]
      exact Nat.le_of_lt_succ hc
    rw [List.utf8Encode_cons, ByteArray.data_append, Array.toList_append, ih hcs,
      List.utf8Encode_singleton, String.utf8EncodeChar_eq_singleton hsize]
    rfl

theorem toNat_base64Char_lt (n : Nat) : (base64Char n).toNat < 128 :=
  forall_base64Char (p := fun c => c.toNat < 128) (by decide +kernel) n

theorem isBase64_base64Char (hn : n < 64) : IsBase64 (base64Char n).toUInt8 := by
  have hall : ∀ n < 64, IsBase64 (base64Char n).toUInt8 := by decide +kernel
  exact hall n hn

theorem forall_mem_base64Chars : ∀ c ∈ base64Chars d, c.toNat < 128 := by
  fun_induction base64Chars d with
  | case1 => exact fun c hc => absurd hc List.not_mem_nil
  | case2 b0 => simp [toNat_base64Char_lt]
  | case3 b0 b1 => simp [toNat_base64Char_lt]
  | case4 b0 b1 b2 bs ih =>
    simp only [List.forall_mem_cons, toNat_base64Char_lt, true_and]
    exact ih

theorem length_base64Chars : (base64Chars d).length % 4 = 0 := by
  fun_induction base64Chars d with
  | case1 => rfl
  | case2 b0 => simp
  | case3 b0 b1 => simp
  | case4 b0 b1 b2 bs ih =>
    simp only [List.length_cons]
    omega

theorem firstByte_eq {n0 n1 : Nat} {b : UInt8} (h0 : n0 < 64) (h1 : n1 < 64)
    (hb : n0 * 4 % 256 + n1 / 16 = b.toNat) :
    b64Value (base64Char n0).toUInt8 <<< 2 ||| b64Value (base64Char n1).toUInt8 >>> 4 = b := by
  have hright : (b64Value (base64Char n1).toUInt8 >>> 4).toNat = n1 / 16 := by
    rw [UInt8.toNat_shiftRight, toNat_b64Value_base64Char h1]
    exact Nat.shiftRight_eq_div_pow n1 4
  refine shiftLeft_or_eq (k := 2) (by decide) (by omega) ?_
  rw [toNat_b64Value_base64Char h0, hright]
  exact hb

theorem secondByte_eq {n1 n2 : Nat} {b : UInt8} (h1 : n1 < 64) (h2 : n2 < 64)
    (hb : n1 * 16 % 256 + n2 / 4 = b.toNat) :
    b64Value (base64Char n1).toUInt8 <<< 4 ||| b64Value (base64Char n2).toUInt8 >>> 2 = b := by
  have hright : (b64Value (base64Char n2).toUInt8 >>> 2).toNat = n2 / 4 := by
    rw [UInt8.toNat_shiftRight, toNat_b64Value_base64Char h2]
    exact Nat.shiftRight_eq_div_pow n2 2
  refine shiftLeft_or_eq (k := 4) (by decide) (by omega) ?_
  rw [toNat_b64Value_base64Char h1, hright]
  exact hb

theorem thirdByte_eq {n2 n3 : Nat} {b : UInt8} (h2 : n2 < 64) (h3 : n3 < 64)
    (hb : n2 * 64 % 256 + n3 = b.toNat) :
    b64Value (base64Char n2).toUInt8 <<< 6 ||| b64Value (base64Char n3).toUInt8 = b := by
  refine shiftLeft_or_eq (k := 6) (by decide) ?_ ?_
  · rw [toNat_b64Value_base64Char h3]
    exact h3
  · rw [toNat_b64Value_base64Char h2, toNat_b64Value_base64Char h3]
    exact hb

theorem base64Groups_base64Chars : base64Groups ((base64Chars d).map Char.toUInt8) = some d := by
  fun_induction base64Chars d with
  | case1 => rfl
  | case2 b0 =>
    have h0 := b0.toNat_lt
    have hn0 : b0.toNat / 4 < 64 := by omega
    have hn1 : b0.toNat % 4 * 16 < 64 := by omega
    simp only [List.map_cons, List.map_nil]
    rw [base64Groups_cons, if_pos ⟨isBase64_base64Char hn0, isBase64_base64Char hn1,
      .inr ⟨rfl, .inr rfl, rfl⟩⟩, groupBytes, firstByte_eq hn0 hn1 (b := b0) (by omega)]
    rfl
  | case3 b0 b1 =>
    have h0 := b0.toNat_lt
    have h1 := b1.toNat_lt
    have hn0 : b0.toNat / 4 < 64 := by omega
    have hn1 : b0.toNat % 4 * 16 + b1.toNat / 16 < 64 := by omega
    have hn2 : b1.toNat % 16 * 4 < 64 := by omega
    have hc2 := isBase64_base64Char hn2
    simp only [List.map_cons, List.map_nil]
    rw [base64Groups_cons, if_pos ⟨isBase64_base64Char hn0, isBase64_base64Char hn1,
      .inr ⟨rfl, .inl hc2, rfl⟩⟩, groupBytes, firstByte_eq hn0 hn1 (b := b0) (by omega),
      secondByte_eq hn1 hn2 (b := b1) (by omega), if_pos hc2.ne_padding,
      if_neg fun h => h.2 rfl]
    rfl
  | case4 b0 b1 b2 bs ih =>
    have h0 := b0.toNat_lt
    have h1 := b1.toNat_lt
    have h2 := b2.toNat_lt
    have hn0 : b0.toNat / 4 < 64 := by omega
    have hn1 : b0.toNat % 4 * 16 + b1.toNat / 16 < 64 := by omega
    have hn2 : b1.toNat % 16 * 4 + b2.toNat / 64 < 64 := by omega
    have hn3 : b2.toNat % 64 < 64 := by omega
    have hc2 := isBase64_base64Char hn2
    have hc3 := isBase64_base64Char hn3
    simp only [List.map_cons]
    rw [base64Groups_cons, if_pos ⟨isBase64_base64Char hn0, isBase64_base64Char hn1,
      .inl ⟨hc2, hc3⟩⟩, ih, groupBytes, firstByte_eq hn0 hn1 (b := b0) (by omega),
      secondByte_eq hn1 hn2 (b := b1) (by omega), thirdByte_eq hn2 hn3 (b := b2) (by omega),
      if_pos hc2.ne_padding, if_pos ⟨hc2.ne_padding, hc3.ne_padding⟩]
    rfl

theorem base64Decode_base64Encode : base64Decode (base64Encode d).toUTF8.toList = some d := by
  rw [base64Encode, toUTF8_ofList_of_ascii (forall_mem_base64Chars d), base64Decode,
    List.length_map, if_neg (not_not_intro (length_base64Chars d)), base64Groups_base64Chars]

/-! ### Hexadecimal texts -/

theorem hexVal_eq_invalid_iff : hexVal c = 0xFF ↔ ¬ IsHexDigit c := by
  rcases hexVal_cases c with ⟨h, hlt⟩ | ⟨hnot, heq⟩
  · exact iff_of_false (fun heq => absurd hlt (heq ▸ by decide)) (not_not_intro h)
  · exact iff_of_true heq hnot

theorem isSome_hexPairs {s : Bytes} (hs : s.length % 2 = 0) :
    (hexPairs s).isSome ↔ ∀ c ∈ s, IsHexDigit c := by
  induction s using hexPairs.induct with
  | case1 s0 s1 rest hbad =>
    rw [hexPairs, if_pos hbad]
    rw [hexVal_eq_invalid_iff, hexVal_eq_invalid_iff] at hbad
    refine iff_of_false (by simp) fun hall => ?_
    simp only [List.forall_mem_cons] at hall
    exact hbad.elim (fun h => h hall.1) fun h => h hall.2.1
  | case2 s0 s1 rest hgood ih =>
    have hrest : rest.length % 2 = 0 := by
      simp only [List.length_cons] at hs
      omega
    rw [hexPairs, if_neg hgood, Option.isSome_map, ih hrest]
    simp only [hexVal_eq_invalid_iff, not_or, not_not] at hgood
    simp [hgood.1, hgood.2]
  | case3 s hshort =>
    match s with
    | [] => exact iff_of_true rfl (by simp)
    | [_] => simp at hs
    | s0 :: s1 :: rest => exact (hshort s0 s1 rest rfl).elim

theorem isSome_hexDecode (s : Bytes) :
    (hexDecode s).isSome ↔ s.length % 2 = 0 ∧ ∀ c ∈ s, IsHexDigit c := by
  unfold hexDecode
  split_ifs with hlen
  · exact iff_of_false (by simp) fun h => hlen h.1
  · rw [isSome_hexPairs (not_not.mp hlen)]
    exact ⟨fun h => ⟨not_not.mp hlen, h⟩, And.right⟩

theorem toNat_hexDigit_lt (n : Nat) : (hexDigit n).toNat < 128 :=
  forall_hexDigit (p := fun c => c.toNat < 128) (by decide) n

theorem toNat_hexVal_hexDigit (hn : n < 16) : (hexVal (hexDigit n).toUInt8).toNat = n := by
  rw [hexVal_hexDigit hn]
  exact Nat.mod_eq_of_lt (Nat.lt_trans hn (by decide))

theorem hexByte_eq (b : UInt8) :
    hexVal (hexDigit (b.toNat / 16)).toUInt8 <<< 4 ||| hexVal (hexDigit (b.toNat % 16)).toUInt8 =
      b := by
  have hb := b.toNat_lt
  have hhi := toNat_hexVal_hexDigit (n := b.toNat / 16) (by omega)
  have hlo := toNat_hexVal_hexDigit (n := b.toNat % 16) (by omega)
  refine shiftLeft_or_eq (k := 4) (by decide) (by omega) ?_
  rw [hhi, hlo]
  omega

theorem hexVal_hexDigit_ne (hn : n < 16) : hexVal (hexDigit n).toUInt8 ≠ 0xFF := by
  intro heq
  have hval := toNat_hexVal_hexDigit hn
  rw [heq] at hval
  have : (0xFF : UInt8).toNat = 255 := rfl
  omega

theorem hexPairs_digits :
    hexPairs ((d.flatMap fun b => [hexDigit (b.toNat / 16), hexDigit (b.toNat % 16)]).map
      Char.toUInt8) = some d := by
  induction d with
  | nil => rfl
  | cons b d ih =>
    have hb := b.toNat_lt
    simp only [List.flatMap_cons, List.map_cons, List.cons_append, List.nil_append]
    rw [hexPairs, if_neg (not_or.mpr ⟨hexVal_hexDigit_ne (by omega), hexVal_hexDigit_ne
      (by omega)⟩), ih, hexByte_eq]
    rfl

theorem hexDecode_hexText : hexDecode (hexText d).toUTF8.toList = some d := by
  have hascii : ∀ c ∈ d.flatMap fun b => [hexDigit (b.toNat / 16), hexDigit (b.toNat % 16)],
      c.toNat < 128 := by
    intro c hc
    obtain ⟨b, -, hc⟩ := List.mem_flatMap.mp hc
    simp only [List.mem_cons, List.not_mem_nil, or_false] at hc
    rcases hc with rfl | rfl
    · exact toNat_hexDigit_lt _
    · exact toNat_hexDigit_lt _
  have hlen := length_hexText d
  rw [hexText, String.length_ofList] at hlen
  rw [hexText, toUTF8_ofList_of_ascii hascii, hexDecode, List.length_map, hlen,
    if_neg (by omega), hexPairs_digits]

/-- **Base64 and hex conversion are exact.** Decoding inverts encoding; a base64 text is accepted
when its length is divisible by four and it is made of the alphabet and then at most two paddings,
and it stands for three quarters of its length without the paddings; a hexadecimal text is accepted
when its length is even and it has digits only. -/
theorem conversions_exact :
    (∀ d, base64Decode (base64Encode d).toUTF8.toList = some d) ∧
    (∀ d, hexDecode (hexText d).toUTF8.toList = some d) ∧
    (∀ s, (base64Decode s).isSome ↔ s.length % 4 = 0 ∧ ∃ body pads,
      s = body ++ List.replicate pads '='.toUInt8 ∧ pads ≤ 2 ∧ ∀ c ∈ body, IsBase64 c) ∧
    (∀ s out, base64Decode s = some out →
      4 * (out.length + s.count '='.toUInt8) = 3 * s.length) ∧
    (∀ s, (hexDecode s).isSome ↔ s.length % 2 = 0 ∧ ∀ c ∈ s, IsHexDigit c) :=
  ⟨base64Decode_base64Encode, hexDecode_hexText, isSome_base64Decode,
    fun _ _ => length_base64Decode, isSome_hexDecode⟩

end VirtualHsm
