import VirtualHsm.Pkcs11.Types

/-!
# Checks and text encodings

The check that throws, bytes as characters, in lower-case hexadecimal and in base64 with padding,
and identifiers made of sixteen random bytes.
-/

namespace VirtualHsm

/-- `VHSM_CHECK_MSG`: what is thrown names the place of the check. -/
def checkMsg (condition : Bool) (msg file : String) (line : Nat) : Except String Unit :=
  if condition then .ok () else .error (msg ++ " at " ++ file ++ ":" ++ toString line)

/-- Bytes as the characters of a text. -/
def bytesText (bs : Bytes) : String := String.ofList (bs.map fun b => Char.ofNat b.toNat)

/-- The loop of `ByteArray.toList` has the bytes from an index on in front of it. -/
theorem toListLoop_eq_append_drop (bs : ByteArray) (i : Nat) (acc : List UInt8) :
    ByteArray.toList.loop bs i acc = acc.reverse ++ bs.data.toList.drop i := by
  fun_induction ByteArray.toList.loop bs i acc with
  | case1 i acc hlt ih =>
    have hi : i < bs.data.toList.length := hlt
    rw [ih, List.drop_eq_getElem_cons hi, List.reverse_cons, List.append_assoc]
    simp [ByteArray.get!, hlt]
  | case2 i acc hge =>
    have hi : bs.data.toList.length ≤ i := Nat.not_lt.mp hge
    rw [List.drop_eq_nil_of_le hi, List.append_nil]

theorem toList_eq_data (bs : ByteArray) : bs.toList = bs.data.toList := by
  rw [ByteArray.toList, toListLoop_eq_append_drop, List.reverse_nil, List.nil_append,
    List.drop_zero]

theorem length_toUTF8_toList (s : String) : s.toUTF8.toList.length = s.utf8ByteSize := by
  rw [toList_eq_data]
  rfl

theorem toUTF8_toList_inj {s t : String} (h : s.toUTF8.toList = t.toUTF8.toList) : s = t := by
  rw [toList_eq_data, toList_eq_data, Array.toList_inj] at h
  exact String.toByteArray_inj.mp (ByteArray.ext h)

/-- A hexadecimal digit. -/
def hexDigit (n : Nat) : Char := "0123456789abcdef".toList.getD n '0'

/-- Two lower-case digits for each byte. -/
def hexText (bs : Bytes) : String :=
  String.ofList (bs.flatMap fun b => [hexDigit (b.toNat / 16), hexDigit (b.toNat % 16)])

theorem length_hexText (bs : Bytes) : (hexText bs).length = 2 * bs.length := by
  rw [hexText, String.length_ofList]
  induction bs with
  | nil => rfl
  | cons b bs ih =>
    rw [List.flatMap_cons, List.length_append, ih]
    simp only [List.length_cons, List.length_nil]
    omega

theorem forall_hexDigit {p : Char → Prop} (h : ∀ n < 16, p (hexDigit n)) (n : Nat) :
    p (hexDigit n) := by
  by_cases hn : n < 16
  · exact h n hn
  · have hnone : "0123456789abcdef".toList[n]? = none :=
      List.getElem?_eq_none (Nat.not_lt.mp hn)
    rw [hexDigit, List.getD_eq_getElem?_getD, hnone]
    exact h 0 (by decide)

theorem hexDigit_ne_nul (n : Nat) : hexDigit n ≠ '\x00' :=
  forall_hexDigit (p := fun c => c ≠ '\x00') (by decide) n

theorem notMem_hexText (bs : Bytes) : '\x00' ∉ (hexText bs).toList := by
  rw [hexText, String.toList_ofList, List.mem_flatMap]
  rintro ⟨b, -, hmem⟩
  simp only [List.mem_cons, List.not_mem_nil, or_false] at hmem
  rcases hmem with heq | heq
  all_goals exact hexDigit_ne_nul _ heq.symm

/-- `uuid_v4`: sixteen random bytes with the bits of the version and the variant set. -/
def uuidV4 (rnd : Fin 16 → UInt8) : String :=
  hexText [rnd 0, rnd 1, rnd 2, rnd 3] ++ "-" ++ hexText [rnd 4, rnd 5] ++ "-" ++
    hexText [rnd 6 &&& 0x0f ||| 0x40, rnd 7] ++ "-" ++
    hexText [rnd 8 &&& 0x3f ||| 0x80, rnd 9] ++ "-" ++
    hexText [rnd 10, rnd 11, rnd 12, rnd 13, rnd 14, rnd 15]

theorem notMem_uuidV4 (rnd : Fin 16 → UInt8) : '\x00' ∉ (uuidV4 rnd).toList := by
  simp only [uuidV4, String.toList_append, List.mem_append, notMem_hexText, or_false, false_or]
  decide

/-- A character of the base64 alphabet. -/
def base64Char (n : Nat) : Char :=
  "ABCDEFGHIJKLMNOPQRSTUVWXYZabcdefghijklmnopqrstuvwxyz0123456789+/".toList.getD n 'A'

/-- Four characters for every three bytes. -/
def base64Chars : Bytes → List Char
  | [] => []
  | [b0] => [base64Char (b0.toNat / 4), base64Char (b0.toNat % 4 * 16), '=', '=']
  | [b0, b1] =>
    [base64Char (b0.toNat / 4), base64Char (b0.toNat % 4 * 16 + b1.toNat / 16),
     base64Char (b1.toNat % 16 * 4), '=']
  | b0 :: b1 :: b2 :: bs =>
    base64Char (b0.toNat / 4) :: base64Char (b0.toNat % 4 * 16 + b1.toNat / 16) ::
      base64Char (b1.toNat % 16 * 4 + b2.toNat / 64) :: base64Char (b2.toNat % 64) ::
      base64Chars bs

def base64Encode (bs : Bytes) : String := String.ofList (base64Chars bs)

theorem forall_base64Char {p : Char → Prop} (h : ∀ n < 64, p (base64Char n)) (n : Nat) :
    p (base64Char n) := by
  by_cases hn : n < 64
  · exact h n hn
  · have hnone : "ABCDEFGHIJKLMNOPQRSTUVWXYZabcdefghijklmnopqrstuvwxyz0123456789+/".toList[n]? =
        none := List.getElem?_eq_none (Nat.not_lt.mp hn)
    rw [base64Char, List.getD_eq_getElem?_getD, hnone]
    exact h 0 (by decide)

theorem base64Char_ne_nul (n : Nat) : '\x00' ≠ base64Char n :=
  forall_base64Char (p := fun c => '\x00' ≠ c) (by decide +kernel) n

theorem notMem_base64Encode (bs : Bytes) : '\x00' ∉ (base64Encode bs).toList := by
  rw [base64Encode, String.toList_ofList]
  fun_induction base64Chars bs with
  | case1 => exact List.not_mem_nil
  | case2 b0 => simp [base64Char_ne_nul]
  | case3 b0 b1 => simp [base64Char_ne_nul]
  | case4 b0 b1 b2 bs ih => simp [base64Char_ne_nul, ih]

end VirtualHsm
