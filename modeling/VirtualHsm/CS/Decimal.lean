import Mathlib.Data.Nat.Basic

/-!
# Decimal numbers in ASCII

The decimal digits of a number, the most significant one first, and the value of digits read back.
-/

namespace CS

/-- The decimal digits of a number in ASCII. -/
def toDecimal (n : Nat) : List UInt8 := (Nat.toDigits 10 n).map fun c => c.toNat.toUInt8

/-- The value of decimal digits in ASCII. -/
def digitsValue (ds : List UInt8) : Nat := ds.foldl (fun n d => 10 * n + (d.toNat - 48)) 0

theorem toNat_of_isDigit {c : Char} (hc : c.isDigit = true) : 48 ≤ c.toNat ∧ c.toNat ≤ 57 := by
  simp only [Char.isDigit, Bool.and_eq_true, decide_eq_true_eq] at hc
  exact ⟨hc.1, hc.2⟩

theorem mem_toDecimal {n : Nat} {d : UInt8} (hd : d ∈ toDecimal n) :
    48 ≤ d.toNat ∧ d.toNat ≤ 57 := by
  obtain ⟨c, hc, rfl⟩ := List.mem_map.mp hd
  have hrange := toNat_of_isDigit (Nat.isDigit_of_mem_toDigits (by decide) (by decide) hc)
  have hbyte : c.toNat.toUInt8.toNat = c.toNat := Nat.mod_eq_of_lt (by omega)
  rw [hbyte]
  exact hrange

theorem toDecimal_ne_nil (n : Nat) : toDecimal n ≠ [] := by
  simp [toDecimal]

theorem digitsValue_toDecimal (n : Nat) : digitsValue (toDecimal n) = n := by
  have hfold (cs : List Char) (hcs : ∀ c ∈ cs, c.isDigit = true) (m : Nat) :
      (cs.map fun c => c.toNat.toUInt8).foldl (fun n d => 10 * n + (d.toNat - 48)) m =
        Nat.ofDigitChars 10 cs m := by
    induction cs generalizing m with
    | nil => rfl
    | cons c cs ih =>
      have hrange := toNat_of_isDigit (hcs c List.mem_cons_self)
      have hbyte : c.toNat.toUInt8.toNat = c.toNat := Nat.mod_eq_of_lt (by omega)
      rw [List.map_cons, List.foldl_cons, hbyte, ih fun d hd => hcs d (List.mem_cons_of_mem c hd)]
      rfl
  have hdigits : ∀ c ∈ Nat.toDigits 10 n, c.isDigit = true :=
    fun c hc => Nat.isDigit_of_mem_toDigits (by decide) (by decide) hc
  rw [digitsValue, toDecimal, hfold _ hdigits, Nat.ofDigitChars_toDigits (by decide) (by decide)]

theorem toDecimal_injective : Function.Injective toDecimal :=
  Function.LeftInverse.injective digitsValue_toDecimal

end CS
