import Mathlib.Algebra.BigOperators.Group.List.Basic
import Mathlib.Algebra.Order.BigOperators.Group.List
import Mathlib.Algebra.Order.Ring.Nat

/-!
# Threads in a list

Threads that run the same program are a list of places in it; a thread's step sets one entry. A
quantity that each thread contributes to is a total over the list, and a step changes it by the
difference of two contributions. Statements such as "some thread is at this place" and "all threads
are" are statements about totals, so that invariants about threads are linear arithmetic.
-/

namespace CS

variable {τ : Type*} {f g : τ → Nat} {l : List τ} {a b : τ} {i : Nat}

/-- The sum of what the threads contribute. -/
def total (f : τ → Nat) (l : List τ) : Nat := (l.map f).sum

@[simp] theorem total_cons (f : τ → Nat) (a : τ) (l : List τ) :
    total f (a :: l) = f a + total f l := List.sum_cons

/-- A new thread. -/
theorem total_concat (f : τ → Nat) (l : List τ) (a : τ) : total f (l ++ [a]) = total f l + f a := by
  rw [total, List.map_append, List.sum_append]
  rfl

/-- One thread moves: its new contribution takes the place of the old one. -/
theorem total_set (f : τ → Nat) (h : l[i]? = some a) (b : τ) :
    total f (l.set i b) + f a = total f l + f b := by
  induction l generalizing i with
  | nil => cases h
  | cons x xs ih =>
    cases i with
    | zero =>
      cases h
      rw [List.set_cons_zero, total_cons, total_cons]
      omega
    | succ i =>
      have hrest := ih h
      rw [List.set_cons_succ, total_cons, total_cons]
      omega

/-- All threads move, and none changes its contribution. -/
theorem total_map {move : τ → τ} (hmove : ∀ a, f (move a) = f a) (l : List τ) :
    total f (l.map move) = total f l := by
  rw [total, List.map_map]
  exact congrArg List.sum (List.map_congr_left fun a _ => hmove a)

theorem total_le_total (hle : ∀ a, f a ≤ g a) (l : List τ) : total f l ≤ total g l :=
  List.sum_le_sum fun a _ => hle a

theorem le_total (f : τ → Nat) (ha : a ∈ l) : f a ≤ total f l :=
  List.single_le_sum (fun _ _ => Nat.zero_le _) _ (List.mem_map_of_mem ha)

/-- Something is contributed exactly when some thread contributes. -/
theorem total_pos_iff : 0 < total f l ↔ ∃ a ∈ l, 0 < f a := by
  constructor
  · intro hpos
    by_contra hnone
    push Not at hnone
    have hzero : total f l = 0 :=
      List.sum_eq_zero_iff_forall_eq_nat.mpr fun n hn => by
        obtain ⟨a, ha, rfl⟩ := List.mem_map.mp hn
        exact Nat.le_zero.mp (hnone a ha)
    omega
  · rintro ⟨a, ha, hpos⟩
    exact hpos.trans_le (le_total f ha)

theorem total_le_length (hle : ∀ a, f a ≤ 1) (l : List τ) : total f l ≤ l.length := by
  induction l with
  | nil => exact le_rfl
  | cons a l ih =>
    have hone := hle a
    rw [total_cons, List.length_cons]
    omega

theorem total_eq_length (hone : ∀ a ∈ l, f a = 1) : total f l = l.length := by
  induction l with
  | nil => rfl
  | cons a l ih =>
    rw [total_cons, List.length_cons, hone a List.mem_cons_self,
      ih fun b hb => hone b (List.mem_cons_of_mem a hb)]
    omega

/-- When at most one thread contributes, two that do are the same one. -/
theorem eq_of_total_le_one {j : Nat} (hone : total f l ≤ 1) (hi : l[i]? = some a)
    (hj : l[j]? = some b) (ha : 0 < f a) (hb : 0 < f b) : i = j := by
  induction l generalizing i j with
  | nil => cases hi
  | cons x xs ih =>
    rw [total_cons] at hone
    cases i with
    | zero =>
      cases j with
      | zero => rfl
      | succ j =>
        cases hi
        have hrest := le_total f (List.mem_of_getElem? (l := xs) hj)
        omega
    | succ i =>
      cases j with
      | zero =>
        cases hj
        have hrest := le_total f (List.mem_of_getElem? (l := xs) hi)
        omega
      | succ j => rw [ih (by omega) hi hj]

/-- When all threads contribute, each one does. -/
theorem eq_one_of_total_eq_length (hle : ∀ a, f a ≤ 1) (htotal : total f l = l.length)
    (ha : a ∈ l) : f a = 1 := by
  induction l with
  | nil => cases ha
  | cons b l ih =>
    have hb := hle b
    have hrest := total_le_length hle l
    rw [total_cons, List.length_cons] at htotal
    rcases List.mem_cons.mp ha with rfl | hmem
    · omega
    · exact ih (by omega) hmem

end CS
