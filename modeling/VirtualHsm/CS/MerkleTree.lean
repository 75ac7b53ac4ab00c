import Mathlib.Data.Multiset.Bind
import Mathlib.Data.Nat.Log

/-!
# Hash trees by levels

A list is paired up level by level until one element is left; an element without a neighbour is
paired with itself.
-/

namespace CS

variable {α : Type*} (f : α → α → α)

/-- The level above: neighbours are combined, and a last element left over is combined with
itself. -/
def pairUp : List α → List α
  | [] => []
  | [a] => [f a a]
  | a :: b :: rest => f a b :: pairUp rest

theorem length_pairUp (l : List α) : (pairUp f l).length = (l.length + 1) / 2 := by
  fun_induction pairUp f l with
  | case1 => simp
  | case2 a => simp
  | case3 a b rest ih =>
    simp only [List.length_cons, ih]
    omega

/-- Above positions `2 * i` and `2 * i + 1` stands their combination at `i`. -/
theorem getElem?_pairUp (l : List α) (i : Nat) :
    (pairUp f l)[i]? = l[2 * i]?.map fun a => f a (l[2 * i + 1]?.getD a) := by
  fun_induction pairUp f l generalizing i with
  | case1 => rfl
  | case2 a =>
    cases i with
    | zero => rfl
    | succ i => simp [Nat.mul_succ]
  | case3 a b rest ih =>
    cases i with
    | zero => rfl
    | succ i => simpa [Nat.mul_succ] using ih i

variable {l : List α}

theorem exists_of_mem_pairUp {x : α} (h : x ∈ pairUp f l) : ∃ a ∈ l, ∃ b ∈ l, x = f a b := by
  obtain ⟨i, hi⟩ := List.mem_iff_getElem?.mp h
  rw [getElem?_pairUp, Option.map_eq_some_iff] at hi
  obtain ⟨a, ha, rfl⟩ := hi
  refine ⟨a, List.mem_of_getElem? ha, ?_⟩
  -- The neighbour is an element of the list, or the element itself where there is none.
  cases hb : l[2 * i + 1]? with
  | none => exact ⟨a, List.mem_of_getElem? ha, rfl⟩
  | some b => exact ⟨b, List.mem_of_getElem? hb, rfl⟩

theorem length_pairUp_lt (h : 1 < l.length) : (pairUp f l).length < l.length := by
  rw [length_pairUp]
  omega

/-- The levels over a list, up to the first one without neighbours. -/
def treeLevels (l : List α) : List (List α) :=
  if h : 1 < l.length then
    have := length_pairUp_lt f h
    l :: treeLevels (pairUp f l)
  else [l]
termination_by l.length

theorem treeLevels_of_lt (h : 1 < l.length) : treeLevels f l = l :: treeLevels f (pairUp f l) := by
  rw [treeLevels, dif_pos h]

theorem treeLevels_of_le (h : l.length ≤ 1) : treeLevels f l = [l] := by
  rw [treeLevels, dif_neg (Nat.not_lt.mpr h)]

/-- Induction along the levels: a list without neighbours, and a list after the level above it. -/
theorem treeLevels_induction {motive : List α → Prop} (last : ∀ l : List α, l.length ≤ 1 → motive l)
    (step : ∀ l : List α, 1 < l.length → motive (pairUp f l) → motive l) (l : List α) :
    motive l := by
  by_cases h : 1 < l.length
  · have := length_pairUp_lt f h
    exact step l h (treeLevels_induction last step (pairUp f l))
  · exact last l (Nat.not_lt.mp h)
termination_by l.length

theorem exists_treeLevels_eq_cons (l : List α) : ∃ above, treeLevels f l = l :: above := by
  by_cases h : 1 < l.length
  · exact ⟨_, treeLevels_of_lt f h⟩
  · exact ⟨[], treeLevels_of_le f (Nat.not_lt.mp h)⟩

theorem getLast?_treeLevels_of_lt (h : 1 < l.length) :
    (treeLevels f l).getLast? = (treeLevels f (pairUp f l)).getLast? := by
  obtain ⟨above, hcons⟩ := exists_treeLevels_eq_cons f (pairUp f l)
  rw [treeLevels_of_lt f h, hcons, List.getLast?_cons_cons]

theorem length_treeLevels (l : List α) : (treeLevels f l).length = Nat.clog 2 l.length + 1 := by
  induction l using treeLevels_induction f with
  | last l h => rw [treeLevels_of_le f h, Nat.clog_of_right_le_one h, List.length_singleton]
  | step l h ih =>
    rw [treeLevels_of_lt f h, List.length_cons, ih, length_pairUp,
      Nat.clog_of_two_le Nat.one_lt_two h]
    rfl

/-- A tree over at least one element ends in a level of exactly one. -/
theorem getLast_treeLevels (hne : l ≠ []) : ∃ top, (treeLevels f l).getLast? = some [top] := by
  induction l using treeLevels_induction f with
  | last l h =>
    obtain ⟨a, rfl⟩ := List.length_eq_one_iff.mp
      (Nat.le_antisymm h (List.length_pos_iff.mpr hne))
    exact ⟨a, by rw [treeLevels_of_le f h]; rfl⟩
  | step l h ih =>
    have habove : pairUp f l ≠ [] := by
      rw [← List.length_pos_iff, length_pairUp]
      omega
    obtain ⟨top, htop⟩ := ih habove
    exact ⟨top, (getLast?_treeLevels_of_lt f h).trans htop⟩

variable {f}

/-- Let the combination of two elements determine them up to their order. Then what reaches the top
of the tree, combined with one element at each level below it, stands in the list at the bottom. -/
theorem mem_of_foldl_eq_top (hf : ∀ a b c d, f a b = f c d → a = c ∨ a = d) {l path : List α}
    {x top : α} (htop : (treeLevels f l).getLast? = some [top])
    (hlength : path.length + 1 = (treeLevels f l).length) (hclimb : path.foldl f x = top) :
    x ∈ l := by
  induction l using treeLevels_induction f generalizing x path with
  | last l h =>
    rw [treeLevels_of_le f h] at htop hlength
    obtain rfl : path = [] := List.length_eq_zero_iff.mp (Nat.succ.inj hlength)
    obtain rfl : l = [top] := Option.some.inj htop
    exact List.mem_singleton.mpr hclimb
  | step l h ih =>
    rw [getLast?_treeLevels_of_lt f h] at htop
    rw [treeLevels_of_lt f h] at hlength
    cases path with
    | nil =>
      obtain ⟨above, hcons⟩ := exists_treeLevels_eq_cons f (pairUp f l)
      rw [hcons] at hlength
      exact absurd hlength (by simp)
    | cons s path =>
      -- The first step lands in the level above, so it combined two elements of this one.
      have hmem : f x s ∈ pairUp f l := ih htop (Nat.succ.inj hlength) hclimb
      obtain ⟨a, ha, b, hb, hab⟩ := exists_of_mem_pairUp f hmem
      rcases hf _ _ _ _ hab with rfl | rfl
      · exact ha
      · exact hb

/-! ### What the top determines -/

theorem eq_of_treeLevels_of_le {top : α} (h : l.length ≤ 1)
    (htop : (treeLevels f l).getLast? = some [top]) : l = [top] := by
  rw [treeLevels_of_le f h] at htop
  exact Option.some.inj htop

/-- Every element is combined with one into an element of the level above. -/
theorem exists_pairUp_of_mem {x : α} (hx : x ∈ l) :
    ∃ y, f x y ∈ pairUp f l ∨ f y x ∈ pairUp f l := by
  fun_induction pairUp f l with
  | case1 => cases hx
  | case2 a =>
    obtain rfl := List.mem_singleton.mp hx
    exact ⟨x, .inl List.mem_cons_self⟩
  | case3 a b rest ih =>
    rcases List.mem_cons.mp hx with rfl | hx
    · exact ⟨b, .inl List.mem_cons_self⟩
    rcases List.mem_cons.mp hx with rfl | hx
    · exact ⟨a, .inr List.mem_cons_self⟩
    · obtain ⟨y, hy⟩ := ih hx
      exact ⟨y, hy.imp (List.mem_cons_of_mem _) (List.mem_cons_of_mem _)⟩

variable (hf : ∀ a b c d, f a b = f c d → a = c ∧ b = d ∨ a = d ∧ b = c)
include hf

/-- Two lists of one length with the same top have the same elements. -/
theorem mem_of_top_eq {l l' : List α} {top : α} (hlength : l.length = l'.length)
    (htop : (treeLevels f l).getLast? = some [top])
    (htop' : (treeLevels f l').getLast? = some [top]) {x : α} (hx : x ∈ l) : x ∈ l' := by
  induction l using treeLevels_induction f generalizing l' x with
  | last l h =>
    rwa [eq_of_treeLevels_of_le (hlength ▸ h) htop', ← eq_of_treeLevels_of_le h htop]
  | step l h ih =>
    rw [getLast?_treeLevels_of_lt f h] at htop
    rw [getLast?_treeLevels_of_lt f (hlength ▸ h)] at htop'
    have habove : (pairUp f l).length = (pairUp f l').length := by
      rw [length_pairUp, length_pairUp, hlength]
    obtain ⟨y, hy⟩ := exists_pairUp_of_mem (f := f) hx
    -- The node above stands over two elements of the other list, and these are the same two.
    rcases hy with hy | hy
    · obtain ⟨c, hc, d, hd, heq⟩ := exists_of_mem_pairUp f (ih habove htop htop' hy)
      obtain ⟨rfl, -⟩ | ⟨rfl, -⟩ := hf _ _ _ _ heq
      · exact hc
      · exact hd
    · obtain ⟨c, hc, d, hd, heq⟩ := exists_of_mem_pairUp f (ih habove htop htop' hy)
      obtain ⟨-, rfl⟩ | ⟨-, rfl⟩ := hf _ _ _ _ heq
      · exact hd
      · exact hc

omit hf in
variable (f) in
open Classical in
/-- The two elements that are combined into one. -/
noncomputable def below (x : α) : Multiset α :=
  if h : ∃ p : α × α, f p.1 p.2 = x then {h.choose.1, h.choose.2} else 0

theorem below_eq (a b : α) : below f (f a b) = {a, b} := by
  have h : ∃ p : α × α, f p.1 p.2 = f a b := ⟨(a, b), rfl⟩
  rw [below, dif_pos h]
  obtain ⟨hfst, hsnd⟩ | ⟨hfst, hsnd⟩ := hf _ _ _ _ h.choose_spec
  · rw [hfst, hsnd]
  · rw [hfst, hsnd, Multiset.pair_comm]

/-- A level of whole pairs is what lies below the level above. -/
theorem bind_below_pairUp (hl : l.length % 2 = 0) :
    (pairUp f l : Multiset α).bind (below f) = l := by
  fun_induction pairUp f l with
  | case1 => rfl
  | case2 a => simp at hl
  | case3 a b rest ih =>
    have hrest : rest.length % 2 = 0 := by
      simp only [List.length_cons] at hl
      omega
    rw [← Multiset.cons_coe, Multiset.cons_bind, ih hrest, below_eq hf]
    rfl

/-- With a power of two of elements no element is doubled, and the top determines the list up to
order. -/
theorem perm_of_top_eq {k : Nat} {l l' : List α} {top : α} (hl : l.length = 2 ^ k)
    (hl' : l'.length = 2 ^ k) (htop : (treeLevels f l).getLast? = some [top])
    (htop' : (treeLevels f l').getLast? = some [top]) : l.Perm l' := by
  induction k generalizing l l' with
  | zero => rw [eq_of_treeLevels_of_le hl.le htop, eq_of_treeLevels_of_le hl'.le htop']
  | succ k ih =>
    have hpow : 2 ^ (k + 1) = 2 * 2 ^ k := Nat.pow_succ'
    have hpos : 0 < 2 ^ k := Nat.two_pow_pos k
    rw [getLast?_treeLevels_of_lt f (by omega)] at htop htop'
    have habove : (pairUp f l).Perm (pairUp f l') :=
      ih (by rw [length_pairUp]; omega) (by rw [length_pairUp]; omega) htop htop'
    rw [← Multiset.coe_eq_coe] at habove ⊢
    rw [← bind_below_pairUp hf (l := l) (by omega), habove, bind_below_pairUp hf (by omega)]

end CS
