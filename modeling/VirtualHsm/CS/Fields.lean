import Mathlib.Algebra.Order.Ring.Nat
import Mathlib.Data.List.Basic
import Mathlib.Data.List.TakeWhile

/-!
# Fields with a separator

A text is a list of fields with a separator between them. A field that does not contain the
separator can be cut off at the front or at the end, and a text whose fields are all of this kind
determines them.
-/

namespace CS

variable {α : Type*} [DecidableEq α] {sep : α} {a a' b b' s : List α}

theorem takeWhile_append_cons (ha : sep ∉ a) : (a ++ sep :: b).takeWhile (· ≠ sep) = a := by
  rw [List.takeWhile_append_of_pos]
  · simp
  · intro x hx
    simpa using fun (h : x = sep) => ha (h ▸ hx)

theorem dropWhile_append_cons (ha : sep ∉ a) : (a ++ sep :: b).dropWhile (· ≠ sep) = sep :: b := by
  rw [List.dropWhile_append_of_pos]
  · simp
  · intro x hx
    simpa using fun (h : x = sep) => ha (h ▸ hx)

theorem notMem_takeWhile : sep ∉ s.takeWhile (· ≠ sep) := by
  intro h
  simpa using List.mem_takeWhile_imp h

/-- Cutting a text at its first separator loses nothing. -/
theorem takeWhile_append_tail_dropWhile (hs : sep ∈ s) :
    s.takeWhile (· ≠ sep) ++ sep :: (s.dropWhile (· ≠ sep)).tail = s := by
  induction s with
  | nil => cases hs
  | cons x xs ih =>
    by_cases hx : x = sep
    · subst hx
      simp
    · have hxs : sep ∈ xs := (List.mem_cons.mp hs).resolve_left (Ne.symm hx)
      simpa [hx] using ih hxs

theorem append_cons_inj (ha : sep ∉ a) (ha' : sep ∉ a')
    (h : a ++ sep :: b = a' ++ sep :: b') : a = a' ∧ b = b' := by
  have hfront : a = a' := by
    rw [← takeWhile_append_cons ha, h, takeWhile_append_cons ha']
  subst hfront
  exact ⟨rfl, (List.cons.inj (List.append_cancel_left h)).2⟩

variable (sep s) in
/-- The text behind the last separator. -/
def afterLast : List α := (s.reverse.takeWhile (· ≠ sep)).reverse

theorem afterLast_append_cons (hb : sep ∉ b) : afterLast sep (a ++ sep :: b) = b := by
  have hrev : (a ++ sep :: b).reverse = b.reverse ++ sep :: a.reverse := by simp
  rw [afterLast, hrev, takeWhile_append_cons (by simpa using hb), List.reverse_reverse]

/-! ### Lists of fields -/

omit [DecidableEq α] in
theorem intercalate_cons_cons (x y : List α) (xs : List (List α)) :
    [sep].intercalate (x :: y :: xs) = x ++ sep :: [sep].intercalate (y :: xs) := by
  simp [List.intercalate]

/-- There is a separator between any two fields, and there are those inside them. -/
theorem count_intercalate (xs : List (List α)) :
    ([sep].intercalate xs).count sep = (xs.length - 1) + (xs.map (·.count sep)).sum := by
  induction xs with
  | nil => simp [List.intercalate]
  | cons x xs ih =>
    cases xs with
    | nil => simp [List.intercalate]
    | cons y ys =>
      rw [intercalate_cons_cons, List.count_append, List.count_cons_self, ih]
      simp only [List.length_cons, List.map_cons, List.sum_cons]
      omega

/-- Equally many fields, which do not contain the separator on one side, do not on the other. -/
theorem notMem_of_intercalate_eq {xs ys : List (List α)} (hxs : ∀ x ∈ xs, sep ∉ x)
    (hlen : xs.length = ys.length) (h : [sep].intercalate xs = [sep].intercalate ys) :
    ∀ y ∈ ys, sep ∉ y := by
  have hsum (zs : List (List α)) : (∀ z ∈ zs, sep ∉ z) ↔ (zs.map (·.count sep)).sum = 0 := by
    simp [List.sum_eq_zero_iff_forall_eq_nat, List.count_eq_zero]
  have hcount := congrArg (List.count sep) h
  rw [count_intercalate, count_intercalate, hlen, (hsum xs).mp hxs] at hcount
  exact (hsum ys).mpr (by omega)

theorem intercalate_inj {xs ys : List (List α)} (hxs : ∀ x ∈ xs, sep ∉ x)
    (hlen : xs.length = ys.length) (h : [sep].intercalate xs = [sep].intercalate ys) : xs = ys := by
  have hys := notMem_of_intercalate_eq hxs hlen h
  induction xs generalizing ys with
  | nil => exact (List.length_eq_zero_iff.mp hlen.symm).symm
  | cons x xs ih =>
    obtain ⟨y, ys, rfl⟩ : ∃ y ys', ys = y :: ys' := List.exists_cons_of_length_eq_add_one hlen.symm
    have hx := hxs x List.mem_cons_self
    have hy := hys y List.mem_cons_self
    cases xs with
    | nil =>
      obtain rfl : ys = [] := List.length_eq_zero_iff.mp (Nat.succ.inj hlen).symm
      simpa [List.intercalate] using h
    | cons x₂ xs =>
      obtain ⟨y₂, ys, rfl⟩ : ∃ y ys', ys = y :: ys' :=
        List.exists_cons_of_length_eq_add_one (Nat.succ.inj hlen).symm
      rw [intercalate_cons_cons, intercalate_cons_cons] at h
      obtain ⟨rfl, hrest⟩ := append_cons_inj hx hy h
      rw [ih (fun z hz => hxs z (List.mem_cons_of_mem x hz)) (Nat.succ.inj hlen) hrest
        fun z hz => hys z (List.mem_cons_of_mem x hz)]

/-! ### Fields without separators -/

/-- When the encoding of an admitted value is not empty and can be cut off at the front of a text,
the text of a list of values determines the list. -/
theorem flatMap_inj {β γ : Type*} {encode : γ → List β} {admitted : γ → Prop}
    (hcut : ∀ x y s t, admitted x → admitted y → encode x ++ s = encode y ++ t → x = y ∧ s = t)
    (hne : ∀ x, encode x ≠ [])
    {xs ys : List γ} (hxs : ∀ x ∈ xs, admitted x) (hys : ∀ y ∈ ys, admitted y)
    (h : xs.flatMap encode = ys.flatMap encode) : xs = ys := by
  induction xs generalizing ys with
  | nil =>
    cases ys with
    | nil => rfl
    | cons y ys => exact absurd (List.append_eq_nil_iff.mp h.symm).1 (hne y)
  | cons x xs ih =>
    cases ys with
    | nil => exact absurd (List.append_eq_nil_iff.mp h).1 (hne x)
    | cons y ys =>
      rw [List.flatMap_cons, List.flatMap_cons] at h
      obtain ⟨rfl, hrest⟩ := hcut x y _ _ (hxs x List.mem_cons_self) (hys y List.mem_cons_self) h
      rw [ih (fun z hz => hxs z (List.mem_cons_of_mem x hz))
        (fun z hz => hys z (List.mem_cons_of_mem x hz)) hrest]

end CS
