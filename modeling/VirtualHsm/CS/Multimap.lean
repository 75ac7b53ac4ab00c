import Mathlib.Data.List.Basic
import Mathlib.Data.List.Nodup

/-!
# Multimaps as association lists

A `Multimap κ ν` associates any number of values with a key. Equal keys stand in the order of
insertion, latest first; nothing below depends on that order.
-/

namespace CS

/-- Key and value pairs, possibly with repeated keys and pairs. -/
structure Multimap (κ ν : Type*) where
  entries : List (κ × ν) := []

namespace Multimap

variable {κ ν : Type*}

/-- The pair occurs in the multimap. -/
def Has (m : Multimap κ ν) (k : κ) (v : ν) : Prop := (k, v) ∈ m.entries

/-- Add one pair. -/
def insert (m : Multimap κ ν) (k : κ) (v : ν) : Multimap κ ν := ⟨(k, v) :: m.entries⟩

variable [DecidableEq κ] [DecidableEq ν]

/-- All values stored under a key. -/
def equalRange (m : Multimap κ ν) (k : κ) : List ν :=
  m.entries.filterMap fun p => if p.1 = k then some p.2 else none

/-- Remove one occurrence of a pair, if there is one. -/
def eraseOne (m : Multimap κ ν) (k : κ) (v : ν) : Multimap κ ν := ⟨m.entries.erase (k, v)⟩

/-- Remove every pair with the given value. -/
def eraseValue (m : Multimap κ ν) (v : ν) : Multimap κ ν := ⟨m.entries.filter (·.2 ≠ v)⟩

variable {m : Multimap κ ν} {k k' : κ} {v v' : ν}

omit [DecidableEq ν] in
@[simp] theorem mem_equalRange : v ∈ m.equalRange k ↔ m.Has k v := by
  simp [equalRange, Has]

/-! ### Multiplicities -/

variable (m k v) in
/-- How often the pair occurs. -/
def count : Nat := m.entries.count (k, v)

theorem has_iff_count_pos : m.Has k v ↔ 0 < m.count k v := List.count_pos_iff.symm

theorem count_insert :
    (m.insert k v).count k' v' = m.count k' v' + if k = k' ∧ v = v' then 1 else 0 := by
  simp only [count, insert, List.count_cons, beq_iff_eq, Prod.mk.injEq]

theorem count_eraseOne :
    (m.eraseOne k v).count k' v' = m.count k' v' - if k = k' ∧ v = v' then 1 else 0 := by
  simp only [count, eraseOne, List.count_erase, beq_iff_eq, Prod.mk.injEq]

theorem count_eraseValue : (m.eraseValue v).count k' v' = if v' = v then 0 else m.count k' v' := by
  simp only [count, eraseValue]
  by_cases h : v' = v
  · subst h
    rw [if_pos rfl, List.count_eq_zero]
    simp
  · rw [if_neg h, List.count_filter (by simpa using h)]

theorem count_equalRange : (m.equalRange k).count v = m.count k v := by
  obtain ⟨entries⟩ := m
  simp only [equalRange, count]
  induction entries with
  | nil => rfl
  | cons p entries ih =>
    obtain ⟨k', v'⟩ := p
    -- The head pair is in the range, or it does not count.
    by_cases hk : k' = k
    · subst hk
      simp [List.count_cons, ih]
    · simp [hk, ih]

/-- A range repeats nothing when no pair with its key occurs twice. -/
theorem nodup_equalRange (h : ∀ v, m.count k v ≤ 1) : (m.equalRange k).Nodup := by
  rw [List.nodup_iff_count_le_one]
  intro v
  rw [count_equalRange]
  exact h v

end Multimap

end CS
