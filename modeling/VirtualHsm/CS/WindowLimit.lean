import Mathlib.Data.List.Count

/-!
# Limits over fixed windows

A limiter counts what it admits since its current window began, and opens a new window for the first
admission after the current one is over. Two windows that follow each other admit twice the limit
at most, and an interval as long as a window meets no third one.

Admissions are a list of times here; how the limiter stores its count is left open.
-/

namespace CS

theorem countP_le_add {α : Type*} {p q r : α → Bool} (h : ∀ a, p a = true → q a = true ∨ r a = true)
    (l : List α) : l.countP p ≤ l.countP q + l.countP r := by
  induction l with
  | nil => exact Nat.zero_le _
  | cons a l ih =>
    simp only [List.countP_cons]
    by_cases hp : p a = true
    · rcases h a hp with hq | hr
      · rw [if_pos hp, if_pos hq]
        omega
      · rw [if_pos hp, if_pos hr]
        omega
    · rw [if_neg hp]
      omega

section Windows

variable (width limit : Nat) (times : List Nat)

/-- Every interval as long as a window, its ends included, has at most twice the limit. -/
def WindowBounded : Prop := ∀ t, times.countP (fun a => t ≤ a ∧ a ≤ t + width) ≤ 2 * limit

/-- The window began at `start` and has `count` admissions; the one before it had no more than the
limit. -/
structure WindowOpen (start count : Nat) : Prop where
  count_le : count ≤ limit
  since : times.countP (fun a => start ≤ a) ≤ count
  before : times.countP (fun a => a < start ∧ start ≤ a + width) ≤ limit
  within : ∀ a ∈ times, a < start + width

/-- At time `now` the last window is over. -/
structure WindowOver (now : Nat) : Prop where
  recent : times.countP (fun a => now ≤ a + width) ≤ limit
  past : ∀ a ∈ times, a < now

end Windows

variable {width limit start count now : Nat} {times : List Nat}

theorem windowOver_nil (now : Nat) : WindowOver width limit [] now where
  recent := Nat.zero_le _
  past := by simp

theorem windowBounded_nil : WindowBounded width limit [] := fun _ => Nat.zero_le _

theorem WindowOver.mono (h : WindowOver width limit times now) {later : Nat} (hle : now ≤ later) :
    WindowOver width limit times later where
  recent := by
    refine Nat.le_trans (List.countP_mono_left fun a _ ha => ?_) h.recent
    simp only [decide_eq_true_eq] at ha ⊢
    omega
  past a ha := Nat.lt_of_lt_of_le (h.past a ha) hle

theorem WindowOpen.over (h : WindowOpen width limit times start count)
    (hover : start + width ≤ now) : WindowOver width limit times now where
  recent := by
    -- Whatever is less than a window ago came after the window began.
    refine Nat.le_trans (List.countP_mono_left fun a _ ha => ?_) (Nat.le_trans h.since h.count_le)
    simp only [decide_eq_true_eq] at ha ⊢
    omega
  past a ha := Nat.lt_of_lt_of_le (h.within a ha) hover

/-- The first admission after a window opens the next. -/
theorem WindowOver.admit (h : WindowOver width limit times now) (hlimit : 1 ≤ limit)
    (hwidth : 0 < width) : WindowOpen width limit (times ++ [now]) now 1 where
  count_le := hlimit
  since := by
    have hnone : times.countP (fun a => now ≤ a) = 0 := by
      rw [List.countP_eq_zero]
      intro a ha
      simpa using h.past a ha
    rw [List.countP_append, hnone]
    simp
  before := by
    have hlast : [now].countP (fun a => a < now ∧ now ≤ a + width) = 0 := by simp
    rw [List.countP_append, hlast, Nat.add_zero]
    refine Nat.le_trans (List.countP_mono_left fun a _ ha => ?_) h.recent
    simp only [decide_eq_true_eq] at ha ⊢
    exact ha.2
  within := by
    refine List.forall_mem_append.mpr ⟨fun a ha => ?_, List.forall_mem_singleton.mpr (by omega)⟩
    have hpast := h.past a ha
    omega

theorem WindowOver.bounded_admit (h : WindowOver width limit times now) (hlimit : 1 ≤ limit)
    (hbound : WindowBounded width limit times) : WindowBounded width limit (times ++ [now]) := by
  intro t
  rw [List.countP_append, List.countP_singleton]
  split_ifs with hin
  · simp only [decide_eq_true_eq] at hin
    -- What else is in the interval is less than a window ago.
    have hrest : times.countP (fun a => t ≤ a ∧ a ≤ t + width) ≤ limit := by
      refine Nat.le_trans (List.countP_mono_left fun a _ ha => ?_) h.recent
      simp only [decide_eq_true_eq] at ha ⊢
      omega
    omega
  · exact hbound t

/-- An admission in the open window counts. -/
theorem WindowOpen.admit (h : WindowOpen width limit times start count) (hcount : count < limit)
    (hstart : start ≤ now) (hnow : now < start + width) :
    WindowOpen width limit (times ++ [now]) start (count + 1) where
  count_le := hcount
  since := by
    have hsince := h.since
    rw [List.countP_append, List.countP_singleton]
    split_ifs <;> omega
  before := by
    have hlast : [now].countP (fun a => a < start ∧ start ≤ a + width) = 0 := by
      simp [Nat.not_lt.mpr hstart]
    rw [List.countP_append, hlast]
    exact h.before
  within := List.forall_mem_append.mpr ⟨h.within, List.forall_mem_singleton.mpr hnow⟩

theorem WindowOpen.bounded_admit (h : WindowOpen width limit times start count)
    (hcount : count < limit) (hstart : start ≤ now) (hbound : WindowBounded width limit times) :
    WindowBounded width limit (times ++ [now]) := by
  intro t
  rw [List.countP_append, List.countP_singleton]
  split_ifs with hin
  · simp only [decide_eq_true_eq] at hin
    -- What else is in the interval is in this window or in the one before.
    have hrest : times.countP (fun a => t ≤ a ∧ a ≤ t + width) ≤
        times.countP (fun a => start ≤ a) +
          times.countP (fun a => a < start ∧ start ≤ a + width) := by
      refine countP_le_add (fun a ha => ?_) times
      simp only [decide_eq_true_eq] at ha ⊢
      omega
    have hsince := h.since
    have hbefore := h.before
    omega
  · exact hbound t

end CS
