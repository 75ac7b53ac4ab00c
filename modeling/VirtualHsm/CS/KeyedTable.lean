import Mathlib.Data.List.Basic
import Mathlib.Data.List.Nodup

/-!
# Tables with a primary key

A `KeyedTable key` is a list of rows with pairwise different keys, so that a key names at most one
row.
-/

namespace CS

/-- Rows with pairwise different keys. -/
structure KeyedTable {ρ κ : Type*} (key : ρ → κ) where
  rows : List ρ
  nodup : (rows.map key).Nodup

namespace KeyedTable

variable {ρ κ : Type*} {key : ρ → κ}

def empty : KeyedTable key := ⟨[], List.nodup_nil⟩

/-- Changes that keep a row's key keep the list of keys. -/
theorem map_key_map {f : ρ → ρ} (hf : ∀ r, key (f r) = key r) (rows : List ρ) :
    (rows.map f).map key = rows.map key := by
  rw [List.map_map]
  exact List.map_congr_left fun r _ => hf r

theorem key_ite {f : ρ → ρ} (hf : ∀ r, key (f r) = key r) (p : ρ → Prop) [DecidablePred p] (r : ρ) :
    key (if p r then f r else r) = key r := by
  split_ifs
  · exact hf r
  · rfl

variable [DecidableEq κ] (t : KeyedTable key)

/-- The row with a key. -/
def find (k : κ) : Option ρ := t.rows.find? fun r => key r = k

/-- Add a row at the end, unless its key is taken. -/
def insert (r : ρ) : Option (KeyedTable key) :=
  if h : key r ∈ t.rows.map key then none
  else
    some ⟨t.rows ++ [r], by
      rw [List.map_append, List.nodup_append]
      refine ⟨t.nodup, List.nodup_singleton _, ?_⟩
      rintro a ha b hb rfl
      rw [List.map_singleton, List.mem_singleton] at hb
      exact h (hb ▸ ha)⟩

omit [DecidableEq κ] in
/-- Remove the first row. -/
def tail : KeyedTable key where
  rows := t.rows.tail
  nodup := t.nodup.sublist ((List.tail_sublist t.rows).map key)

/-- Change the row with a key in place. -/
def modify (k : κ) (f : ρ → ρ) (hf : ∀ r, key (f r) = key r) : KeyedTable key where
  rows := t.rows.map fun r => if key r = k then f r else r
  nodup := by
    rw [map_key_map (key_ite hf fun r => key r = k)]
    exact t.nodup

/-- Remove the row with a key. -/
def erase (k : κ) : KeyedTable key where
  rows := t.rows.filter fun r => key r ≠ k
  nodup := t.nodup.sublist (List.filter_sublist.map key)

omit [DecidableEq κ] in
/-- Keep the rows that meet a condition. -/
def filter (p : ρ → Bool) : KeyedTable key where
  rows := t.rows.filter p
  nodup := t.nodup.sublist (List.filter_sublist.map key)

omit [DecidableEq κ] in
/-- Change every row that meets a condition. -/
def updateWhere (p : ρ → Prop) [DecidablePred p] (f : ρ → ρ) (hf : ∀ r, key (f r) = key r) :
    KeyedTable key where
  rows := t.rows.map fun r => if p r then f r else r
  nodup := by
    rw [map_key_map (key_ite hf p)]
    exact t.nodup

variable {t} {r : ρ} {k k' : κ} {f : ρ → ρ}

omit [DecidableEq κ] in
theorem map_key_updateWhere (p : ρ → Prop) [DecidablePred p] (hf : ∀ r, key (f r) = key r) :
    (t.updateWhere p f hf).rows.map key = t.rows.map key :=
  map_key_map (key_ite hf p) t.rows

theorem find_eq_some_iff : t.find k = some r ↔ r ∈ t.rows ∧ key r = k := by
  unfold find
  constructor
  · intro h
    exact ⟨List.mem_of_find?_eq_some h, by simpa using List.find?_some h⟩
  · rintro ⟨hmem, rfl⟩
    obtain ⟨r', hr'⟩ : ∃ r', t.rows.find? (fun x => key x = key r) = some r' :=
      Option.isSome_iff_exists.mp (List.find?_isSome.mpr ⟨r, hmem, by simp⟩)
    -- The first row with the key is the only one.
    have hkey : key r' = key r := by simpa using List.find?_some hr'
    rw [hr', List.inj_on_of_nodup_map t.nodup (List.mem_of_find?_eq_some hr') hmem hkey]

theorem find_eq_none_iff : t.find k = none ↔ k ∉ t.rows.map key := by
  simp [find, List.find?_eq_none]

/-- A row is inserted at the end, and only under a key that is free. -/
theorem insert_eq_some {t' : KeyedTable key} (h : t.insert r = some t') :
    key r ∉ t.rows.map key ∧ t'.rows = t.rows ++ [r] := by
  unfold insert at h
  split_ifs at h with hnew
  cases h
  exact ⟨hnew, rfl⟩

/-- An inserted row is found, and the others as before. -/
theorem find_insert {t' : KeyedTable key} (h : t.insert r = some t') :
    t'.find k = if k = key r then some r else t.find k := by
  obtain ⟨hnew, hrows⟩ := insert_eq_some h
  rw [find, hrows, List.find?_append]
  by_cases hk : k = key r
  · subst hk
    have hnone : t.rows.find? (fun x => key x = key r) = none := find_eq_none_iff.mpr hnew
    simp [hnone]
  · rw [if_neg hk, List.find?_cons_of_neg (by simpa using Ne.symm hk), List.find?_nil, Option.or_none]
    rfl

theorem exists_insert (h : t.find (key r) = none) : ∃ t', t.insert r = some t' :=
  ⟨_, dif_neg (find_eq_none_iff.mp h)⟩

/-- Without the first row, its key finds nothing, and the others what they found. -/
theorem find_tail :
    t.tail.find k = (t.find k).filter fun r => t.rows.head?.map key ≠ some (key r) := by
  ext r
  rw [Option.filter_eq_some_iff, find_eq_some_iff, find_eq_some_iff]
  change r ∈ t.rows.tail ∧ key r = k ↔ _
  have hnodup := t.nodup
  cases hrows : t.rows with
  | nil => simp
  | cons first rest =>
    rw [hrows, List.map_cons, List.nodup_cons] at hnodup
    have hrest (hr : r ∈ rest) : key first ≠ key r := fun heq =>
      hnodup.1 (heq ▸ List.mem_map_of_mem hr)
    simp only [List.tail_cons, List.mem_cons, List.head?_cons, Option.map_some, ne_eq,
      Option.some.injEq, decide_not, Bool.not_eq_eq_eq_not, Bool.not_true,
      decide_eq_false_iff_not]
    constructor
    · rintro ⟨hr, hk⟩
      exact ⟨⟨.inr hr, hk⟩, hrest hr⟩
    · rintro ⟨⟨rfl | hr, hk⟩, hne⟩
      · exact absurd rfl hne
      · exact ⟨hr, hk⟩

theorem find_erase : (t.erase k).find k' = if k' = k then none else t.find k' := by
  unfold find erase
  rw [List.find?_filter]
  by_cases hk : k' = k
  · rw [if_pos hk]
    subst hk
    simp [List.find?_eq_none]
  · rw [if_neg hk]
    congr 1
    funext r
    -- A row under another key is not removed.
    by_cases hr : key r = k'
    · simp [hr, hk]
    · simp [hr]

/-- A row that is kept is the only one under its key, so it is found as before. -/
theorem find_filter (p : ρ → Bool) : (t.filter p).find k = (t.find k).filter p := by
  ext r
  rw [Option.filter_eq_some_iff, find_eq_some_iff, find_eq_some_iff]
  change r ∈ t.rows.filter p ∧ key r = k ↔ _
  rw [List.mem_filter, and_right_comm]

/-- Removing the first row with a key removes the row with the key. -/
theorem eraseP_rows : (t.rows.eraseP fun r => key r = k) = (t.erase k).rows := by
  have hnodup := t.nodup
  change _ = t.rows.filter _
  generalize t.rows = rows at hnodup ⊢
  induction rows with
  | nil => rfl
  | cons r rows ih =>
    rw [List.map_cons, List.nodup_cons] at hnodup
    by_cases hr : key r = k
    · -- No later row has the key.
      have hrest : ∀ x ∈ rows, key x ≠ k := fun x hx heq =>
        hnodup.1 (List.mem_map.mpr ⟨x, hx, heq.trans hr.symm⟩)
      rw [List.eraseP_cons_of_pos (by simpa using hr), List.filter_cons_of_neg (by simpa using hr)]
      exact (List.filter_eq_self.mpr (by simpa using hrest)).symm
    · rw [List.eraseP_cons_of_neg (by simpa using hr), List.filter_cons_of_pos (by simpa using hr),
        ih hnodup.2]

theorem find_modify (hf : ∀ r, key (f r) = key r) :
    (t.modify k f hf).find k' = (t.find k').map fun r => if k' = k then f r else r := by
  change (t.rows.map _).find? _ = _
  rw [List.find?_map]
  have hpred : ((fun r => decide (key r = k')) ∘ fun r => if key r = k then f r else r) =
      fun r => decide (key r = k') := by
    funext r
    simp only [Function.comp, key_ite hf fun r => key r = k]
  rw [hpred]
  change (t.find k').map _ = _
  cases hfind : t.find k' with
  | none => rfl
  | some r =>
    rw [Option.map_some, Option.map_some, (find_eq_some_iff.mp hfind).2]

end KeyedTable

end CS
