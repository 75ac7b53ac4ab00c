import Mathlib.Data.List.Basic

/-!
# Hash chains

Records that name the hash of the record before them. When no two records of a chain that name
different predecessors have the same hash, and no hash is the one in front of the first record,
then a chain made of records of another one is the beginning of it.
-/

namespace CS

variable {ρ η : Type*} (prev hash : ρ → η)

/-- The first record names `p`, every other one the hash of the record before it. -/
def Linked : η → List ρ → Prop
  | _, [] => True
  | p, e :: es => prev e = p ∧ Linked (hash e) es

/-- The hash of the last record, and `p` where there is none. -/
def lastHash : η → List ρ → η
  | p, [] => p
  | _, e :: es => lastHash (hash e) es

variable {prev hash} {p : η} {es all : List ρ}

theorem linked_concat {e : ρ} :
    Linked prev hash p (es ++ [e]) ↔ Linked prev hash p es ∧ prev e = lastHash hash p es := by
  induction es generalizing p with
  | nil => simp [Linked, lastHash]
  | cons d es ih =>
    rw [List.cons_append, Linked, ih, Linked, and_assoc]
    rfl

theorem lastHash_concat (p : η) (es : List ρ) (e : ρ) : lastHash hash p (es ++ [e]) = hash e := by
  induction es generalizing p with
  | nil => rfl
  | cons d es ih => exact ih _

theorem lastHash_of_getLast? {e : ρ} (h : es.getLast? = some e) (p : η) :
    lastHash hash p es = hash e := by
  obtain ⟨front, rfl⟩ := List.getLast?_eq_some_iff.mp h
  exact lastHash_concat p front e

theorem Linked.prev_head (h : Linked prev hash p es) {e : ρ} (he : es[0]? = some e) :
    prev e = p := by
  cases es with
  | nil => cases he
  | cons x xs =>
    obtain rfl : x = e := by simpa using he
    exact h.1

theorem Linked.prev_succ (h : Linked prev hash p es) {k : Nat} {e : ρ} (he : es[k + 1]? = some e) :
    ∃ d, es[k]? = some d ∧ prev e = hash d := by
  induction es generalizing p k with
  | nil => cases he
  | cons x xs ih =>
    rw [List.getElem?_cons_succ] at he
    cases k with
    | zero => exact ⟨x, rfl, h.2.prev_head he⟩
    | succ k => exact ih h.2 he

section Distinct

variable (hinj : ∀ a ∈ all, ∀ b ∈ all, hash a = hash b → prev a = prev b)
  (hne : ∀ e ∈ all, hash e ≠ p)
include hinj hne

/-- Two records with one hash would name one predecessor, and so on back to the first record. -/
theorem Linked.hash_ne (h : Linked prev hash p all) {i j : Nat} (hij : i < j) {a b : ρ}
    (ha : all[i]? = some a) (hb : all[j]? = some b) : hash a ≠ hash b := by
  induction i generalizing j a b with
  | zero =>
    obtain ⟨j, rfl⟩ := Nat.exists_eq_succ_of_ne_zero (Nat.ne_of_gt hij)
    obtain ⟨c, hc, hprev⟩ := h.prev_succ hb
    intro heq
    have hsame := hinj a (List.mem_of_getElem? ha) b (List.mem_of_getElem? hb) heq
    rw [h.prev_head ha, hprev] at hsame
    exact hne c (List.mem_of_getElem? hc) hsame.symm
  | succ i ih =>
    obtain ⟨j, rfl⟩ := Nat.exists_eq_succ_of_ne_zero (Nat.ne_zero_of_lt hij)
    obtain ⟨c, hc, hprev⟩ := h.prev_succ ha
    obtain ⟨d, hd, hprev'⟩ := h.prev_succ hb
    intro heq
    have hsame := hinj a (List.mem_of_getElem? ha) b (List.mem_of_getElem? hb) heq
    rw [hprev, hprev'] at hsame
    exact ih (Nat.lt_of_succ_lt_succ hij) hc hd hsame

theorem Linked.index_eq (h : Linked prev hash p all) {i j : Nat} {a b : ρ}
    (ha : all[i]? = some a) (hb : all[j]? = some b) (heq : hash a = hash b) : i = j := by
  rcases Nat.lt_trichotomy i j with hlt | rfl | hlt
  · exact absurd heq (h.hash_ne hinj hne hlt ha hb)
  · rfl
  · exact absurd heq.symm (h.hash_ne hinj hne hlt hb ha)

theorem Linked.prefix_of_subset (h : Linked prev hash p all) (h' : Linked prev hash p es)
    (hsub : ∀ e ∈ es, e ∈ all) : es <+: all := by
  rw [List.prefix_iff_getElem?]
  intro k hk
  -- The record at each place is some record of the long chain; its predecessor says which.
  induction k with
  | zero =>
    have he : es[0]? = some es[0] := List.getElem?_eq_getElem hk
    obtain ⟨j, hj⟩ := List.mem_iff_getElem?.mp (hsub es[0] (List.getElem_mem hk))
    cases j with
    | zero => rw [hj]
    | succ j =>
      obtain ⟨c, hc, hprev⟩ := h.prev_succ hj
      rw [h'.prev_head he] at hprev
      exact absurd hprev.symm (hne c (List.mem_of_getElem? hc))
  | succ k ih =>
    have he : es[k + 1]? = some es[k + 1] := List.getElem?_eq_getElem hk
    obtain ⟨d, hd, hprev⟩ := h'.prev_succ he
    have hd' : all[k]? = some d := by
      rw [ih (Nat.lt_of_succ_lt hk), ← List.getElem?_eq_getElem, hd]
    obtain ⟨j, hj⟩ := List.mem_iff_getElem?.mp (hsub es[k + 1] (List.getElem_mem hk))
    cases j with
    | zero =>
      rw [h.prev_head hj] at hprev
      exact absurd hprev.symm (hne d (List.mem_of_getElem? hd'))
    | succ j =>
      obtain ⟨c, hc, hprev'⟩ := h.prev_succ hj
      have hcd : hash c = hash d := hprev'.symm.trans hprev
      obtain rfl := h.index_eq hinj hne hc hd' hcd
      rw [hj]

end Distinct

end CS
