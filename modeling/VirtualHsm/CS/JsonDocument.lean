import Mathlib.Data.List.Forall2
import Mathlib.Data.List.Induction
import Mathlib.Data.String.Basic

/-!
# JSON documents

A document is what a parser finds in a text: fields stand in their order, and a name may come twice.
A library that keeps an object as a sorted map lets the last value win.
-/

namespace CS

/-- A document. A number with a fraction or an exponent is `mantissa * 10 ^ exponent`. -/
inductive JsonDoc
  | null
  | bool (b : Bool)
  | int (n : Int)
  | real (mantissa exponent : Int)
  | str (s : String)
  | arr (elems : List JsonDoc)
  | obj (fields : List (String × JsonDoc))

/-- A parser of texts. The empty text is no document. -/
structure JsonParser where
  parse : String → Option JsonDoc
  parse_empty : parse "" = none

/-! ### Maps -/

section Map

variable {α β : Type} {r : α → β → Prop}

/-- The last value under the name. -/
def lastValue (fields : List (String × α)) (name : String) : Option α :=
  fields.reverse.lookup name

/-- Store a value in a map that is sorted by names. -/
def insertField (name : String) (v : α) : List (String × α) → List (String × α)
  | [] => [(name, v)]
  | (k, w) :: rest =>
    if name < k then (name, v) :: (k, w) :: rest
    else if name = k then (k, v) :: rest
    else (k, w) :: insertField name v rest

/-- The fields of an object as a sorted map. -/
def toMap (fields : List (String × α)) : List (String × α) :=
  fields.foldl (fun m f => insertField f.1 f.2 m) []

theorem lookup_cons_ite (k name : String) (v : α) (m : List (String × α)) :
    ((k, v) :: m).lookup name = if name = k then some v else m.lookup name := by
  by_cases hname : name = k
  · rw [if_pos hname, hname, List.lookup_cons_self]
  · rw [if_neg hname, List.lookup_cons, beq_eq_false_iff_ne.mpr hname]

theorem lookup_insertField (name k : String) (v : α) (m : List (String × α)) :
    (insertField name v m).lookup k = if k = name then some v else m.lookup k := by
  induction m with
  | nil => exact lookup_cons_ite name k v []
  | cons f rest ih =>
    obtain ⟨k', w⟩ := f
    unfold insertField
    by_cases hlt : name < k'
    · rw [if_pos hlt, lookup_cons_ite]
    by_cases heq : name = k'
    · subst heq
      rw [if_neg hlt, if_pos rfl, lookup_cons_ite, lookup_cons_ite]
      by_cases hk : k = name
      · rw [if_pos hk, if_pos hk]
      · rw [if_neg hk, if_neg hk, if_neg hk]
    · rw [if_neg hlt, if_neg heq, lookup_cons_ite, ih, lookup_cons_ite]
      by_cases hk : k = name
      · have hne : k ≠ k' := fun h => heq (hk.symm.trans h)
        rw [if_neg hne, if_pos hk, if_pos hk]
      · rw [if_neg hk, if_neg hk]

/-- In the map the last value wins. -/
theorem lookup_toMap (fields : List (String × α)) (name : String) :
    (toMap fields).lookup name = lastValue fields name := by
  induction fields using List.reverseRecOn with
  | nil => rfl
  | append_singleton fields f ih =>
    rw [toMap, List.foldl_concat, lookup_insertField, lastValue, List.reverse_concat,
      lookup_cons_ite]
    exact congrArg _ ih

/-- A name that comes once at most has no other value than the last one. -/
theorem map_filter_eq_lastValue {fields : List (String × α)} {name : String}
    (h : (fields.filter fun f => f.1 = name).length ≤ 1) :
    (fields.filter fun f => f.1 = name).map (·.2) = (lastValue fields name).toList := by
  induction fields using List.reverseRecOn with
  | nil => rfl
  | append_singleton fields f ih =>
    rw [List.filter_append, List.length_append] at h
    rw [List.filter_append, List.map_append, lastValue, List.reverse_concat, lookup_cons_ite]
    by_cases hname : f.1 = name
    · -- The last field has the name, so no other has.
      have hlast : [f].filter (fun f => f.1 = name) = [f] := by simp [hname]
      rw [hlast] at h ⊢
      have hnone : fields.filter (fun f => f.1 = name) = [] := by
        apply List.eq_nil_of_length_eq_zero
        simp only [List.length_singleton] at h
        omega
      rw [hnone, if_pos hname.symm]
      rfl
    · have hlast : [f].filter (fun f => f.1 = name) = [] := by simp [hname]
      rw [hlast] at h ⊢
      rw [if_neg (Ne.symm hname), List.map_nil, List.append_nil]
      exact ih (by simpa using h)

/-- Two fields with one name and related values. -/
def FieldRel (r : α → β → Prop) (f : String × α) (g : String × β) : Prop := f.1 = g.1 ∧ r f.2 g.2

theorem forall₂_insertField {m : List (String × α)} {m' : List (String × β)} {name : String} {v : α}
    {w : β} (hm : List.Forall₂ (FieldRel r) m m') (hv : r v w) :
    List.Forall₂ (FieldRel r) (insertField name v m) (insertField name w m') := by
  induction hm with
  | nil => exact .cons ⟨rfl, hv⟩ .nil
  | @cons f g rest rest' hfirst hrest ih =>
    obtain ⟨k, x⟩ := f
    obtain ⟨k', y⟩ := g
    obtain ⟨rfl, hxy⟩ := hfirst
    unfold insertField
    split_ifs
    · exact .cons ⟨rfl, hv⟩ (.cons ⟨rfl, hxy⟩ hrest)
    · exact .cons ⟨rfl, hv⟩ hrest
    · exact .cons ⟨rfl, hxy⟩ ih

/-- Maps are made from names alone. -/
theorem forall₂_toMap {fields : List (String × α)} {fields' : List (String × β)}
    (h : List.Forall₂ (FieldRel r) fields fields') :
    List.Forall₂ (FieldRel r) (toMap fields) (toMap fields') := by
  have hfold {m : List (String × α)} {m' : List (String × β)}
      (hm : List.Forall₂ (FieldRel r) m m') :
      List.Forall₂ (FieldRel r) (fields.foldl (fun m f => insertField f.1 f.2 m) m)
        (fields'.foldl (fun m f => insertField f.1 f.2 m) m') := by
    induction h generalizing m m' with
    | nil => exact hm
    | cons hfirst _ ih =>
      obtain ⟨hname, hvalue⟩ := hfirst
      rw [List.foldl_cons, List.foldl_cons, hname]
      exact ih (forall₂_insertField hm hvalue)
  exact hfold .nil

theorem lookup_of_forall₂ {m : List (String × α)} {m' : List (String × β)}
    (hm : List.Forall₂ (FieldRel r) m m') (name : String) :
    Option.Rel r (m.lookup name) (m'.lookup name) := by
  induction hm with
  | nil => exact .none
  | @cons f g rest rest' hfirst _ ih =>
    rw [lookup_cons_ite f.1, lookup_cons_ite g.1, hfirst.1]
    by_cases hname : name = g.1
    · rw [if_pos hname, if_pos hname]
      exact .some hfirst.2
    · rw [if_neg hname, if_neg hname]
      exact ih

end Map

/-- Members of related lists. -/
theorem exists_mem_left {α β : Type} {r : α → β → Prop} {l : List α} {l' : List β}
    (h : List.Forall₂ r l l') {b : β} (hb : b ∈ l') : ∃ a ∈ l, r a b := by
  induction h with
  | nil => cases hb
  | cons hfirst _ ih =>
    rcases List.mem_cons.mp hb with rfl | hrest
    · exact ⟨_, List.mem_cons_self, hfirst⟩
    · obtain ⟨a, ha, hab⟩ := ih hrest
      exact ⟨a, List.mem_cons_of_mem _ ha, hab⟩

theorem exists_mem_right {α β : Type} {r : α → β → Prop} {l : List α} {l' : List β}
    (h : List.Forall₂ r l l') {a : α} (ha : a ∈ l) : ∃ b ∈ l', r a b := by
  obtain ⟨b, hb, hab⟩ := exists_mem_left h.flip ha
  exact ⟨b, hb, hab⟩

end CS
