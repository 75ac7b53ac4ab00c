import VirtualHsm.Keystore.ObjectStore

/-!
# What a call does to an object store

Every call of the application interface changes a session's store in one of a few ways: it
leaves it alone, creates one object or a key pair and destroys them again when filling them
fails, writes attributes, or destroys an object.
-/

namespace VirtualHsm

/-- An object under construction: as it is created, as it is filled through its pointer, and the
code that filling returned. Filling writes attributes only. -/
structure Built where
  bare : BareObject
  built : HsmObject
  rv : CkRv
  sameFields : SameFields bare.object built

inductive StoreEdit
  | keep
  | build (b : Built)
  /-- A key pair; the private key `old`, if it exists, is superseded. -/
  | buildPair (pub priv : Built) (old : CkUlong)
  | setAttributes (handle : CkUlong) (templ : List CkAttribute)
  | destroy (handle : CkUlong)

/-- The loop of `C_SetAttributeValue`: every entry is tried, the last refusal is reported. -/
def HsmObject.setAttributes (o : HsmObject) (templ : List CkAttribute) : CkRv × HsmObject :=
  templ.foldl (fun r a =>
    let w := r.2.setAttributeChecked a
    -- Entries after a refused one are still written.
    (if w.1 = .ok then r.1 else w.1, w.2)) (.ok, o)

namespace ObjectStore

variable (st : ObjectStore)

/-- Create an object and fill it through its pointer. -/
def fill (b : Built) : ObjectStore := (st.createObject b.bare.object).2.setObject st.newHandle b.built

/-- Create and fill an object, and destroy it when filling failed. -/
def build (b : Built) : ObjectStore :=
  if b.rv = .ok then st.fill b else ((st.fill b).destroyObject st.newHandle).2

/-- Change the life-cycle state of an object through its pointer. -/
def setKeyState (handle : CkUlong) (s : KeyState) : ObjectStore :=
  match st.getObject handle with
  | some o => st.setObject handle (o.setKeyState s)
  | none => st

/-- Create and fill two keys; both are destroyed when filling failed, and otherwise the
superseded key is marked. -/
def buildPair (pub priv : Built) (old : CkUlong) : ObjectStore :=
  let both := (st.fill pub).fill priv
  if priv.rv = .ok then
    if old ≠ ckInvalidHandle then both.setKeyState old .rotating else both
  else
    -- The public key was created first.
    ((both.destroyObject st.newHandle).2.destroyObject (st.fill pub).newHandle).2

/-- Write attributes through the object's pointer; the indices follow only when every entry was
accepted. -/
def setAttributes (handle : CkUlong) (templ : List CkAttribute) : ObjectStore :=
  match st.getObject handle with
  | some o =>
    let r := o.setAttributes templ
    let written := st.setObject handle r.2
    if r.1 = .ok then written.reindex handle else written
  | none => st

def edit : StoreEdit → ObjectStore
  | .keep => st
  | .build b => st.build b
  | .buildPair pub priv old => st.buildPair pub priv old
  | .setAttributes handle templ => st.setAttributes handle templ
  | .destroy handle => (st.destroyObject handle).2

variable {st} {handle : CkUlong} {o o' : HsmObject} {b : Built}

/-! ### Slots -/

theorem slot_fill (i : UInt32) :
    (st.fill b).slot i =
      if i = st.table.allocIndex then some (st.table.allocVersion, b.built) else st.slot i := by
  rw [fill, slot_setObject getObject_createObject, slot_createObject, newHandle,
    extractIndex_composeHandle, extractVersion_composeHandle]
  split_ifs <;> rfl

theorem getObject_fill : (st.fill b).getObject st.newHandle = some b.built := by
  rw [newHandle, getObject_composeHandle, slot_fill, if_pos rfl]

theorem size_fill_le : (st.fill b).size ≤ st.size + 1 := by
  rw [fill, size_setObject]
  exact size_createObject_le

/-! ### New objects

Below the capacity a new object takes a slot that was free, so that every other one stays. -/

theorem slot_allocIndex (hcap : st.size < 2 ^ 32) : st.slot st.table.allocIndex = none :=
  st.table.get_allocIndex hcap

theorem allocIndex_fill_ne (hcap : st.size + 1 < 2 ^ 32) {b : Built} :
    (st.fill b).table.allocIndex ≠ st.table.allocIndex := by
  intro heq
  have hfree := slot_allocIndex (Nat.lt_of_le_of_lt (size_fill_le (b := b)) hcap)
  rw [heq, slot_fill, if_pos rfl] at hfree
  cases hfree

theorem getObject_fill_eq (hcap : st.size < 2 ^ 32) (k : CkUlong) :
    (st.fill b).getObject k = if k = st.newHandle then some b.built else st.getObject k := by
  have hfree := slot_allocIndex hcap
  by_cases hk : k = st.newHandle
  · rw [if_pos hk, hk]
    exact getObject_fill
  · rw [if_neg hk]
    unfold getObject
    rw [slot_fill]
    by_cases hindex : extractIndex k = st.table.allocIndex
    · -- The slot was empty before, and its object now has another handle.
      have hversion : st.table.allocVersion ≠ extractVersion k := by
        intro hversion
        refine hk ?_
        rw [newHandle, hversion, ← hindex, composeHandle_extract]
      rw [if_pos hindex, hindex, hfree]
      simp only [if_neg hversion]
    · rw [if_neg hindex]

theorem newHandle_fill_ne : (st.fill b).newHandle ≠ st.newHandle := by
  intro heq
  have hnone := (st.fill b).getObject_newHandle
  rw [heq, getObject_fill] at hnone
  cases hnone

theorem getObject_newHandle_fill (hcap : st.size < 2 ^ 32) :
    st.getObject (st.fill b).newHandle = none := by
  have hnone := (st.fill b).getObject_newHandle
  rwa [getObject_fill_eq hcap, if_neg newHandle_fill_ne] at hnone

theorem ne_newHandle_of_some {k : CkUlong} (hk : st.getObject k = some o) : k ≠ st.newHandle := by
  rintro rfl
  rw [getObject_newHandle] at hk
  cases hk

theorem ne_newHandle_fill_of_some (hcap : st.size < 2 ^ 32) {k : CkUlong}
    (hk : st.getObject k = some o) : k ≠ (st.fill b).newHandle := by
  rintro rfl
  rw [getObject_newHandle_fill hcap] at hk
  cases hk

section Pair

variable {pub priv : Built} {old : CkUlong} (hcap : st.size + 1 < 2 ^ 32)
  (hrv : priv.rv = .ok) (hold : old = ckInvalidHandle ∨ (st.getObject old).isSome)
include hcap hrv hold

/-- Two new keys, and the one that they supersede. -/
theorem getObject_buildPair (k : CkUlong) :
    (st.buildPair pub priv old).getObject k =
      if k = (st.fill pub).newHandle then some priv.built
      else if k = st.newHandle then some pub.built
      else if k = old ∧ old ≠ ckInvalidHandle then (st.getObject k).map (·.setKeyState .rotating)
      else st.getObject k := by
  have hfirst : st.size < 2 ^ 32 := Nat.lt_of_succ_lt hcap
  have hsecond : (st.fill pub).size < 2 ^ 32 := Nat.lt_of_le_of_lt size_fill_le hcap
  have hboth (x : CkUlong) : ((st.fill pub).fill priv).getObject x =
      if x = (st.fill pub).newHandle then some priv.built
      else if x = st.newHandle then some pub.built else st.getObject x := by
    rw [getObject_fill_eq hsecond, getObject_fill_eq hfirst]
  simp only [buildPair, if_pos hrv]
  by_cases hnone : old = ckInvalidHandle
  · have hnot : ¬ (k = old ∧ old ≠ ckInvalidHandle) := fun h => h.2 hnone
    rw [if_neg (not_not.mpr hnone), hboth, if_neg hnot]
  · obtain ⟨o, ho⟩ := Option.isSome_iff_exists.mp (hold.resolve_left hnone)
    -- The superseded key is an old one, so it is neither of the new ones.
    have hnew := ne_newHandle_of_some ho
    have hnew' := ne_newHandle_fill_of_some (b := pub) hfirst ho
    have hlives : ((st.fill pub).fill priv).getObject old = some o := by
      rw [hboth, if_neg hnew', if_neg hnew, ho]
    rw [if_pos hnone, setKeyState, hlives]
    simp only [getObject_setObject hlives]
    by_cases hk : k = old
    · subst hk
      rw [if_pos rfl, if_neg hnew', if_neg hnew, if_pos ⟨rfl, hnone⟩, ho, Option.map_some]
    · have hnot : ¬ (k = old ∧ old ≠ ckInvalidHandle) := fun h => hk h.1
      rw [if_neg hk, hboth, if_neg hnot]

theorem getObject_buildPair_priv :
    (st.buildPair pub priv old).getObject (st.fill pub).newHandle = some priv.built := by
  rw [getObject_buildPair hcap hrv hold, if_pos rfl]

theorem getObject_buildPair_pub :
    (st.buildPair pub priv old).getObject st.newHandle = some pub.built := by
  rw [getObject_buildPair hcap hrv hold, if_neg newHandle_fill_ne.symm, if_pos rfl]

/-- An object that was there before has neither of the new handles. -/
theorem getObject_buildPair_of_some {k : CkUlong} (hk : st.getObject k = some o) :
    (st.buildPair pub priv old).getObject k =
      if k = old ∧ old ≠ ckInvalidHandle then some (o.setKeyState .rotating) else some o := by
  have hpriv := ne_newHandle_fill_of_some (b := pub) (Nat.lt_of_succ_lt hcap) hk
  rw [getObject_buildPair hcap hrv hold, if_neg hpriv, if_neg (ne_newHandle_of_some hk), hk,
    Option.map_some]

end Pair

/-! ### Living objects -/

end ObjectStore

/-- How calls change an object that stays alive: attributes are written through the checks, and
the life-cycle state is set. -/
inductive HsmObject.Evolves (o : HsmObject) : HsmObject → Prop
  | refl : Evolves o o
  | write {o' : HsmObject} (a : CkAttribute) : Evolves o o' → Evolves o (o'.setAttributeChecked a).2
  | keyState {o' : HsmObject} (s : KeyState) : Evolves o o' → Evolves o (o'.setKeyState s)

namespace HsmObject

theorem setAttributes_induction {P : HsmObject → Prop} {o : HsmObject} {templ : List CkAttribute}
    (ho : P o) (hwrite : ∀ o', ∀ a ∈ templ, P o' → P (o'.setAttributeChecked a).2) :
    P (o.setAttributes templ).2 := by
  -- The code that the loop carries along does not matter.
  have hloop : ∀ (entries : List CkAttribute) (r : CkRv × HsmObject), entries ⊆ templ → P r.2 →
      P (entries.foldl (fun r a =>
        let w := r.2.setAttributeChecked a
        (if w.1 = .ok then r.1 else w.1, w.2)) r).2 := by
    intro entries
    induction entries with
    | nil => exact fun _ _ h => h
    | cons a entries ih =>
      intro r hsub h
      obtain ⟨ha, hrest⟩ := List.cons_subset.mp hsub
      exact ih _ hrest (hwrite r.2 a ha h)
  exact hloop templ (.ok, o) (List.Subset.refl templ) ho

theorem evolves_setAttributes (o : HsmObject) (templ : List CkAttribute) :
    o.Evolves (o.setAttributes templ).2 :=
  setAttributes_induction .refl fun _ a _ h => .write a h

theorem Evolves.extractable {o o' : HsmObject} (h : o.Evolves o') (ho : o.extractable = false) :
    o'.extractable = false := by
  induction h with
  | refl => exact ho
  | write a _ ih => exact setAttributeChecked_extractable _ ih
  | keyState s _ ih => exact ih

theorem Evolves.type {o o' : HsmObject} (h : o.Evolves o') : o'.type = o.type := by
  induction h with
  | refl => rfl
  | write a _ ih => exact (setAttributeChecked_type _ a).trans ih
  | keyState s _ ih => exact ih

end HsmObject

namespace ObjectStore

variable {st : ObjectStore} {handle : CkUlong} {o o' : HsmObject}

private theorem add_one_ne (v : UInt32) : v + 1 ≠ v ∧ v + 1 + 1 ≠ v := by
  have hlt := v.toNat_lt
  constructor <;> intro h <;> have hnat := congrArg UInt32.toNat h <;>
    simp only [UInt32.toNat_add, UInt32.toNat_one] at hnat <;> omega

theorem getObject_fill_of_some {b : Built} (h : st.getObject handle = some o) :
    (st.fill b).getObject handle =
      if extractIndex handle = st.table.allocIndex then none else some o := by
  have hslot := getObject_eq_some_iff.mp h
  unfold getObject
  rw [slot_fill]
  split_ifs with hi
  · rw [hi] at hslot
    -- The creation used up the slot's version, so the old handle is dead.
    have hversion := st.table.allocVersion_of_get hslot
    simp [hversion, (add_one_ne _).1]
  · rw [hslot]
    simp

theorem getObject_fill_fill_of_some {b b' : Built} (h : st.getObject handle = some o)
    (h' : ((st.fill b).fill b').getObject handle = some o') : o' = o := by
  by_cases hi : extractIndex handle = st.table.allocIndex
  · -- The slot now has the handle's version plus one.
    have hversion := st.table.allocVersion_of_get (hi ▸ getObject_eq_some_iff.mp h)
    have hslot : (st.fill b).slot (extractIndex handle) =
        some (extractVersion handle + 1, b.built) := by
      rw [slot_fill, if_pos hi, hversion]
    rw [getObject_eq_some_iff, slot_fill] at h'
    split_ifs at h' with hi'
    · have hagain := (st.fill b).table.allocVersion_of_get (hi' ▸ hslot)
      rw [hagain] at h'
      exact absurd (Prod.mk.inj (Option.some.inj h')).1 (add_one_ne _).2
    · rw [hslot] at h'
      exact absurd (Prod.mk.inj (Option.some.inj h')).1 (add_one_ne _).1
  · have hfirst : (st.fill b).getObject handle = some o := by
      rw [getObject_fill_of_some h, if_neg hi]
    rw [getObject_fill_of_some hfirst] at h'
    split_ifs at h'
    exact (Option.some.inj h').symm

/-- Everything an edit can do to an object that is still alive after it: nothing, or it was
superseded, or its attributes were written. -/
theorem getObject_edit_cases {e : StoreEdit} (h : st.getObject handle = some o)
    (h' : (st.edit e).getObject handle = some o') :
    o' = o ∨
    (handle ≠ ckInvalidHandle ∧ (∃ pub priv, e = .buildPair pub priv handle) ∧
      o' = o.setKeyState .rotating) ∨
    (∃ templ, e = .setAttributes handle templ ∧ o' = (o.setAttributes templ).2) := by
  have hfill {b : Built} {x : HsmObject} (hx : (st.fill b).getObject handle = some x) : x = o := by
    rw [getObject_fill_of_some h] at hx
    split_ifs at hx
    exact (Option.some.inj hx).symm
  cases e with
  | keep => exact .inl (Option.mem_unique h' h)
  | build b =>
    rw [edit, build] at h'
    split_ifs at h' with hrv
    · exact .inl (hfill h')
    · exact .inl (hfill (getObject_of_destroyObject h'))
  | buildPair pub priv old =>
    simp only [edit, buildPair] at h'
    split_ifs at h' with hrv hold
    · unfold setKeyState at h'
      cases hkey : ((st.fill pub).fill priv).getObject old with
      | none =>
        rw [hkey] at h'
        exact .inl (getObject_fill_fill_of_some h h')
      | some x =>
        simp only [hkey, getObject_setObject hkey] at h'
        split_ifs at h' with hhandle
        · subst hhandle
          refine .inr (.inl ⟨hold, ⟨pub, priv, rfl⟩, ?_⟩)
          rw [← Option.some.inj h', getObject_fill_fill_of_some h hkey]
        · exact .inl (getObject_fill_fill_of_some h h')
    · exact .inl (getObject_fill_fill_of_some h h')
    · have hboth := getObject_of_destroyObject (getObject_of_destroyObject h')
      exact .inl (getObject_fill_fill_of_some h hboth)
  | setAttributes k templ =>
    simp only [edit, setAttributes] at h'
    cases hkey : st.getObject k with
    | none =>
      rw [hkey] at h'
      exact .inl (Option.mem_unique h' h)
    | some x =>
      -- Reindexing afterwards touches no object.
      have hwritten : (st.setObject k (x.setAttributes templ).2).getObject handle = some o' := by
        rw [hkey] at h'
        simp only at h'
        split_ifs at h'
        · rw [getObject_eq_some_iff, slot_reindex] at h'
          exact getObject_eq_some_iff.mpr h'
        · exact h'
      rw [getObject_setObject hkey] at hwritten
      split_ifs at hwritten with hhandle
      · subst hhandle
        obtain rfl := Option.mem_unique h hkey
        exact .inr (.inr ⟨templ, rfl, (Option.some.inj hwritten).symm⟩)
      · exact .inl (Option.mem_unique hwritten h)
  | destroy k => exact .inl (Option.mem_unique (getObject_of_destroyObject h') h)

theorem evolves_of_edit {e : StoreEdit} (h : st.getObject handle = some o)
    (h' : (st.edit e).getObject handle = some o') : o.Evolves o' := by
  rcases getObject_edit_cases h h' with rfl | ⟨-, -, rfl⟩ | ⟨templ, -, rfl⟩
  · exact .refl
  · exact .keyState .rotating .refl
  · exact o.evolves_setAttributes templ

end ObjectStore

end VirtualHsm
