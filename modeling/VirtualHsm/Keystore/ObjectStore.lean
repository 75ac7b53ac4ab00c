import VirtualHsm.CS.Multimap
import VirtualHsm.CS.SlotTable
import VirtualHsm.Keystore.HsmObject

/-!
# The object store

Objects live in a versioned slot table; a handle packs slot index and version. Three
secondary indices (by label, by identifier, by class number) are filled when an object is
created, and only rebuilt for an object by `reindex`. `findAllByAttributes` narrows its
candidates through the indices and then compares the template with the attribute map.
-/

namespace VirtualHsm

/-! ### Handles -/

/-- Slot index in the upper, version in the lower 32 bits. -/
def composeHandle (index version : UInt32) : CkUlong :=
  (index.toUInt64 <<< 32) ||| version.toUInt64

def extractIndex (handle : CkUlong) : UInt32 := (handle >>> 32).toUInt32

def extractVersion (handle : CkUlong) : UInt32 := handle.toUInt32

variable (index version : UInt32)

theorem toNat_composeHandle :
    (composeHandle index version).toNat = index.toNat * 2 ^ 32 + version.toNat := by
  have hindex := index.toNat_lt
  have hversion := version.toNat_lt
  have hshift : (index.toNat <<< 32) % 2 ^ 64 = index.toNat <<< 32 :=
    Nat.mod_eq_of_lt (by rw [Nat.shiftLeft_eq]; omega)
  rw [composeHandle, UInt64.toNat_or, UInt64.toNat_shiftLeft]
  simp only [UInt32.toNat_toUInt64]
  change index.toNat <<< (32 % 64) % 2 ^ 64 ||| version.toNat = _
  rw [show 32 % 64 = 32 from rfl, hshift, ← Nat.shiftLeft_add_eq_or_of_lt hversion,
    Nat.shiftLeft_eq]

@[simp] theorem extractIndex_composeHandle :
    extractIndex (composeHandle index version) = index := by
  apply UInt32.toNat_inj.mp
  have hindex := index.toNat_lt
  have hversion := version.toNat_lt
  rw [extractIndex, UInt64.toNat_toUInt32, UInt64.toNat_shiftRight, toNat_composeHandle]
  change (index.toNat * 2 ^ 32 + version.toNat) >>> 32 % 2 ^ 32 = _
  rw [Nat.shiftRight_eq_div_pow]
  omega

@[simp] theorem extractVersion_composeHandle :
    extractVersion (composeHandle index version) = version := by
  apply UInt32.toNat_inj.mp
  have hversion := version.toNat_lt
  rw [extractVersion, UInt64.toNat_toUInt32, toNat_composeHandle]
  omega

theorem composeHandle_extract (handle : CkUlong) :
    composeHandle (extractIndex handle) (extractVersion handle) = handle := by
  apply UInt64.toNat_inj.mp
  have hhandle := handle.toNat_lt
  rw [toNat_composeHandle, extractIndex, extractVersion, UInt64.toNat_toUInt32,
    UInt64.toNat_toUInt32, UInt64.toNat_shiftRight]
  change handle.toNat >>> 32 % 2 ^ 32 * 2 ^ 32 + handle.toNat % 2 ^ 32 = _
  rw [Nat.shiftRight_eq_div_pow]
  omega

/-! ### The store -/

/-- The objects of a session or token, with their secondary indices. -/
structure ObjectStore where
  table : CS.SlotTable HsmObject := CS.SlotTable.empty
  labelIndex : CS.Multimap Bytes UInt32 := {}
  idIndex : CS.Multimap Bytes UInt32 := {}
  classIndex : CS.Multimap UInt32 UInt32 := {}

/-- The label under which an object is indexed; empty means not at all. -/
def HsmObject.extractLabel (o : HsmObject) : Bytes := (o.findAttribute ckaLabel).getD []

/-- The identifier under which an object is indexed: the attribute if it is not empty, else the
field. -/
def HsmObject.extractId (o : HsmObject) : Bytes :=
  match o.findAttribute ckaId with
  | some (b :: bs) => b :: bs
  | _ => o.getId

namespace ObjectStore

variable (st : ObjectStore)

/-- Version and object of an occupied slot. -/
def slot (i : UInt32) : Option (UInt32 × HsmObject) := st.table.get i

/-- Number of slots, occupied or free. -/
def size : Nat := st.table.entries.length

def indexInsert (i : UInt32) (o : HsmObject) : ObjectStore :=
  { st with
    labelIndex :=
      if o.extractLabel = [] then st.labelIndex else st.labelIndex.insert o.extractLabel i
    idIndex := if o.extractId = [] then st.idIndex else st.idIndex.insert o.extractId i
    classIndex := st.classIndex.insert o.type.toNum i }

/-- Remove one entry of the slot from each index, under the keys the object has now. -/
def indexRemove (i : UInt32) (o : HsmObject) : ObjectStore :=
  { st with
    labelIndex :=
      if o.extractLabel = [] then st.labelIndex else st.labelIndex.eraseOne o.extractLabel i
    idIndex := if o.extractId = [] then st.idIndex else st.idIndex.eraseOne o.extractId i
    classIndex := st.classIndex.eraseOne o.type.toNum i }

/-- The handle `createObject` returns. -/
def newHandle : CkUlong := composeHandle st.table.allocIndex st.table.allocVersion

/-- `v_create_object`: occupy a slot and index the object as it is at this moment. -/
def createObject (o : HsmObject) : CkUlong × ObjectStore :=
  (st.newHandle, { st with table := st.table.alloc o }.indexInsert st.table.allocIndex o)

def getObject (handle : CkUlong) : Option HsmObject :=
  match st.slot (extractIndex handle) with
  | some (version, o) => if version = extractVersion handle then some o else none
  | none => none

def isValidHandle (handle : CkUlong) : Bool := (st.getObject handle).isSome

/-- `v_destroy_object`: unindex the object under its present keys and release its slot. -/
def destroyObject (handle : CkUlong) : Bool × ObjectStore :=
  match st.getObject handle with
  | some o =>
    -- Entries under keys that the object had before stay behind.
    (true, { st.indexRemove (extractIndex handle) o with
      table := st.table.release (extractIndex handle) })
  | none => (false, st)

/-- Write through the pointer that `v_get_object` or `v_create_object` handed out. The indices
are not touched. -/
def setObject (handle : CkUlong) (o : HsmObject) : ObjectStore :=
  match st.getObject handle with
  | some _ => { st with table := st.table.modify (extractIndex handle) fun _ => o }
  | none => st

/-- `v_reindex`: drop every index entry of the slot and index the object anew. -/
def reindex (handle : CkUlong) : ObjectStore :=
  match st.getObject handle with
  | some o =>
    { st with
      labelIndex := st.labelIndex.eraseValue (extractIndex handle)
      idIndex := st.idIndex.eraseValue (extractIndex handle)
      classIndex := st.classIndex.eraseValue (extractIndex handle) }.indexInsert
        (extractIndex handle) o
  | none => st

def allHandles : List CkUlong := st.table.occupied.map fun s => composeHandle s.1 s.2.1

/-- `v_find_object_if`: the first object, by slot, that meets the predicate. -/
def findObjectIf (pred : HsmObject → Bool) : Option (CkUlong × HsmObject) :=
  (st.table.occupied.find? fun s => pred s.2.2).map fun s => (composeHandle s.1 s.2.1, s.2.2)

/-! ### What the operations do to a slot -/

variable {st} {handle : CkUlong} {o o' : HsmObject}

theorem getObject_eq_some_iff :
    st.getObject handle = some o ↔
      st.slot (extractIndex handle) = some (extractVersion handle, o) := by
  unfold getObject
  cases hslot : st.slot (extractIndex handle) with
  | none => simp
  | some s =>
    obtain ⟨version, o'⟩ := s
    by_cases hversion : version = extractVersion handle <;> simp [hversion]

@[simp] theorem getObject_composeHandle {i version : UInt32} :
    st.getObject (composeHandle i version) = some o ↔ st.slot i = some (version, o) := by
  rw [getObject_eq_some_iff, extractIndex_composeHandle, extractVersion_composeHandle]

theorem mem_allHandles : handle ∈ st.allHandles ↔ ∃ o, st.getObject handle = some o := by
  simp only [allHandles, List.mem_map]
  constructor
  · rintro ⟨⟨i, version, o⟩, hmem, rfl⟩
    exact ⟨o, getObject_composeHandle.mpr (CS.SlotTable.mem_occupied.mp hmem)⟩
  · rintro ⟨o, ho⟩
    refine ⟨(extractIndex handle, extractVersion handle, o), ?_, composeHandle_extract handle⟩
    exact CS.SlotTable.mem_occupied.mpr (getObject_eq_some_iff.mp ho)

theorem slot_createObject (i : UInt32) :
    (st.createObject o).2.slot i =
      if i = st.table.allocIndex then some (st.table.allocVersion, o) else st.slot i :=
  CS.SlotTable.get_alloc st.table o i

theorem getObject_createObject : (st.createObject o).2.getObject st.newHandle = some o := by
  rw [newHandle, getObject_composeHandle, slot_createObject, if_pos rfl]

/-- The handle is new also when every slot is taken and an object is replaced: the version is the
next one. -/
theorem getObject_newHandle : st.getObject st.newHandle = none := by
  rw [Option.eq_none_iff_forall_ne_some]
  intro o ho
  have hslot : st.table.get st.table.allocIndex = some (st.table.allocVersion, o) :=
    getObject_composeHandle.mp ho
  have hversion := CS.SlotTable.allocVersion_of_get st.table hslot
  simp at hversion

theorem slot_destroyObject (h : st.getObject handle = some o) (i : UInt32) :
    (st.destroyObject handle).2.slot i =
      if i = extractIndex handle then none else st.slot i := by
  rw [destroyObject, h]
  exact CS.SlotTable.get_release st.table (extractIndex handle) i

theorem getObject_of_destroyObject {k : CkUlong}
    (h : (st.destroyObject k).2.getObject handle = some o) : st.getObject handle = some o := by
  cases hk : st.getObject k with
  | none =>
    rw [destroyObject, hk] at h
    exact h
  | some x =>
    rw [getObject_eq_some_iff, slot_destroyObject hk] at h
    split_ifs at h with hindex
    exact getObject_eq_some_iff.mpr h

theorem destroyObject_of_none (h : st.getObject handle = none) :
    st.destroyObject handle = (false, st) := by
  rw [destroyObject, h]

theorem slot_setObject (h : st.getObject handle = some o') (i : UInt32) :
    (st.setObject handle o).slot i =
      if i = extractIndex handle then some (extractVersion handle, o) else st.slot i := by
  have hslot := getObject_eq_some_iff.mp h
  rw [setObject, h]
  change (st.table.modify _ _).get i = _
  rw [CS.SlotTable.get_modify]
  unfold slot at hslot ⊢
  rw [hslot]
  rfl

theorem getObject_setObject {k : CkUlong} (h : st.getObject k = some o') :
    (st.setObject k o).getObject handle = if handle = k then some o else st.getObject handle := by
  have hslot := getObject_eq_some_iff.mp h
  unfold getObject
  rw [slot_setObject h]
  by_cases hindex : extractIndex handle = extractIndex k
  · rw [if_pos hindex, hindex, hslot]
    by_cases hk : handle = k
    · simp [hk]
    · have hversion : extractVersion k ≠ extractVersion handle := fun hv =>
        hk (by rw [← composeHandle_extract handle, ← composeHandle_extract k, hindex, hv])
      simp [hversion, hk]
  · have hk : handle ≠ k := fun hk => hindex (congrArg extractIndex hk)
    rw [if_neg hindex, if_neg hk]

theorem setObject_of_none (h : st.getObject handle = none) : st.setObject handle o = st := by
  rw [setObject, h]

@[simp] theorem slot_reindex (i : UInt32) : (st.reindex handle).slot i = st.slot i := by
  unfold reindex
  split <;> rfl

theorem size_createObject_le : (st.createObject o).2.size ≤ st.size + 1 :=
  st.table.length_alloc_le o

theorem size_setObject : (st.setObject handle o).size = st.size := by
  unfold setObject
  split
  · exact st.table.length_modify _ _
  · rfl

theorem slot_of_findObjectIf {pred : HsmObject → Bool}
    (h : st.findObjectIf pred = some (handle, o)) :
    pred o = true ∧
      ∃ i version, handle = composeHandle i version ∧ st.slot i = some (version, o) := by
  obtain ⟨⟨i, version, o'⟩, hfind, heq⟩ := Option.map_eq_some_iff.mp h
  obtain ⟨hhandle, rfl⟩ := Prod.mk.inj heq
  have hpred : pred o' = true := by simpa using List.find?_some hfind
  exact ⟨hpred, i, version, hhandle.symm,
    CS.SlotTable.mem_occupied.mp (List.mem_of_find?_eq_some hfind)⟩

theorem findObjectIf_eq_none {pred : HsmObject → Bool} :
    st.findObjectIf pred = none ↔
      ∀ i version o, st.slot i = some (version, o) → pred o = false := by
  rw [findObjectIf, Option.map_eq_none_iff, List.find?_eq_none]
  constructor
  · intro h i version o hslot
    exact Bool.eq_false_of_not_eq_true (h (i, version, o) (CS.SlotTable.mem_occupied.mpr hslot))
  · rintro h ⟨i, version, o⟩ hmem
    exact Bool.not_eq_true _ ▸ h i version o (CS.SlotTable.mem_occupied.mp hmem)

/-! ### Indexed search -/

variable (st)

/-- Intersect the candidates so far with one index range; no candidates yet means all slots.
An empty range leaves no candidate, which is where the source returns early. -/
def narrow (candidates : Option (List UInt32)) (range : List UInt32) : Option (List UInt32) :=
  match candidates with
  | none => some range
  | some c => some (range.filter (· ∈ c))

/-- The slots left after the class, label and identifier entries of the template; `none` when
the template has no indexed entry. -/
def candidates (templ : List (CkUlong × Bytes)) : Option (List UInt32) :=
  let byClass : Option (List UInt32) :=
    match templ.lookup ckaClass with
    | some v => if v.length = 8 then some (st.classIndex.equalRange (bytesUlong v).toUInt32) else none
    | none => none
  let byLabel :=
    match templ.lookup ckaLabel with
    | some v => narrow byClass (st.labelIndex.equalRange v)
    | none => byClass
  match templ.lookup ckaId with
  | some v => narrow byLabel (st.idIndex.equalRange v)
  | none => byLabel

/-- `v_find_all_by_attributes`: the occupied candidate slots whose attribute map holds every
template entry. -/
def findAllByAttributes (templ : List (CkUlong × Bytes)) : List CkUlong :=
  if templ = [] then st.allHandles
  else
    let snapshot :=
      match st.candidates templ with
      | some c => c.filterMap fun i => (st.slot i).map fun s => (i, s)
      | none => st.table.occupied
    (snapshot.filter fun s => templ.all fun kv => s.2.2.findAttribute kv.1 = some kv.2).map
      fun s => composeHandle s.1 s.2.1

variable {st}

/-- The slot is filed in every index that the template names. -/
def Filed (st : ObjectStore) (templ : List (CkUlong × Bytes)) (i : UInt32) : Prop :=
  (∀ v, templ.lookup ckaClass = some v → v.length = 8 →
    st.classIndex.Has (bytesUlong v).toUInt32 i) ∧
  (∀ v, templ.lookup ckaLabel = some v → st.labelIndex.Has v i) ∧
  (∀ v, templ.lookup ckaId = some v → st.idIndex.Has v i)

/-- Membership in a possibly unrestricted candidate list. -/
def IsCandidate (c : Option (List UInt32)) (i : UInt32) : Prop := ∀ l, c = some l → i ∈ l

theorem isCandidate_narrow (c : Option (List UInt32)) (range : List UInt32) (i : UInt32) :
    IsCandidate (narrow c range) i ↔ IsCandidate c i ∧ i ∈ range := by
  cases c with
  | none => simp [narrow, IsCandidate]
  | some l => simp [narrow, IsCandidate, and_comm]

theorem isCandidate_candidates (templ : List (CkUlong × Bytes)) (i : UInt32) :
    IsCandidate (st.candidates templ) i ↔ st.Filed templ i := by
  have hclass : ∀ c : Option Bytes,
      IsCandidate (match c with
        | some v =>
          if v.length = 8 then some (st.classIndex.equalRange (bytesUlong v).toUInt32) else none
        | none => none) i ↔
      ∀ v, c = some v → v.length = 8 → st.classIndex.Has (bytesUlong v).toUInt32 i := by
    rintro (_ | v)
    · simp [IsCandidate]
    · by_cases hlen : v.length = 8 <;> simp [IsCandidate, hlen]
  have hnarrow : ∀ (c : Option Bytes) (l : Option (List UInt32))
      (index : CS.Multimap Bytes UInt32),
      IsCandidate (match c with
        | some v => narrow l (index.equalRange v)
        | none => l) i ↔
      IsCandidate l i ∧ ∀ v, c = some v → index.Has v i := by
    rintro (_ | v) l index
    · simp
    · simp [isCandidate_narrow]
  rw [candidates, hnarrow, hnarrow, hclass, and_assoc, Filed]

/-- A search returns the occupied slots that are filed under the template's keys and whose
attribute map holds every entry of the template. -/
theorem mem_findAllByAttributes {templ : List (CkUlong × Bytes)} (hne : templ ≠ []) :
    handle ∈ st.findAllByAttributes templ ↔
      ∃ o, st.getObject handle = some o ∧ st.Filed templ (extractIndex handle) ∧
        ∀ kv ∈ templ, o.findAttribute kv.1 = some kv.2 := by
  have hsnapshot : ∀ s : UInt32 × UInt32 × HsmObject,
      s ∈ (match st.candidates templ with
        | some c => c.filterMap fun i => (st.slot i).map fun s => (i, s)
        | none => st.table.occupied) ↔ st.slot s.1 = some s.2 ∧ st.Filed templ s.1 := by
    rintro ⟨i, s⟩
    rw [← isCandidate_candidates]
    cases st.candidates templ with
    | none => simp [IsCandidate, CS.SlotTable.mem_occupied, slot]
    | some c =>
      simp only [List.mem_filterMap, Option.map_eq_some_iff, Prod.mk.injEq, IsCandidate]
      constructor
      · rintro ⟨j, hj, s', hs', rfl, rfl⟩
        refine ⟨hs', fun l hl => ?_⟩
        exact Option.some.inj hl ▸ hj
      · rintro ⟨hs, hcand⟩
        exact ⟨i, hcand c rfl, s, hs, rfl, rfl⟩
  rw [findAllByAttributes, if_neg hne]
  simp only [List.mem_map, List.mem_filter, hsnapshot, List.all_eq_true, decide_eq_true_eq]
  constructor
  · rintro ⟨⟨i, version, o⟩, ⟨⟨hslot, hfiled⟩, hmatch⟩, rfl⟩
    exact ⟨o, getObject_composeHandle.mpr hslot, by simpa using hfiled, hmatch⟩
  · rintro ⟨o, ho, hfiled, hmatch⟩
    exact ⟨(extractIndex handle, extractVersion handle, o),
      ⟨⟨getObject_eq_some_iff.mp ho, hfiled⟩, hmatch⟩, composeHandle_extract handle⟩

end ObjectStore

end VirtualHsm
