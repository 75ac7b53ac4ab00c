import VirtualHsm.Keystore.StoreEdit

/-!
# When the indices agree with the objects

An indexed search trusts two representations of an object: the index entries of its slot and its
attribute map. A linear search reads class and identifier from the object's fields. For one
entry of a template, `FiledAt` says that both views of a slot agree; `EditFits` says which edits
keep it so.

The identifier needs an exact count. An object keeps the identifier of its map under which it
was filed last, a stale entry of the slot's former object would be found again through it, and
destroying an object removes one entry only.
-/

namespace VirtualHsm

/-- An entry of a template that the indices answer. -/
inductive SearchKey
  | cls (v : Bytes)
  | label (v : Bytes)
  | id (v : Bytes)
  deriving DecidableEq, Repr

namespace SearchKey

def type : SearchKey → CkUlong
  | cls _ => ckaClass
  | label _ => ckaLabel
  | id _ => ckaId

def value : SearchKey → Bytes
  | cls v => v
  | label v => v
  | id v => v

/-- Nothing is indexed under an empty label or identifier. -/
def Indexable : SearchKey → Prop
  | cls _ => True
  | label v => v ≠ []
  | id v => v ≠ []

end SearchKey

/-! ### What a search reads of an object -/

/-- Two objects look the same to every search by class, label and identifier. -/
structure HsmObject.SameKeys (o o' : HsmObject) : Prop where
  type : o'.type = o.type
  id : o'.id = o.id
  findClass : o'.findAttribute ckaClass = o.findAttribute ckaClass
  findLabel : o'.findAttribute ckaLabel = o.findAttribute ckaLabel
  findId : o'.findAttribute ckaId = o.findAttribute ckaId

theorem HsmObject.sameKeys_setKeyState (o : HsmObject) (s : KeyState) :
    o.SameKeys (o.setKeyState s) where
  type := rfl
  id := rfl
  findClass := o.findAttribute_setAttribute_of_ne _ _ (by decide)
  findLabel := o.findAttribute_setAttribute_of_ne _ _ (by decide)
  findId := o.findAttribute_setAttribute_of_ne _ _ (by decide)

namespace HsmObject

theorem Evolves.findAttribute_of_mem_fieldTypes {o o' : HsmObject} {t : CkUlong}
    (ht : t ∈ fieldTypes) (h : o.Evolves o') : o'.findAttribute t = o.findAttribute t := by
  induction h with
  | refl => rfl
  | @write o' a _ ih =>
    rw [← ih]
    rcases o'.setAttributeChecked_cases a with
      ⟨-, hr⟩ | ⟨-, hr⟩ | ⟨-, -, hr⟩ | ⟨-, -, hr⟩ | ⟨hfree, hr⟩
    · rw [hr]
    · rw [hr, setId_findAttribute]
    · rw [hr]; rfl
    · rw [hr]; rfl
    · have hne : t ≠ a.type := fun heq => hfree (heq ▸ ht)
      rw [hr, findAttribute_setAttribute_of_ne _ _ _ hne]
  | keyState s _ ih =>
    have hne : t ≠ ckaVhsmKeyState := by
      rintro rfl
      revert ht
      decide
    rw [setKeyState, findAttribute_setAttribute_of_ne _ _ _ hne, ih]

end HsmObject

namespace ObjectStore

variable {st st' st'' : ObjectStore} {i j : UInt32} {k : CkUlong} {o o' : HsmObject} {b : Built}
  {key : SearchKey}

theorem extractIndex_newHandle (st : ObjectStore) :
    extractIndex st.newHandle = st.table.allocIndex := by
  rw [newHandle, extractIndex_composeHandle]

/-! ### Slots that an operation leaves alone -/

/-- Object and index entries of the slot are the same in both stores. -/
structure SameAt (st st' : ObjectStore) (i : UInt32) : Prop where
  slot : st'.slot i = st.slot i
  label : ∀ v, st'.labelIndex.count v i = st.labelIndex.count v i
  id : ∀ v, st'.idIndex.count v i = st.idIndex.count v i
  cls : ∀ c, st'.classIndex.count c i = st.classIndex.count c i

namespace SameAt

theorem refl (st : ObjectStore) (i : UInt32) : SameAt st st i :=
  ⟨rfl, fun _ => rfl, fun _ => rfl, fun _ => rfl⟩

theorem trans (h : SameAt st st' i) (h' : SameAt st' st'' i) : SameAt st st'' i :=
  ⟨h'.slot.trans h.slot, fun v => (h'.label v).trans (h.label v),
    fun v => (h'.id v).trans (h.id v), fun c => (h'.cls c).trans (h.cls c)⟩

end SameAt

theorem sameAt_indexInsert (hj : j ≠ i) : SameAt st (st.indexInsert i o) j := by
  have hins {κ : Type} [DecidableEq κ] (m : CS.Multimap κ UInt32) (v w : κ) :
      (m.insert v i).count w j = m.count w j := by
    rw [CS.Multimap.count_insert, if_neg fun h => hj h.2.symm, Nat.add_zero]
  refine ⟨rfl, fun v => ?_, fun v => ?_, fun c => hins _ _ _⟩
  all_goals
    change (if _ then _ else _ : CS.Multimap Bytes UInt32).count v j = _
    split_ifs
    · rfl
    · exact hins _ _ _

theorem sameAt_indexRemove (hj : j ≠ i) : SameAt st (st.indexRemove i o) j := by
  have hdel {κ : Type} [DecidableEq κ] (m : CS.Multimap κ UInt32) (v w : κ) :
      (m.eraseOne v i).count w j = m.count w j := by
    rw [CS.Multimap.count_eraseOne, if_neg fun h => hj h.2.symm, Nat.sub_zero]
  refine ⟨rfl, fun v => ?_, fun v => ?_, fun c => hdel _ _ _⟩
  all_goals
    change (if _ then _ else _ : CS.Multimap Bytes UInt32).count v j = _
    split_ifs
    · rfl
    · exact hdel _ _ _

theorem sameAt_setObject (hj : j ≠ extractIndex k) : SameAt st (st.setObject k o) j := by
  cases hk : st.getObject k with
  | none =>
    rw [setObject_of_none hk]
    exact .refl st j
  | some o' =>
    have hslot := slot_setObject (o := o) hk j
    rw [if_neg hj] at hslot
    refine ⟨hslot, fun v => ?_, fun v => ?_, fun c => ?_⟩ <;> simp only [setObject, hk]

theorem sameAt_fill (hj : j ≠ st.table.allocIndex) : SameAt st (st.fill b) j := by
  have halloc : SameAt st { st with table := st.table.alloc b.bare.object } j := by
    refine ⟨?_, fun _ => rfl, fun _ => rfl, fun _ => rfl⟩
    have hget := CS.SlotTable.get_alloc st.table b.bare.object j
    rw [if_neg hj] at hget
    exact hget
  refine (halloc.trans (sameAt_indexInsert hj)).trans (sameAt_setObject ?_)
  rwa [extractIndex_newHandle]

theorem sameAt_destroyObject (hj : j ≠ extractIndex k) : SameAt st (st.destroyObject k).2 j := by
  cases hk : st.getObject k with
  | none =>
    rw [destroyObject_of_none hk]
    exact .refl st j
  | some o =>
    have hslot := slot_destroyObject hk j
    rw [if_neg hj] at hslot
    have hremove : SameAt st (st.indexRemove (extractIndex k) o) j := sameAt_indexRemove hj
    refine ⟨hslot, fun v => ?_, fun v => ?_, fun c => ?_⟩
    · simpa only [destroyObject, hk] using hremove.label v
    · simpa only [destroyObject, hk] using hremove.id v
    · simpa only [destroyObject, hk] using hremove.cls c

theorem sameAt_reindex (hj : j ≠ extractIndex k) : SameAt st (st.reindex k) j := by
  cases hk : st.getObject k with
  | none =>
    rw [reindex, hk]
    exact .refl st j
  | some o =>
    rw [reindex, hk]
    have hdrop {κ : Type} [DecidableEq κ] (m : CS.Multimap κ UInt32) (v : κ) :
        (m.eraseValue (extractIndex k)).count v j = m.count v j := by
      rw [CS.Multimap.count_eraseValue, if_neg hj]
    refine SameAt.trans ?_ (sameAt_indexInsert hj)
    exact ⟨rfl, hdrop _, hdrop _, hdrop _⟩

/-! ### What reindexing leaves -/

/-- All former entries of the slot are gone, so a count is one for the key inserted and else
zero. -/
private theorem count_refiled {κ : Type} [DecidableEq κ] (m : CS.Multimap κ UInt32) (i : UInt32)
    (v w : κ) : ((m.eraseValue i).insert v i).count w i = if v = w then 1 else 0 := by
  rw [CS.Multimap.count_insert, CS.Multimap.count_eraseValue, if_pos rfl, Nat.zero_add]
  simp only [and_true]

private theorem count_refiled_of_ne_nil (m : CS.Multimap Bytes UInt32) (i : UInt32) (v w : Bytes) :
    (if v = [] then m.eraseValue i else (m.eraseValue i).insert v i).count w i =
      if v ≠ [] ∧ v = w then 1 else 0 := by
  by_cases hv : v = []
  · rw [if_pos hv, if_neg fun h => h.1 hv, CS.Multimap.count_eraseValue, if_pos rfl]
  · rw [if_neg hv, count_refiled]
    simp only [ne_eq, hv, not_false_eq_true, true_and]

theorem labelIndex_reindex (hk : st.getObject k = some o) (v : Bytes) :
    (st.reindex k).labelIndex.count v (extractIndex k) =
      if o.extractLabel ≠ [] ∧ o.extractLabel = v then 1 else 0 := by
  rw [reindex, hk]
  exact count_refiled_of_ne_nil _ _ _ _

theorem idIndex_reindex (hk : st.getObject k = some o) (v : Bytes) :
    (st.reindex k).idIndex.count v (extractIndex k) =
      if o.extractId ≠ [] ∧ o.extractId = v then 1 else 0 := by
  rw [reindex, hk]
  exact count_refiled_of_ne_nil _ _ _ _

theorem classIndex_reindex (hk : st.getObject k = some o) (c : UInt32) :
    (st.reindex k).classIndex.count c (extractIndex k) = if o.type.toNum = c then 1 else 0 := by
  rw [reindex, hk]
  exact count_refiled _ _ _ _

/-! ### Agreement -/

/-- The slot lies in the index range that the entry selects. -/
def InRange (st : ObjectStore) (i : UInt32) : SearchKey → Prop
  | .cls v => v.length = 8 → st.classIndex.Has (bytesUlong v).toUInt32 i
  | .label v => st.labelIndex.Has v i
  | .id v => st.idIndex.Has v i

/-- The object in the slot carries the identifier in its field. -/
def HoldsId (st : ObjectStore) (i : UInt32) (v : Bytes) : Prop :=
  ∃ version o, st.slot i = some (version, o) ∧ o.id = some v

/-- Index entries, attribute map and fields of the slot agree as far as the entry goes. -/
def FiledAt (st : ObjectStore) (i : UInt32) : SearchKey → Prop
  | .cls _ => ∀ version o, st.slot i = some (version, o) →
      o.findAttribute ckaClass = some (ulongBytes o.type.objectClass) ∧ o.type ≠ .other ∧
        0 < st.classIndex.count o.type.toNum i
  | .label v => ∀ version o, st.slot i = some (version, o) →
      o.findAttribute ckaLabel = some v → 0 < st.labelIndex.count v i
  | .id v => (st.HoldsId i v ∧ st.idIndex.count v i = 1 ∨
        ¬ st.HoldsId i v ∧ st.idIndex.count v i = 0) ∧
      ∀ version o, st.slot i = some (version, o) → o.id = some v → o.findAttribute ckaId = some v

/-- The part of the agreement that an object about to be destroyed needs. -/
def Removable (st : ObjectStore) (i : UInt32) (key : SearchKey) : Prop :=
  ∀ v, key = .id v → st.FiledAt i key

theorem FiledAt.congr (hsame : SameAt st st' i) (h : st.FiledAt i key) : st'.FiledAt i key := by
  cases key with
  | cls v =>
    intro version o ho
    rw [hsame.slot] at ho
    rw [hsame.cls]
    exact h version o ho
  | label v =>
    intro version o ho hlabel
    rw [hsame.slot] at ho
    rw [hsame.label]
    exact h version o ho hlabel
  | id v =>
    have hholds : st'.HoldsId i v ↔ st.HoldsId i v := by simp only [HoldsId, hsame.slot]
    refine ⟨?_, fun version o ho => h.2 version o (hsame.slot ▸ ho)⟩
    rw [hholds, hsame.id]
    exact h.1

theorem Removable.congr (hsame : SameAt st st' i) (h : st.Removable i key) :
    st'.Removable i key := fun v hv => (h v hv).congr hsame

/-- The number under which objects of a class are indexed is the class number, except for
objects of no named class. -/
theorem toUInt32_objectClass {t : ObjectType} (ht : t ≠ .other) :
    t.objectClass.toUInt32 = t.toNum := by
  cases t with
  | other => exact absurd rfl ht
  | _ => decide

/-- Where a slot agrees, the indexed and the linear view of an entry are the same. -/
theorem FiledAt.inRange_iff {version : UInt32} (hkey : key.Indexable)
    (ho : st.slot i = some (version, o)) (h : st.FiledAt i key) :
    st.InRange i key ∧ o.findAttribute key.type = some key.value ↔
      o.attributeValue key.type = .ok key.value := by
  cases key with
  | cls v =>
    obtain ⟨hclass, hother, hcount⟩ := h version o ho
    have hvalue : o.attributeValue ckaClass = .ok (ulongBytes o.type.objectClass) := rfl
    simp only [SearchKey.type, SearchKey.value, hclass, hvalue, Option.some.injEq,
      Except.ok.injEq, InRange]
    refine ⟨fun hfound => hfound.2, fun hv => ⟨fun _ => ?_, hv⟩⟩
    rw [← hv, bytesUlong_ulongBytes, toUInt32_objectClass hother]
    exact CS.Multimap.has_iff_count_pos.mpr hcount
  | label v =>
    have hvalue : o.attributeValue ckaLabel = .ok v ↔ o.findAttribute ckaLabel = some v := by
      -- A label is none of the attributes that are read from a field.
      rw [HsmObject.attributeValue, if_neg (by decide), if_neg (by decide), if_neg (by decide),
        if_neg (by decide), if_neg (by decide), if_neg (by decide),
        if_neg fun h => absurd h.1 (by decide)]
      cases o.findAttribute ckaLabel <;> simp
    simp only [SearchKey.type, SearchKey.value, InRange, hvalue]
    refine ⟨fun hfound => hfound.2, fun hlabel => ⟨?_, hlabel⟩⟩
    exact CS.Multimap.has_iff_count_pos.mpr (h version o ho hlabel)
  | id v =>
    have hvalue : o.attributeValue ckaId = .ok o.getId := rfl
    have hget : o.getId = v ↔ o.id = some v := by
      unfold HsmObject.getId
      cases o.id with
      | none =>
        have hne : v ≠ [] := hkey
        simp [hne.symm]
      | some w => simp
    have hholds : st.HoldsId i v ↔ o.id = some v := by
      constructor
      · rintro ⟨version', o', ho', hid⟩
        obtain ⟨-, rfl⟩ := Prod.mk.inj (Option.mem_unique ho ho')
        exact hid
      · exact fun hid => ⟨version, o, ho, hid⟩
    simp only [SearchKey.type, SearchKey.value, InRange, hvalue, Except.ok.injEq, hget,
      CS.Multimap.has_iff_count_pos]
    constructor
    · rintro ⟨hpos, -⟩
      rcases h.1 with ⟨hid, -⟩ | ⟨-, hzero⟩
      · exact hholds.mp hid
      · omega
    · intro hid
      refine ⟨?_, h.2 version o ho hid⟩
      rcases h.1 with ⟨-, hone⟩ | ⟨hnot, -⟩
      · omega
      · exact absurd (hholds.mpr hid) hnot

/-! ### Creation and destruction -/

theorem labelIndex_setObject : (st.setObject k o).labelIndex = st.labelIndex := by
  unfold setObject
  split <;> rfl

theorem idIndex_setObject : (st.setObject k o).idIndex = st.idIndex := by
  unfold setObject
  split <;> rfl

theorem classIndex_setObject : (st.setObject k o).classIndex = st.classIndex := by
  unfold setObject
  split <;> rfl

/-- An object is indexed before it has attributes, hence under its class only. -/
theorem classIndex_fill :
    (st.fill b).classIndex = st.classIndex.insert b.bare.type.toNum st.table.allocIndex := by
  rw [fill, classIndex_setObject]
  rfl

theorem idIndex_fill : (st.fill b).idIndex = st.idIndex := by
  rw [fill, idIndex_setObject]
  rfl

end ObjectStore

/-- The object may be created without disturbing searches for the entry: its map names its class,
and it does not carry the label, which creation does not index. -/
def Built.Fits (b : Built) : SearchKey → Prop
  | .cls _ => b.built.findAttribute ckaClass = some (ulongBytes b.built.type.objectClass) ∧
      b.built.type ≠ .other
  | .label v => b.built.findAttribute ckaLabel ≠ some v
  | .id _ => True

namespace ObjectStore

variable {st : ObjectStore} {i j : UInt32} {k : CkUlong} {o o' : HsmObject} {b : Built}
  {key : SearchKey}

theorem filedAt_fill (hfree : st.slot st.table.allocIndex = none) (hfits : b.Fits key)
    (h : st.Removable st.table.allocIndex key) : (st.fill b).FiledAt st.table.allocIndex key := by
  have hslot {version : UInt32} {o : HsmObject}
      (ho : (st.fill b).slot st.table.allocIndex = some (version, o)) : o = b.built := by
    rw [slot_fill, if_pos rfl] at ho
    exact (Prod.mk.inj (Option.some.inj ho)).2.symm
  cases key with
  | cls v =>
    intro version o ho
    obtain rfl := hslot ho
    refine ⟨hfits.1, hfits.2, ?_⟩
    rw [classIndex_fill, b.sameFields.type, CS.Multimap.count_insert]
    exact Nat.lt_add_left _ (by simp [BareObject.object])
  | label v =>
    intro version o ho hlabel
    obtain rfl := hslot ho
    exact absurd hlabel hfits
  | id v =>
    have hid : b.built.id = none := b.sameFields.id
    have hnew : ¬ (st.fill b).HoldsId st.table.allocIndex v := by
      rintro ⟨version, o, ho, hsome⟩
      obtain rfl := hslot ho
      rw [hid] at hsome
      cases hsome
    refine ⟨.inr ⟨hnew, ?_⟩, ?_⟩
    · rw [idIndex_fill]
      rcases (h v rfl).1 with ⟨⟨version, o, ho, -⟩, -⟩ | ⟨-, hzero⟩
      · rw [hfree] at ho
        cases ho
      · exact hzero
    · intro version o ho hsome
      obtain rfl := hslot ho
      rw [hid] at hsome
      cases hsome

theorem removable_fill (hfree : st.slot st.table.allocIndex = none)
    (h : st.Removable st.table.allocIndex key) : (st.fill b).Removable st.table.allocIndex key := by
  rintro v rfl
  exact filedAt_fill hfree trivial h

theorem extractId_of_findAttribute {v : Bytes} (hv : v ≠ [])
    (hfind : o.findAttribute ckaId = some v) : o.extractId = v := by
  rw [HsmObject.extractId, hfind]
  cases v with
  | nil => exact absurd rfl hv
  | cons x xs => rfl

theorem filedAt_destroyObject (hkey : key.Indexable) (hk : st.getObject k = some o)
    (h : st.Removable (extractIndex k) key) :
    (st.destroyObject k).2.FiledAt (extractIndex k) key := by
  have hslot : (st.destroyObject k).2.slot (extractIndex k) = none := by
    rw [slot_destroyObject hk, if_pos rfl]
  cases key with
  | cls v | label v =>
    intro version o' ho'
    rw [hslot] at ho'
    cases ho'
  | id v =>
    have hgone : ¬ (st.destroyObject k).2.HoldsId (extractIndex k) v := by
      rintro ⟨version, o', ho', -⟩
      rw [hslot] at ho'
      cases ho'
    refine ⟨.inr ⟨hgone, ?_⟩, ?_⟩
    · -- The count drops by one exactly when the object was filed under the identifier.
      obtain ⟨hcount, hfield⟩ := h v rfl
      have hindex : (st.destroyObject k).2.idIndex =
          if o.extractId = [] then st.idIndex
          else st.idIndex.eraseOne o.extractId (extractIndex k) := by
        rw [destroyObject, hk]
        rfl
      rw [hindex]
      rcases hcount with ⟨⟨version, o', ho', hid⟩, hone⟩ | ⟨-, hzero⟩
      · rw [getObject_eq_some_iff.mp hk] at ho'
        obtain ⟨-, rfl⟩ := Prod.mk.inj (Option.some.inj ho')
        have hextract := extractId_of_findAttribute hkey
          (hfield _ _ (getObject_eq_some_iff.mp hk) hid)
        have hne : o.extractId ≠ [] := by rw [hextract]; exact hkey
        rw [if_neg hne, CS.Multimap.count_eraseOne, if_pos ⟨hextract, rfl⟩, hone]
      · split_ifs
        · exact hzero
        · rw [CS.Multimap.count_eraseOne, hzero, Nat.zero_sub]
    · intro version o' ho'
      rw [hslot] at ho'
      cases ho'

/-! ### Writes -/

/-- The indices need not change for the entry when the object is replaced by the other one. -/
def StaysFiled (o o' : HsmObject) : SearchKey → Prop
  | .cls _ => o'.type = o.type ∧ o'.findAttribute ckaClass = o.findAttribute ckaClass
  | .label v => o'.findAttribute ckaLabel = some v → o.findAttribute ckaLabel = some v
  | .id v => (o'.id = some v ↔ o.id = some v) ∧
      (o'.id = some v → o'.findAttribute ckaId = some v)

theorem StaysFiled.filedAt (hstays : StaysFiled o o' key) (hk : st.getObject k = some o)
    (h : st.FiledAt (extractIndex k) key) : (st.setObject k o').FiledAt (extractIndex k) key := by
  have hold := getObject_eq_some_iff.mp hk
  have hslot {version : UInt32} {x : HsmObject}
      (hx : (st.setObject k o').slot (extractIndex k) = some (version, x)) : x = o' := by
    rw [slot_setObject hk, if_pos rfl] at hx
    exact (Prod.mk.inj (Option.some.inj hx)).2.symm
  cases key with
  | cls v =>
    intro version x hx
    obtain rfl := hslot hx
    rw [classIndex_setObject, hstays.2, hstays.1]
    exact h _ _ hold
  | label v =>
    intro version x hx hlabel
    obtain rfl := hslot hx
    rw [labelIndex_setObject]
    exact h _ _ hold (hstays hlabel)
  | id v =>
    have hholds : (st.setObject k o').HoldsId (extractIndex k) v ↔
        st.HoldsId (extractIndex k) v := by
      simp only [HoldsId, slot_setObject hk, if_true, hold, Option.some.injEq, Prod.mk.injEq]
      constructor <;> rintro ⟨version, x, ⟨rfl, rfl⟩, hid⟩
      · exact ⟨_, _, ⟨rfl, rfl⟩, hstays.1.mp hid⟩
      · exact ⟨_, _, ⟨rfl, rfl⟩, hstays.1.mpr hid⟩
    refine ⟨?_, fun version x hx hid => ?_⟩
    · rw [hholds, idIndex_setObject]
      exact h.1
    · obtain rfl := hslot hx
      exact hstays.2 hid

theorem filedAt_setObject (hk : st.getObject k = some o) (hsame : o.SameKeys o')
    (h : st.FiledAt i key) : (st.setObject k o').FiledAt i key := by
  by_cases hi : i = extractIndex k
  · subst hi
    refine StaysFiled.filedAt ?_ hk h
    cases key with
    | cls v => exact ⟨hsame.type, hsame.findClass⟩
    | label v => exact fun hlabel => hsame.findLabel ▸ hlabel
    | id v =>
      refine ⟨by rw [hsame.id], fun hid => hsame.findId.trans ?_⟩
      exact h.2 _ _ (getObject_eq_some_iff.mp hk) (hsame.id ▸ hid)
  · exact h.congr (sameAt_setObject hi)

end ObjectStore

/-- The write may happen without disturbing searches for the entry: a call that gives the object
the label is accepted in full, and after a call the identifier stands in the field exactly when
it stands in the map. -/
def HsmObject.WriteFits (o : HsmObject) (templ : List CkAttribute) : SearchKey → Prop
  | .cls _ => True
  | .label v => (o.setAttributes templ).2.findAttribute ckaLabel = some v →
      (o.setAttributes templ).1 = .ok ∨ o.findAttribute ckaLabel = some v
  | .id v => ((o.setAttributes templ).2.id = some v ↔ o.findAttribute ckaId = some v) ∧
      ((o.setAttributes templ).2.id = some v →
        (o.setAttributes templ).1 = .ok ∨ o.id = some v)

namespace ObjectStore

variable {st : ObjectStore} {i j : UInt32} {k : CkUlong} {o o' : HsmObject} {key : SearchKey}
  {templ : List CkAttribute}

/-- A write that is refused in part leaves the indices as they are. -/
theorem filedAt_refused_write (hk : st.getObject k = some o) (hfits : o.WriteFits templ key)
    (hrv : (o.setAttributes templ).1 ≠ .ok) (h : st.FiledAt (extractIndex k) key) :
    (st.setObject k (o.setAttributes templ).2).FiledAt (extractIndex k) key := by
  have hevolves := o.evolves_setAttributes templ
  refine StaysFiled.filedAt ?_ hk h
  cases key with
  | cls v => exact ⟨hevolves.type, hevolves.findAttribute_of_mem_fieldTypes (by decide)⟩
  | label v => exact fun hlabel => (hfits hlabel).resolve_left hrv
  | id v =>
    refine ⟨⟨fun hnew => (hfits.2 hnew).resolve_left hrv, fun hid => ?_⟩, fun hnew => ?_⟩
    · exact hfits.1.mpr (h.2 _ _ (getObject_eq_some_iff.mp hk) hid)
    · rw [hevolves.findAttribute_of_mem_fieldTypes (by decide)]
      exact hfits.1.mp hnew

theorem extractId_eq_iff {v : Bytes} (hv : v ≠ [])
    (hboth : o.id = some v ↔ o.findAttribute ckaId = some v) : o.extractId = v ↔ o.id = some v := by
  rw [hboth]
  constructor
  · intro heq
    by_contra hfind
    have hfield : o.id ≠ some v := fun h => hfind (hboth.mp h)
    unfold HsmObject.extractId HsmObject.getId at heq
    split at heq
    · next b bs hmap => exact hfind (heq ▸ hmap)
    · cases hfid : o.id with
      | none =>
        rw [hfid] at heq
        exact hv heq.symm
      | some w =>
        rw [hfid] at heq
        exact hfield (hfid.trans (congrArg some heq))
  · exact extractId_of_findAttribute hv

/-- Indexing an object anew files it under its present keys, provided that its identifier stands
in the field and in the map alike. -/
theorem filedAt_reindex (hkey : key.Indexable) (hk : st.getObject k = some o)
    (hcls : ∀ v, key = .cls v → st.FiledAt (extractIndex k) key)
    (hid : ∀ v, key = .id v → (o.id = some v ↔ o.findAttribute ckaId = some v)) :
    (st.reindex k).FiledAt (extractIndex k) key := by
  have hold := getObject_eq_some_iff.mp hk
  have hslot {version : UInt32} {x : HsmObject}
      (hx : (st.reindex k).slot (extractIndex k) = some (version, x)) : x = o := by
    rw [slot_reindex, hold] at hx
    exact (Prod.mk.inj (Option.some.inj hx)).2.symm
  cases key with
  | cls v =>
    intro version x hx
    obtain rfl := hslot hx
    obtain ⟨hclass, hother, -⟩ := hcls v rfl _ _ hold
    refine ⟨hclass, hother, ?_⟩
    rw [classIndex_reindex hk, if_pos rfl]
    exact Nat.one_pos
  | label v =>
    intro version x hx hlabel
    obtain rfl := hslot hx
    have hextract : x.extractLabel = v := by rw [HsmObject.extractLabel, hlabel, Option.getD_some]
    rw [labelIndex_reindex hk, hextract, if_pos ⟨hkey, rfl⟩]
    exact Nat.one_pos
  | id v =>
    have hboth := hid v rfl
    have hextract := extractId_eq_iff hkey hboth
    have hholds : (st.reindex k).HoldsId (extractIndex k) v ↔ o.id = some v := by
      simp only [HoldsId, slot_reindex, hold, Option.some.injEq, Prod.mk.injEq]
      constructor
      · rintro ⟨version, x, ⟨rfl, rfl⟩, hx⟩
        exact hx
      · exact fun hx => ⟨_, _, ⟨rfl, rfl⟩, hx⟩
    refine ⟨?_, fun version x hx hx' => ?_⟩
    · rw [hholds, idIndex_reindex hk]
      by_cases hv : o.id = some v
      · have heq := hextract.mpr hv
        exact .inl ⟨hv, if_pos ⟨heq ▸ hkey, heq⟩⟩
      · exact .inr ⟨hv, if_neg fun h => hv (hextract.mp h.2)⟩
    · obtain rfl := hslot hx
      exact hboth.mp hx'

/-! ### Edits -/

/-- The edit may happen without disturbing searches for the entry. Objects that do not outlive
the edit do not count. -/
def EditFits (st : ObjectStore) (key : SearchKey) : StoreEdit → Prop
  | .build b => b.rv = .ok → b.Fits key
  | .buildPair pub priv _ => priv.rv = .ok → pub.Fits key ∧ priv.Fits key
  | .setAttributes k templ => ∀ o, st.getObject k = some o → o.WriteFits templ key
  | _ => True

theorem filedAt_build {b : Built} (hcap : st.size < 2 ^ 32) (hkey : key.Indexable)
    (hfits : b.rv = .ok → b.Fits key) (h : ∀ i, st.FiledAt i key) : (st.build b).FiledAt i key := by
  have hfree := slot_allocIndex hcap
  have hremovable : st.Removable st.table.allocIndex key := fun _ _ => h _
  have hindex := st.extractIndex_newHandle
  unfold build
  by_cases hrv : b.rv = .ok
  · rw [if_pos hrv]
    by_cases hi : i = st.table.allocIndex
    · exact hi ▸ filedAt_fill hfree (hfits hrv) hremovable
    · exact (h i).congr (sameAt_fill hi)
  · rw [if_neg hrv]
    by_cases hi : i = st.table.allocIndex
    · rw [hi, ← hindex]
      refine filedAt_destroyObject hkey getObject_fill ?_
      rw [hindex]
      exact removable_fill hfree hremovable
    · exact (h i).congr ((sameAt_fill hi).trans (sameAt_destroyObject (hindex ▸ hi)))

theorem filedAt_setKeyState {s : KeyState} (h : st.FiledAt i key) :
    (st.setKeyState k s).FiledAt i key := by
  unfold setKeyState
  cases hk : st.getObject k with
  | none => exact h
  | some o => exact filedAt_setObject hk (o.sameKeys_setKeyState s) h

theorem filedAt_buildPair {pub priv : Built} {old : CkUlong} (hcap : st.size + 1 < 2 ^ 32)
    (hkey : key.Indexable) (hfits : priv.rv = .ok → pub.Fits key ∧ priv.Fits key)
    (h : ∀ i, st.FiledAt i key) : (st.buildPair pub priv old).FiledAt i key := by
  have hfree := slot_allocIndex (Nat.lt_of_succ_lt hcap)
  have hfree' := slot_allocIndex (Nat.lt_of_le_of_lt (size_fill_le (b := pub)) hcap)
  have hne := allocIndex_fill_ne hcap (b := pub)
  have hindex := st.extractIndex_newHandle
  have hindex' := (st.fill pub).extractIndex_newHandle
  have hremovable' : (st.fill pub).Removable (st.fill pub).table.allocIndex key :=
    fun _ _ => (h _).congr (sameAt_fill hne)
  by_cases hrv : priv.rv = .ok
  · -- Both keys stay, each in a slot of its own.
    have hboth : ((st.fill pub).fill priv).FiledAt i key := by
      obtain ⟨hpub, hpriv⟩ := hfits hrv
      by_cases hi' : i = (st.fill pub).table.allocIndex
      · exact hi' ▸ filedAt_fill hfree' hpriv hremovable'
      · refine FiledAt.congr (sameAt_fill hi') ?_
        by_cases hi : i = st.table.allocIndex
        · exact hi ▸ filedAt_fill hfree hpub fun _ _ => h _
        · exact (h i).congr (sameAt_fill hi)
    simp only [buildPair, if_pos hrv]
    split_ifs
    · exact filedAt_setKeyState hboth
    · exact hboth
  · simp only [buildPair, if_neg hrv]
    have hpubSlot : ((st.fill pub).fill priv).getObject st.newHandle = some pub.built := by
      rw [newHandle, getObject_composeHandle, slot_fill, if_neg hne.symm, slot_fill, if_pos rfl]
    have hprivSlot : (((st.fill pub).fill priv).destroyObject st.newHandle).2.getObject
        (st.fill pub).newHandle = some priv.built := by
      rw [getObject_eq_some_iff, slot_destroyObject hpubSlot, hindex, hindex', if_neg hne,
        slot_fill, if_pos rfl, newHandle, extractVersion_composeHandle]
    by_cases hi' : i = (st.fill pub).table.allocIndex
    · rw [hi', ← hindex']
      refine filedAt_destroyObject hkey hprivSlot ?_
      rw [hindex']
      refine (removable_fill hfree' hremovable').congr (sameAt_destroyObject ?_)
      rwa [hindex]
    · refine FiledAt.congr (sameAt_destroyObject (hindex' ▸ hi')) ?_
      by_cases hi : i = st.table.allocIndex
      · rw [hi, ← hindex]
        refine filedAt_destroyObject hkey hpubSlot ?_
        rw [hindex]
        exact (removable_fill hfree fun _ _ => h _).congr (sameAt_fill hne.symm)
      · exact (h i).congr (((sameAt_fill hi).trans (sameAt_fill hi')).trans
          (sameAt_destroyObject (hindex ▸ hi)))

theorem filedAt_setAttributes (hkey : key.Indexable)
    (hfits : ∀ o, st.getObject k = some o → o.WriteFits templ key) (h : ∀ i, st.FiledAt i key) :
    (st.setAttributes k templ).FiledAt i key := by
  unfold setAttributes
  cases hk : st.getObject k with
  | none => exact h i
  | some o =>
    simp only
    have hwrite := hfits o hk
    have hevolves := o.evolves_setAttributes templ
    by_cases hi : i = extractIndex k
    · subst hi
      split_ifs with hrv
      · have hwritten : (st.setObject k (o.setAttributes templ).2).getObject k =
            some (o.setAttributes templ).2 := by
          rw [getObject_setObject hk, if_pos rfl]
        refine filedAt_reindex hkey hwritten ?_ ?_
        · rintro v rfl version x hx
          rw [slot_setObject hk, if_pos rfl] at hx
          obtain ⟨-, rfl⟩ := Prod.mk.inj (Option.some.inj hx)
          rw [classIndex_setObject, hevolves.type,
            hevolves.findAttribute_of_mem_fieldTypes (by decide)]
          exact h _ _ _ (getObject_eq_some_iff.mp hk)
        · rintro v rfl
          rw [hevolves.findAttribute_of_mem_fieldTypes (by decide)]
          exact hwrite.1
      · exact filedAt_refused_write hk hwrite hrv (h _)
    · have hwritten := (h i).congr (sameAt_setObject (o := (o.setAttributes templ).2) hi)
      split_ifs
      · exact hwritten.congr (sameAt_reindex hi)
      · exact hwritten

theorem filedAt_edit {e : StoreEdit} (hcap : st.size + 1 < 2 ^ 32) (hkey : key.Indexable)
    (hfits : st.EditFits key e) (h : ∀ i, st.FiledAt i key) : ∀ i, (st.edit e).FiledAt i key := by
  intro i
  cases e with
  | keep => exact h i
  | build b => exact filedAt_build (Nat.lt_of_succ_lt hcap) hkey hfits h
  | buildPair pub priv old => exact filedAt_buildPair hcap hkey hfits h
  | setAttributes k templ => exact filedAt_setAttributes hkey hfits h
  | destroy k =>
    change (st.destroyObject k).2.FiledAt i key
    cases hk : st.getObject k with
    | none =>
      rw [destroyObject_of_none hk]
      exact h i
    | some o =>
      by_cases hi : i = extractIndex k
      · exact hi ▸ filedAt_destroyObject hkey hk fun _ _ => h _
      · exact (h i).congr (sameAt_destroyObject hi)

end ObjectStore

end VirtualHsm
