import Mathlib.Data.List.Perm.Subperm
import VirtualHsm.Keystore.IndexFiling
import VirtualHsm.Pkcs11.Api

/-!
# Indexed and linear search

`C_FindObjectsInit` answers a template of class, label and identifier through the indices, and
every other template by matching all objects. The two agree as long as the calls on the session
keep index entries, attribute maps and fields in step; creation alone does not, because an object
is indexed before its template is applied.
-/

namespace VirtualHsm

/-- The entry as it stands in a template. -/
def SearchKey.attr (key : SearchKey) : CkAttribute := ⟨key.type, .data key.value⟩

/-- A template of one to three values with distinct indexed types. -/
structure IndexedKeys (keys : List SearchKey) : Prop where
  ne_nil : keys ≠ []
  nodup : (keys.map SearchKey.type).Nodup

theorem SearchKey.ext {key key' : SearchKey} (htype : key.type = key'.type)
    (hvalue : key.value = key'.value) : key = key' := by
  cases key <;> cases key' <;> first
    | exact congrArg _ hvalue
    | exact absurd htype (by simp only [SearchKey.type]; decide)

theorem SearchKey.type_mem (key : SearchKey) : key.type ∈ indexedTypes := by
  cases key <;> simp only [SearchKey.type] <;> decide

/-! ### The map of a template -/

section TemplateMap

variable {keys : List SearchKey}

theorem templateMap_eq (hnodup : (keys.map SearchKey.type).Nodup) :
    templateMap (keys.map SearchKey.attr) =
      (keys.map fun key => (key.type, key.value)).reverse := by
  have hloop : ∀ (keys : List SearchKey) (m : List (CkUlong × Bytes)),
      (keys.map SearchKey.type).Nodup → (∀ key ∈ keys, ∀ p ∈ m, p.1 ≠ key.type) →
      (keys.map SearchKey.attr).foldl
        (fun m a => (a.type, a.value.bytes) :: m.filter (·.1 ≠ a.type)) m =
      (keys.map fun key => (key.type, key.value)).reverse ++ m := by
    intro keys
    induction keys with
    | nil => exact fun _ _ _ => rfl
    | cons key keys ih =>
      intro m hnodup hfresh
      rw [List.map_cons, List.nodup_cons] at hnodup
      have hfilter : m.filter (·.1 ≠ key.attr.type) = m :=
        List.filter_eq_self.mpr fun p hp =>
          decide_eq_true (hfresh key List.mem_cons_self p hp)
      rw [List.map_cons, List.foldl_cons, hfilter, ih _ hnodup.2]
      · simp [SearchKey.attr]
      · intro key' hkey' p hp
        rcases List.mem_cons.mp hp with rfl | hp
        · intro heq
          exact hnodup.1 (List.mem_map.mpr ⟨key', hkey', heq.symm⟩)
        · exact hfresh key' (List.mem_cons_of_mem _ hkey') p hp
  rw [templateMap, hloop keys [] hnodup fun _ _ _ hp => absurd hp List.not_mem_nil,
    List.append_nil]

theorem mem_templateMap (hnodup : (keys.map SearchKey.type).Nodup) {p : CkUlong × Bytes} :
    p ∈ templateMap (keys.map SearchKey.attr) ↔ ∃ key ∈ keys, p = (key.type, key.value) := by
  rw [templateMap_eq hnodup, List.mem_reverse, List.mem_map]
  exact ⟨fun ⟨key, hkey, heq⟩ => ⟨key, hkey, heq.symm⟩, fun ⟨key, hkey, heq⟩ => ⟨key, hkey, heq.symm⟩⟩

theorem lookup_of_nodup {κ ν : Type} [DecidableEq κ] {l : List (κ × ν)}
    (hnodup : (l.map Prod.fst).Nodup) {k : κ} {v : ν} : l.lookup k = some v ↔ (k, v) ∈ l := by
  induction l with
  | nil => simp
  | cons p l ih =>
    obtain ⟨k', v'⟩ := p
    rw [List.map_cons, List.nodup_cons] at hnodup
    rw [List.lookup_cons, List.mem_cons, Prod.mk.injEq]
    by_cases hk : k = k'
    · subst hk
      have hnew : (k, v) ∉ l := fun h => hnodup.1 (List.mem_map.mpr ⟨_, h, rfl⟩)
      simp [hnew, eq_comm]
    · have hbeq : (k == k') = false := by simpa using hk
      simp [hbeq, hk, ih hnodup.2]

theorem lookup_templateMap (hnodup : (keys.map SearchKey.type).Nodup) (key : SearchKey) :
    (templateMap (keys.map SearchKey.attr)).lookup key.type = some key.value ↔ key ∈ keys := by
  have hfst : ((templateMap (keys.map SearchKey.attr)).map Prod.fst).Nodup := by
    rw [templateMap_eq hnodup, List.map_reverse, List.nodup_reverse, List.map_map]
    exact hnodup
  rw [lookup_of_nodup hfst, mem_templateMap hnodup]
  constructor
  · rintro ⟨key', hkey', heq⟩
    obtain ⟨htype, hvalue⟩ := Prod.mk.inj heq
    exact SearchKey.ext htype hvalue ▸ hkey'
  · exact fun hkey => ⟨key, hkey, rfl⟩

theorem useIndex_of_indexedKeys (hkeys : IndexedKeys keys) :
    useIndex (keys.map SearchKey.attr) = true := by
  have hsub : keys.map SearchKey.type ⊆ indexedTypes := by
    intro t ht
    obtain ⟨key, -, rfl⟩ := List.mem_map.mp ht
    exact key.type_mem
  have hle : keys.length ≤ 3 := by
    have hle := (hkeys.nodup.subperm hsub).length_le
    rwa [List.length_map] at hle
  have hpos : 0 < keys.length := List.length_pos_of_ne_nil hkeys.ne_nil
  have hall : ∀ key ∈ keys, key.attr.type ∈ indexedTypes := fun key _ => key.type_mem
  simpa [useIndex, hpos, hle] using hall

end TemplateMap

/-! ### Agreement of the searches -/

namespace ObjectStore

variable {st : ObjectStore} {keys : List SearchKey}

/-- The indexed search finds exactly the objects that the linear search matches, so that one more
entry, of a type without index and satisfied by every object, changes nothing. -/
structure SearchAgrees (st : ObjectStore) (templ : List CkAttribute) : Prop where
  mem_iff : ∀ k, k ∈ st.findHandles templ ↔
    ∃ o, st.getObject k = some o ∧ matchObject o templ = true
  append : ∀ a : CkAttribute, a.type ∉ indexedTypes →
    (∀ k o, st.getObject k = some o → matchEntry o a = true) →
    ∀ k, k ∈ st.findHandles (templ ++ [a]) ↔ k ∈ st.findHandles templ

theorem filed_iff (hnodup : (keys.map SearchKey.type).Nodup) (i : UInt32) :
    st.Filed (templateMap (keys.map SearchKey.attr)) i ↔ ∀ key ∈ keys, st.InRange i key := by
  have hlookup := lookup_templateMap hnodup
  unfold Filed
  constructor
  · rintro ⟨hclass, hlabel, hid⟩ key hkey
    cases key with
    | cls v => exact hclass v ((hlookup (.cls v)).mpr hkey)
    | label v => exact hlabel v ((hlookup (.label v)).mpr hkey)
    | id v => exact hid v ((hlookup (.id v)).mpr hkey)
  · intro hrange
    refine ⟨fun v hv => ?_, fun v hv => ?_, fun v hv => ?_⟩
    · exact hrange (.cls v) ((hlookup (.cls v)).mp hv)
    · exact hrange (.label v) ((hlookup (.label v)).mp hv)
    · exact hrange (.id v) ((hlookup (.id v)).mp hv)

theorem matchEntry_attr (o : HsmObject) (key : SearchKey) :
    matchEntry o key.attr = true ↔ o.attributeValue key.type = .ok key.value := by
  have hflag : ∀ t ∈ indexedTypes, t &&& ckfArrayAttribute = 0 := forall_mem_of_all (by decide)
  exact matchEntry_data (by simp [CkAttribute.isArray, hflag key.type key.type_mem])

/-- Where every slot agrees for every entry, so do the two searches. -/
theorem searchAgrees_of_filedAt (hkeys : IndexedKeys keys)
    (hindexable : ∀ key ∈ keys, key.Indexable) (hfiled : ∀ key ∈ keys, ∀ i, st.FiledAt i key) :
    st.SearchAgrees (keys.map SearchKey.attr) := by
  have hmem (k : CkUlong) : k ∈ st.findHandles (keys.map SearchKey.attr) ↔
      ∃ o, st.getObject k = some o ∧ matchObject o (keys.map SearchKey.attr) = true := by
    have hne : templateMap (keys.map SearchKey.attr) ≠ [] := by
      rw [templateMap_eq hkeys.nodup]
      simpa using hkeys.ne_nil
    rw [findHandles, if_pos (useIndex_of_indexedKeys hkeys), mem_findAllByAttributes hne]
    refine exists_congr fun o => and_congr_right fun ho => ?_
    rw [filed_iff hkeys.nodup, matchObject_iff, List.forall_mem_map]
    have hslot := getObject_eq_some_iff.mp ho
    -- Entry by entry, the indexed view of the object is the linear one.
    have hentry : ∀ key ∈ keys, (st.InRange (extractIndex k) key ∧
        o.findAttribute key.type = some key.value ↔ matchEntry o key.attr = true) :=
      fun key hkey => ((hfiled key hkey _).inRange_iff (hindexable key hkey) hslot).trans
        (matchEntry_attr o key).symm
    constructor
    · rintro ⟨hrange, hmap⟩ key hkey
      have hattr := hmap _ ((mem_templateMap hkeys.nodup).mpr ⟨key, hkey, rfl⟩)
      exact (hentry key hkey).mp ⟨hrange key hkey, hattr⟩
    · intro hmatch
      refine ⟨fun key hkey => ((hentry key hkey).mpr (hmatch key hkey)).1, fun p hp => ?_⟩
      obtain ⟨key, hkey, rfl⟩ := (mem_templateMap hkeys.nodup).mp hp
      exact ((hentry key hkey).mpr (hmatch key hkey)).2
  refine ⟨hmem, fun a ha hall k => ?_⟩
  have hlinear : useIndex (keys.map SearchKey.attr ++ [a]) = false := by
    simp [useIndex, List.all_append, ha]
  rw [mem_findHandles_linear hlinear, hmem]
  refine exists_congr fun o => and_congr_right fun ho => ?_
  simp [matchObject, List.all_append, hall k o ho]

theorem filedAt_empty (i : UInt32) (key : SearchKey) : ({} : ObjectStore).FiledAt i key := by
  cases key with
  | cls v | label v => exact fun _ _ ho => by cases ho
  | id v =>
    refine ⟨.inr ⟨?_, rfl⟩, fun _ _ ho => by cases ho⟩
    rintro ⟨_, _, ho, -⟩
    cases ho

end ObjectStore

/-! ### Runs -/

namespace Hsm

variable {be : Backend} {hsm : Hsm} {h : CkUlong} {keys : List SearchKey} {calls : List ApiCall}

/-- The call leaves room in the session's table and fits every entry of the template. -/
def SearchStep (be : Backend) (h : CkUlong) (keys : List SearchKey) (hsm : Hsm) (c : ApiCall) :
    Prop :=
  ∀ st, hsm.store h = some st →
    st.size + 1 < 2 ^ 32 ∧ ∀ key ∈ keys, st.EditFits key (hsm.apiEdit be c h)

/-- From the opening of a session on, as long as it stays open and every call fits the template,
the indexed search agrees with the linear one in every state reached. -/
theorem searchAgrees_of_guarded (hkeys : IndexedKeys keys)
    (hindexable : ∀ key ∈ keys, key.Indexable) (hempty : hsm.store h = some {})
    (hguard : CS.Guarded (api be) (fun hsm c => ¬ hsm.Closes h c ∧ SearchStep be h keys hsm c)
      hsm calls) :
    ∃ st, (CS.run (api be) hsm calls).store h = some st ∧
      st.SearchAgrees (keys.map SearchKey.attr) := by
  have hstep : ∀ hsm c st, hsm.store h = some st → SearchStep be h keys hsm c →
      (∀ key ∈ keys, ∀ i, st.FiledAt i key) →
      ∀ key ∈ keys, ∀ i, (st.edit (hsm.apiEdit be c h)).FiledAt i key := by
    intro hsm c st hst hok hfiled key hkey
    obtain ⟨hcap, hfits⟩ := hok st hst
    exact ObjectStore.filedAt_edit hcap (hindexable key hkey) (hfits key hkey) (hfiled key hkey)
  obtain ⟨st, hst, hfiled⟩ := store_run hstep hguard hempty fun key _ i =>
    ObjectStore.filedAt_empty i key
  exact ⟨st, hst, ObjectStore.searchAgrees_of_filedAt hkeys hindexable hfiled⟩

/-- A data object is created and then labelled by a call of its own: both searches find it. -/
theorem searchAgrees_relabelled :
    ∃ st, (CS.run (api .toy) oneSession
        [.onSession {} 1 (.object (.createObject [⟨ckaClass, .data (ulongBytes ckoData)⟩] true)),
         .onSession {} 1 (.object (.setAttributeValue 1 [⟨ckaLabel, .data [97]⟩]))]).store 1 =
          some st ∧
      st.SearchAgrees [⟨ckaClass, .data (ulongBytes ckoData)⟩, ⟨ckaLabel, .data [97]⟩] := by
  have hkeys : IndexedKeys [.cls (ulongBytes ckoData), .label [97]] := ⟨by decide, by decide⟩
  refine searchAgrees_of_guarded hkeys ?_ rfl ⟨⟨id, ?_⟩, ⟨id, ?_⟩, trivial⟩
  · simp [SearchKey.Indexable]
  · intro st hst
    cases hst
    refine ⟨by decide, fun key hkey => ?_⟩
    rcases List.mem_pair.mp hkey with rfl | rfl
    · exact fun _ => ⟨rfl, by decide⟩
    · intro _ hlabel
      have hnone : (none : Option Bytes) = some [97] := hlabel
      cases hnone
  · intro st hst
    cases hst
    refine ⟨by decide, fun key hkey => ?_⟩
    rcases List.mem_pair.mp hkey with rfl | rfl
    · exact fun _ _ => trivial
    · intro o ho _
      cases ho
      exact .inl rfl

/-- An object that is created with a label is not found by it. -/
theorem not_searchAgrees_labelled :
    ∃ st, (CS.run (api .toy) oneSession
        [.onSession {} 1 (.object (.createObject
          [⟨ckaClass, .data (ulongBytes ckoData)⟩, ⟨ckaLabel, .data [97]⟩] true))]).store 1 =
          some st ∧
      ¬ st.SearchAgrees [⟨ckaLabel, .data [97]⟩] := by
  refine ⟨_, rfl, fun h => ?_⟩
  have hfound := (h.mem_iff 1).mpr ⟨_, rfl, by decide⟩
  revert hfound
  decide

end Hsm

end VirtualHsm
