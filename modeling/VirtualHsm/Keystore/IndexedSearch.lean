import VirtualHsm.Keystore.HandleSafety
import VirtualHsm.Keystore.IndexFiling

/-!
# Indexed search over whole histories

Labels and identifiers can be changed past the indices, and destroying an object removes only
the entries under its present keys, so entries of earlier objects stay behind in a slot that is
used again. A search compares the candidates with the template, so it never returns a dead or a
wrong object. It can return an object twice: the slot is filed a second time under a key for
which an old entry was left when an object is created that has its label or identifier already,
as a copy of another object has.
-/

namespace VirtualHsm

namespace ObjectStore

variable {st st' : ObjectStore} {i : UInt32} {handle : CkUlong} {o : HsmObject}

/-- No search returns a handle twice, or one that is dead or does not match. -/
structure SoundSearch (st : ObjectStore) : Prop where
  nodup : ∀ templ, (st.findAllByAttributes templ).Nodup
  live : ∀ templ, ∀ handle ∈ st.findAllByAttributes templ,
    ∃ o, st.getObject handle = some o ∧ ∀ kv ∈ templ, o.findAttribute kv.1 = some kv.2

/-- A creation takes a slot that holds no object and that is not filed yet under the label and
the identifier the new object comes with. -/
def FilesAnew (st : ObjectStore) : StoreCall → Prop
  | .create o =>
    st.slot st.table.allocIndex = none ∧
    (o.extractLabel ≠ [] → ¬ st.labelIndex.Has o.extractLabel st.table.allocIndex) ∧
    (o.extractId ≠ [] → ¬ st.idIndex.Has o.extractId st.table.allocIndex)
  | .destroy _ | .setAttribute _ _ _ | .setId _ _ | .reindex _ => True

theorem filesAnew_of_bare (hcap : st.size < 2 ^ 32) (hlabel : o.extractLabel = [])
    (hid : o.extractId = []) : st.FilesAnew (.create o) :=
  ⟨st.table.get_allocIndex hcap, fun h => absurd hlabel h, fun h => absurd hid h⟩

/-! ### What is found -/

theorem live_findAllByAttributes {templ : List (CkUlong × Bytes)}
    (h : handle ∈ st.findAllByAttributes templ) :
    ∃ o, st.getObject handle = some o ∧ ∀ kv ∈ templ, o.findAttribute kv.1 = some kv.2 := by
  by_cases hempty : templ = []
  · rw [findAllByAttributes, if_pos hempty] at h
    obtain ⟨o, ho⟩ := mem_allHandles.mp h
    refine ⟨o, ho, ?_⟩
    rw [hempty]
    exact List.forall_mem_nil _
  · obtain ⟨o, ho, -, hmatch⟩ := (mem_findAllByAttributes hempty).mp h
    exact ⟨o, ho, hmatch⟩

/-- No index holds an entry of the slot twice, and the class index only holds the class of the
object in it. -/
structure FiledOnce (st : ObjectStore) (i : UInt32) : Prop where
  label : ∀ v, st.labelIndex.count v i ≤ 1
  id : ∀ v, st.idIndex.count v i ≤ 1
  cls : ∀ c, st.classIndex.count c i ≤ if (st.slot i).any (·.2.type.toNum = c) then 1 else 0

theorem nodup_narrow {candidates : Option (List UInt32)} {range l : List UInt32}
    (hrange : range.Nodup) (h : narrow candidates range = some l) : l.Nodup := by
  cases candidates with
  | none =>
    cases h
    exact hrange
  | some c =>
    cases h
    exact hrange.filter _

theorem nodup_candidates (h : ∀ i, st.FiledOnce i) {templ : List (CkUlong × Bytes)}
    {l : List UInt32} (hl : st.candidates templ = some l) : l.Nodup := by
  have hcls : ∀ c, (st.classIndex.equalRange c).Nodup := by
    intro c
    apply CS.Multimap.nodup_equalRange
    intro i
    refine Nat.le_trans ((h i).cls c) ?_
    split_ifs <;> omega
  have hlabel : ∀ v, (st.labelIndex.equalRange v).Nodup := fun v =>
    CS.Multimap.nodup_equalRange fun i => (h i).label v
  have hid : ∀ v, (st.idIndex.equalRange v).Nodup := fun v =>
    CS.Multimap.nodup_equalRange fun i => (h i).id v
  simp only [candidates] at hl
  split at hl
  · exact nodup_narrow (hid _) hl
  split at hl
  · exact nodup_narrow (hlabel _) hl
  split at hl
  · split_ifs at hl
    cases hl
    exact hcls _
  · cases hl

theorem nodup_findAllByAttributes (h : ∀ i, st.FiledOnce i) (templ : List (CkUlong × Bytes)) :
    (st.findAllByAttributes templ).Nodup := by
  unfold findAllByAttributes
  split_ifs
  · exact nodup_allHandles st
  -- The snapshot holds each slot once, and the handles of different slots differ.
  refine List.pairwise_map.mpr (List.Pairwise.imp (R := fun a b => a.1 ≠ b.1) ?_
    (List.Pairwise.filter _ ?_))
  · intro a b hne heq
    have hindex := congrArg extractIndex heq
    rw [extractIndex_composeHandle, extractIndex_composeHandle] at hindex
    exact hne hindex
  · split
    · next c hc =>
      refine List.pairwise_filterMap.mpr ((nodup_candidates h hc).imp fun {i j} hne => ?_)
      intro a ha b hb
      obtain ⟨s, -, rfl⟩ := Option.map_eq_some_iff.mp ha
      obtain ⟨s', -, rfl⟩ := Option.map_eq_some_iff.mp hb
      exact hne
    · exact st.table.pairwise_occupied

/-! ### One call -/

theorem FiledOnce.congr (h : st.FiledOnce i) (hsame : SameAt st st' i) : st'.FiledOnce i where
  label v := by
    rw [hsame.label v]
    exact h.label v
  id v := by
    rw [hsame.id v]
    exact h.id v
  cls c := by
    rw [hsame.cls c, hsame.slot]
    exact h.cls c

private theorem count_insert_le_one {m : CS.Multimap Bytes UInt32} {key : Bytes}
    (hm : ∀ v, m.count v i ≤ 1) (hkey : key ≠ [] → ¬ m.Has key i) (v : Bytes) :
    (if key = [] then m else m.insert key i).count v i ≤ 1 := by
  split_ifs with hempty
  · exact hm v
  rw [CS.Multimap.count_insert]
  by_cases hv : key = v
  · have hzero : m.count v i = 0 := by
      have hnot := hkey hempty
      rw [CS.Multimap.has_iff_count_pos, hv] at hnot
      omega
    rw [hzero, if_pos ⟨hv, rfl⟩]
  · rw [if_neg fun hboth => hv hboth.1]
    exact hm v

private theorem count_eraseOne_le_one {m : CS.Multimap Bytes UInt32} (hm : ∀ v, m.count v i ≤ 1)
    (key v : Bytes) : (if key = [] then m else m.eraseOne key i).count v i ≤ 1 := by
  split_ifs
  · exact hm v
  · rw [CS.Multimap.count_eraseOne]
    exact Nat.le_trans (Nat.sub_le _ _) (hm v)

section

variable (i) (h : ∀ i, st.FiledOnce i)
include h

theorem filedOnce_createObject (hnew : st.FilesAnew (.create o)) :
    (st.createObject o).2.FiledOnce i := by
  obtain ⟨hslot, hlabel, hid⟩ := hnew
  by_cases hi : i = st.table.allocIndex
  · subst hi
    refine ⟨count_insert_le_one (h _).label hlabel, count_insert_le_one (h _).id hid, ?_⟩
    intro c
    -- An empty slot has no entry in the class index.
    have hold := (h st.table.allocIndex).cls c
    rw [hslot] at hold
    have hzero : st.classIndex.count c st.table.allocIndex = 0 := Nat.le_zero.mp hold
    rw [slot_createObject, if_pos rfl]
    change (st.classIndex.insert _ _).count c _ ≤ _
    rw [CS.Multimap.count_insert, hzero]
    simp
  · have hslot' := @slot_createObject st o i
    rw [if_neg hi] at hslot'
    have hsame := @sameAt_indexInsert st st.table.allocIndex i o hi
    exact (h i).congr ⟨hslot', hsame.label, hsame.id, hsame.cls⟩

theorem filedOnce_destroyObject : (st.destroyObject handle).2.FiledOnce i := by
  by_cases hi : i = extractIndex handle
  · cases hget : st.getObject handle with
    | none =>
      rw [destroyObject_of_none hget]
      exact h i
    | some o =>
      have hslot := getObject_eq_some_iff.mp hget
      subst hi
      have hempty := slot_destroyObject hget (extractIndex handle)
      rw [if_pos rfl] at hempty
      refine ⟨?_, ?_, ?_⟩
      · simp only [destroyObject, hget]
        exact count_eraseOne_le_one (h _).label _
      · simp only [destroyObject, hget]
        exact count_eraseOne_le_one (h _).id _
      · intro c
        -- The one entry that the slot has in the class index is removed.
        have hold := (h (extractIndex handle)).cls c
        rw [hslot] at hold
        rw [hempty]
        simp only [destroyObject, hget]
        change (st.classIndex.eraseOne _ _).count c _ ≤ 0
        rw [CS.Multimap.count_eraseOne]
        simp only [Option.any_some, decide_eq_true_eq] at hold
        split_ifs at hold ⊢ with hc <;> simp_all
  · exact (h i).congr (sameAt_destroyObject hi)

theorem filedOnce_write {f : HsmObject → HsmObject} (hf : ∀ o, (f o).type = o.type) :
    (st.write handle f).FiledOnce i := by
  unfold write
  cases hget : st.getObject handle with
  | none => exact h i
  | some o =>
    by_cases hi : i = extractIndex handle
    · have hslot := slot_setObject (o := f o) hget i
      rw [if_pos hi] at hslot
      have hold := (h i).cls
      rw [hi, getObject_eq_some_iff.mp hget] at hold
      refine ⟨?_, ?_, ?_⟩
      · simp only [setObject, hget]
        exact (h i).label
      · simp only [setObject, hget]
        exact (h i).id
      · intro c
        rw [hslot, hi]
        simp only [setObject, hget, Option.any_some, hf]
        exact hold c
    · exact (h i).congr (sameAt_setObject hi)

theorem filedOnce_reindex : (st.reindex handle).FiledOnce i := by
  by_cases hi : i = extractIndex handle
  · cases hget : st.getObject handle with
    | none =>
      rw [reindex, hget]
      exact h i
    | some o =>
      subst hi
      have hslot := getObject_eq_some_iff.mp hget
      refine ⟨fun v => ?_, fun v => ?_, fun c => ?_⟩
      · rw [labelIndex_reindex hget]
        split_ifs <;> omega
      · rw [idIndex_reindex hget]
        split_ifs <;> omega
      · rw [slot_reindex, hslot, classIndex_reindex hget]
        simp
  · exact (h i).congr (sameAt_reindex hi)

theorem filedOnce_call {c : StoreCall} (hc : st.FilesAnew c) : (st.call c).2.FiledOnce i := by
  cases c with
  | create o => exact filedOnce_createObject i h hc
  | destroy handle => exact filedOnce_destroyObject i h
  | setAttribute handle type value =>
    exact filedOnce_write (f := (·.setAttribute type value)) i h fun _ => rfl
  | setId handle value => exact filedOnce_write (f := (·.setId value)) i h fun _ => rfl
  | reindex handle => exact filedOnce_reindex i h

end

end ObjectStore

open ObjectStore

/-! ### Histories -/

/-- Searches are sound after every history whose creations file each slot anew. -/
theorem soundSearch_of_filesAnew (calls : List StoreCall)
    (h : CS.Guarded call FilesAnew {} calls) : (storeAfter calls).SoundSearch := by
  have hstart : ∀ i, FiledOnce {} i := by
    intro i
    refine ⟨fun v => ?_, fun v => ?_, fun c => ?_⟩ <;> exact Nat.zero_le _
  have honce : ∀ i, (storeAfter calls).FiledOnce i :=
    @CS.Guarded.invariant _ _ _ call {} calls FilesAnew (fun st => ∀ i, st.FiledOnce i)
      (fun _ _ hst hc i => filedOnce_call i hst hc) h hstart
  exact ⟨nodup_findAllByAttributes honce, fun _ _ => live_findAllByAttributes⟩

/-- An object is labelled and indexed, renamed past the index and destroyed; its slot goes to
an object that gets the first label again. -/
def renamedBare : List StoreCall :=
  [.create { type := .data }, .setAttribute 1 ckaLabel [1], .reindex 1,
    .setAttribute 1 ckaLabel [2], .destroy 1, .create { type := .data },
    .setAttribute 2 ckaLabel [1]]

theorem soundSearch_renamedBare : (storeAfter renamedBare).SoundSearch := by
  apply soundSearch_of_filesAnew
  refine ⟨filesAnew_of_bare (by decide) rfl rfl, trivial, trivial, trivial, trivial, ?_, trivial,
    trivial⟩
  exact filesAnew_of_bare (by decide) rfl rfl

/-- An object with a label. -/
def labelled : HsmObject := ({ type := .data } : HsmObject).setAttribute ckaLabel [1]

/-- The same with copies of a labelled object, which are indexed as they are created. -/
def renamedCopy : List StoreCall :=
  [.create labelled, .setAttribute 1 ckaLabel [2], .destroy 1, .create labelled]

theorem not_soundSearch_copy : ¬ (storeAfter renamedCopy).SoundSearch := by
  intro h
  have hnodup := h.nodup [(ckaLabel, [1])]
  revert hnodup
  decide

end VirtualHsm
