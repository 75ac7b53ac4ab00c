import VirtualHsm.CS.Run
import VirtualHsm.Keystore.ObjectStore

/-!
# Handles over whole histories

A client creates and destroys objects, writes to live ones and reindexes them. Whatever the
history, a handle names at most one object: a slot gets a new version each time it is used, so a
handle that was destroyed stays dead, until the version of its slot wraps around after `2 ^ 32`
uses or the table has no index left for a new slot.
-/

namespace VirtualHsm

/-- An operation on a store. Attributes and identifier are written through the pointer to the
object, past the store and its indices. -/
inductive StoreCall
  | create (o : HsmObject)
  | destroy (handle : CkUlong)
  | setAttribute (handle type : CkUlong) (value : Bytes)
  | setId (handle : CkUlong) (value : Bytes)
  | reindex (handle : CkUlong)

inductive StoreAnswer
  | created (handle : CkUlong)
  | destroyed (done : Bool)
  | written
  deriving DecidableEq

/-- The slot a call created an object in. -/
def StoreAnswer.createdIn : StoreAnswer → Option UInt32
  | created handle => some (extractIndex handle)
  | destroyed _ | written => none

namespace ObjectStore

/-- Write to a live object; there is no pointer to a dead one. -/
def write (st : ObjectStore) (handle : CkUlong) (f : HsmObject → HsmObject) : ObjectStore :=
  match st.getObject handle with
  | some o => st.setObject handle (f o)
  | none => st

def call (st : ObjectStore) : StoreCall → StoreAnswer × ObjectStore
  | .create o => (.created (st.createObject o).1, (st.createObject o).2)
  | .destroy handle => (.destroyed (st.destroyObject handle).1, (st.destroyObject handle).2)
  | .setAttribute handle type value => (.written, st.write handle (·.setAttribute type value))
  | .setId handle value => (.written, st.write handle (·.setId value))
  | .reindex handle => (.written, st.reindex handle)

/-- How many objects the calls create in the slot. -/
def used (st : ObjectStore) (calls : List StoreCall) (i : UInt32) : Nat :=
  (CS.answers call st calls).countP (·.createdIn = some i)

/-! ### One call -/

/-- What a call can do to the slot table, together with its answer. -/
inductive TableStep (t : CS.SlotTable HsmObject) : StoreAnswer → CS.SlotTable HsmObject → Prop
  | alloc (o : HsmObject) :
      TableStep t (.created (composeHandle t.allocIndex t.allocVersion)) (t.alloc o)
  | release (i : UInt32) : TableStep t (.destroyed true) (t.release i)
  | modify (i : UInt32) (f : HsmObject → HsmObject) : TableStep t .written (t.modify i f)
  | same {a : StoreAnswer} (ha : a.createdIn = none) : TableStep t a t

variable (st : ObjectStore)

theorem tableStep_write (handle : CkUlong) (f : HsmObject → HsmObject) :
    TableStep st.table .written (st.write handle f).table := by
  unfold write
  cases hget : st.getObject handle with
  | none => exact .same rfl
  | some o =>
    simp only [setObject, hget]
    exact .modify (extractIndex handle) fun _ => f o

theorem tableStep_call (c : StoreCall) : TableStep st.table (st.call c).1 (st.call c).2.table := by
  cases c with
  | create o => exact .alloc o
  | destroy handle =>
    simp only [call, destroyObject]
    cases hget : st.getObject handle with
    | none => exact .same rfl
    | some o => exact .release (extractIndex handle)
  | setAttribute handle type value | setId handle value => exact st.tableStep_write handle _
  | reindex handle =>
    have htable : (st.reindex handle).table = st.table := by
      unfold reindex
      split <;> rfl
    rw [call, htable]
    exact .same rfl

namespace TableStep

variable {t t' : CS.SlotTable HsmObject} {a : StoreAnswer}

/-- A slot moves to its next version exactly when an object is created in it. -/
theorem version (h : TableStep t a t') (i : UInt32) :
    t'.version i = t.version i + if a.createdIn = some i then 1 else 0 := by
  cases h with
  | alloc o =>
    rw [CS.SlotTable.version_alloc, StoreAnswer.createdIn, extractIndex_composeHandle]
    simp only [Option.some.injEq, eq_comm]
  | release j | modify j f => simp [StoreAnswer.createdIn]
  | same ha => simp [ha]

/-- Only a creation occupies a slot. -/
theorem get_eq_none (h : TableStep t a t') {i : UInt32} (hi : t.get i = none)
    (ha : a.createdIn ≠ some i) : t'.get i = none := by
  cases h with
  | alloc o =>
    have hne : i ≠ t.allocIndex := by
      intro heq
      apply ha
      rw [StoreAnswer.createdIn, extractIndex_composeHandle, heq]
    rw [CS.SlotTable.get_alloc, if_neg hne, hi]
  | release j =>
    rw [CS.SlotTable.get_release, hi]
    exact ite_self none
  | modify j f =>
    rw [CS.SlotTable.get_modify]
    split_ifs with hj
    · rw [← hj, hi]
      rfl
    · exact hi
  | same ha => exact hi

theorem length_le (h : TableStep t a t') : t.entries.length ≤ t'.entries.length := by
  cases h with
  | alloc o => exact t.length_le_alloc o
  | release i => exact Nat.le_of_eq (t.length_release i).symm
  | modify i f => exact Nat.le_of_eq (t.length_modify i f).symm
  | same ha => exact Nat.le_refl _

theorem listsFree (h : TableStep t a t') (hcap : t.entries.length < 2 ^ 32)
    (hfree : t.ListsFree) : t'.ListsFree := by
  cases h with
  | alloc o => exact hfree.alloc o
  | release i => exact hfree.release hcap i
  | modify i f => exact hfree.modify i f
  | same ha => exact hfree

end TableStep

/-! ### Histories -/

theorem used_cons (c : StoreCall) (calls : List StoreCall) (i : UInt32) :
    st.used (c :: calls) i =
      (st.call c).2.used calls i + if (st.call c).1.createdIn = some i then 1 else 0 := by
  simp only [used, CS.answers_cons, List.countP_cons, decide_eq_true_eq]

theorem used_append (before after : List StoreCall) (i : UInt32) :
    st.used (before ++ after) i = st.used before i + (CS.run call st before).used after i := by
  rw [used, CS.answers_append, List.countP_append]
  rfl

theorem used_le_length (calls : List StoreCall) (i : UInt32) : st.used calls i ≤ calls.length :=
  Nat.le_trans List.countP_le_length (Nat.le_of_eq (CS.length_answers call st calls))

theorem version_run (calls : List StoreCall) (i : UInt32) :
    (CS.run call st calls).table.version i =
      st.table.version i + UInt32.ofNat (st.used calls i) := by
  induction calls generalizing st with
  | nil => exact (UInt32.add_zero _).symm
  | cons c calls ih =>
    rw [CS.run_cons, ih, used_cons, (st.tableStep_call c).version i, UInt32.ofNat_add,
      UInt32.add_assoc, UInt32.add_comm (UInt32.ofNat _)]
    split_ifs <;> rfl

theorem slot_run_eq_none {st : ObjectStore} {calls : List StoreCall} {i : UInt32}
    (hi : st.slot i = none) (hused : st.used calls i = 0) :
    (CS.run call st calls).slot i = none := by
  induction calls generalizing st with
  | nil => exact hi
  | cons c calls ih =>
    rw [used_cons] at hused
    have hanswer : (st.call c).1.createdIn ≠ some i := by
      intro heq
      rw [if_pos heq] at hused
      omega
    exact ih ((st.tableStep_call c).get_eq_none hi hanswer) (by omega)

theorem size_le_run (calls : List StoreCall) : st.size ≤ (CS.run call st calls).size := by
  induction calls generalizing st with
  | nil => exact Nat.le_refl _
  | cons c calls ih => exact Nat.le_trans (st.tableStep_call c).length_le (ih _)

theorem listsFree_run {st : ObjectStore} {calls : List StoreCall} (hfree : st.table.ListsFree)
    (hcap : (CS.run call st calls).size < 2 ^ 32) : (CS.run call st calls).table.ListsFree := by
  induction calls generalizing st with
  | nil => exact hfree
  | cons c calls ih =>
    have hsize := st.size_le_run (c :: calls)
    exact ih ((st.tableStep_call c).listsFree (Nat.lt_of_le_of_lt hsize hcap) hfree) hcap

end ObjectStore

open ObjectStore

/-! ### Handles after a history -/

/-- The store a history leads to from the empty one. -/
def storeAfter (calls : List StoreCall) : ObjectStore := CS.run call {} calls

/-- What holds of the handles after a history. -/
structure HandleSafe (calls : List StoreCall) : Prop where
  /-- The free list ends, repeats nothing and holds exactly the free slots. -/
  freeList : ∃ l, CS.FreeChain (storeAfter calls).table.entries (storeAfter calls).table.freeHead l ∧
    l.Nodup ∧ ∀ i : UInt32, i ∈ l ↔
      ∃ e, (storeAfter calls).table.entries[i.toNat]? = some e ∧ e.isFree = true
  /-- Creating overwrites no live object. -/
  kept : ∀ (o : HsmObject) (handle : CkUlong) (x : HsmObject),
    (storeAfter calls).getObject handle = some x →
      ((storeAfter calls).createObject o).2.getObject handle = some x
  /-- Live handles differ from each other. -/
  distinct : (storeAfter calls).allHandles.Nodup
  /-- The reserved handle is never live. -/
  valid : ckInvalidHandle ∉ (storeAfter calls).allHandles
  /-- A handle that was destroyed is dead. -/
  stale : ∀ before handle after, calls = before ++ .destroy handle :: after →
    ((storeAfter before).destroyObject handle).1 = true →
      (storeAfter calls).getObject handle = none ∧
      (storeAfter calls).isValidHandle handle = false ∧
      ((storeAfter calls).destroyObject handle).1 = false

namespace ObjectStore

theorem nodup_allHandles (st : ObjectStore) : st.allHandles.Nodup := by
  refine List.pairwise_map.mpr (st.table.pairwise_occupied.imp fun {a b} hne heq => hne ?_)
  have hindex := congrArg extractIndex heq
  rwa [extractIndex_composeHandle, extractIndex_composeHandle] at hindex

theorem getObject_createObject_of_some {st : ObjectStore} {handle : CkUlong} {o x : HsmObject}
    (hcap : st.size < 2 ^ 32) (hx : st.getObject handle = some x) :
    (st.createObject o).2.getObject handle = some x := by
  rw [getObject_eq_some_iff] at hx ⊢
  have hne : extractIndex handle ≠ st.table.allocIndex := by
    intro heq
    rw [heq, slot, st.table.get_allocIndex hcap] at hx
    cases hx
  rw [slot_createObject, if_neg hne, hx]

end ObjectStore

section Bounded

variable {calls : List StoreCall}

/-- An occupied slot holds the version that its uses so far count to, and has been used. -/
theorem version_eq_used {i version : UInt32} {o : HsmObject}
    (h : (storeAfter calls).slot i = some (version, o)) :
    version = UInt32.ofNat (({} : ObjectStore).used calls i) ∧
      0 < ({} : ObjectStore).used calls i := by
  constructor
  · have hversion := CS.SlotTable.version_of_get h
    rw [storeAfter, version_run] at hversion
    exact hversion.symm.trans (UInt32.zero_add _)
  · by_contra hzero
    have hnone := @slot_run_eq_none {} calls i rfl (by omega)
    rw [storeAfter, hnone] at h
    cases h

theorem ckInvalidHandle_notMem (hused : ∀ i, ({} : ObjectStore).used calls i < 2 ^ 32) :
    ckInvalidHandle ∉ (storeAfter calls).allHandles := by
  intro hmem
  obtain ⟨o, ho⟩ := mem_allHandles.mp hmem
  obtain ⟨hversion, hpos⟩ := version_eq_used (getObject_eq_some_iff.mp ho)
  have hnat := congrArg UInt32.toNat hversion
  rw [UInt32.toNat_ofNat_of_lt' (hused _)] at hnat
  have hzero : (extractVersion ckInvalidHandle).toNat = 0 := rfl
  omega

/-- A live handle that follows its own destruction would need a version that its slot has left
behind. -/
theorem getObject_eq_none_of_destroyed (hused : ∀ i, ({} : ObjectStore).used calls i < 2 ^ 32)
    {before after : List StoreCall} {handle : CkUlong}
    (hcalls : calls = before ++ .destroy handle :: after)
    (hdestroyed : ((storeAfter before).destroyObject handle).1 = true) :
    (storeAfter calls).getObject handle = none := by
  by_contra hlive
  obtain ⟨o, ho⟩ := Option.ne_none_iff_exists'.mp hlive
  -- The version of the handle counts the uses of its slot before the destruction.
  obtain ⟨x, hx⟩ : ∃ x, (storeAfter before).getObject handle = some x := by
    cases hget : (storeAfter before).getObject handle with
    | none =>
      rw [destroyObject_of_none hget] at hdestroyed
      cases hdestroyed
    | some x => exact ⟨x, rfl⟩
  obtain ⟨hthen, -⟩ := version_eq_used (getObject_eq_some_iff.mp hx)
  obtain ⟨hnow, -⟩ := version_eq_used (getObject_eq_some_iff.mp ho)
  -- The destruction empties the slot, so it has been used again since.
  have hempty : ((storeAfter before).call (.destroy handle)).2.slot (extractIndex handle) = none := by
    rw [call, slot_destroyObject hx, if_pos rfl]
  have hagain : 0 < ((storeAfter before).call (.destroy handle)).2.used after
      (extractIndex handle) := by
    by_contra hzero
    have hnone := @slot_run_eq_none _ after _ hempty (by omega)
    have hslot := getObject_eq_some_iff.mp ho
    rw [storeAfter, hcalls, CS.run_append, CS.run_cons] at hslot
    rw [storeAfter] at hnone
    rw [hnone] at hslot
    cases hslot
  have hcount := ({} : ObjectStore).used_append before (.destroy handle :: after)
    (extractIndex handle)
  rw [used_cons, ← hcalls] at hcount
  have hnat := congrArg UInt32.toNat (hthen.symm.trans hnow)
  have hbound := hused (extractIndex handle)
  rw [storeAfter] at hagain
  have hbefore : ({} : ObjectStore).used before (extractIndex handle) < 2 ^ 32 := by omega
  rw [UInt32.toNat_ofNat_of_lt' hbefore, UInt32.toNat_ofNat_of_lt' hbound] at hnat
  omega

end Bounded

/-- Handles are safe after every history in which each slot is used for fewer than `2 ^ 32`
objects and the table stays below `2 ^ 32 - 1` slots. -/
theorem handleSafe_of_bounded (calls : List StoreCall)
    (hused : ∀ i, ({} : ObjectStore).used calls i < 2 ^ 32)
    (hsize : (storeAfter calls).size < 2 ^ 32 - 1) : HandleSafe calls where
  freeList := by
    have hcap : (CS.run call {} calls).size < 2 ^ 32 := Nat.lt_of_lt_of_le hsize (by decide)
    exact (listsFree_run CS.SlotTable.listsFree_empty hcap).exists_nodup
  kept o handle x hx :=
    getObject_createObject_of_some (Nat.lt_of_lt_of_le hsize (by decide)) hx
  distinct := nodup_allHandles _
  valid := ckInvalidHandle_notMem hused
  stale before handle after hcalls hdestroyed := by
    have hnone := getObject_eq_none_of_destroyed hused hcalls hdestroyed
    refine ⟨hnone, ?_, ?_⟩
    · rw [isValidHandle, hnone]
      rfl
    · rw [destroyObject_of_none hnone]

/-- A slot is used, released and used again. -/
def reuse : List StoreCall :=
  [.create { type := .secretKey }, .destroy 1, .create { type := .secretKey }]

theorem handleSafe_reuse : HandleSafe reuse := by
  apply handleSafe_of_bounded
  · intro i
    exact Nat.lt_of_le_of_lt (used_le_length {} reuse i) (by decide)
  · decide

end VirtualHsm
