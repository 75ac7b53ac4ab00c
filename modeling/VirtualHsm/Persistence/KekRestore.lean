import VirtualHsm.Persistence.TokenSerializer

/-!
# Restoring a snapshot

A restore overwrites the durable part of the token and replaces its key-encryption key, by
destroying the first object with the key's label. That is enough, since no other call makes objects
on a token: there is never more than one object, and it is the present key. So the snapshot that is
taken next is the one that was restored.
-/

namespace VirtualHsm

/-- A call of the application's PIN interface, or the restore of a snapshot. -/
inductive TokenEvent
  | pinCall (c : TokenCall)
  | restore (snap : TokenSnapshot)

namespace TokenCore

/-- A restore that throws leaves the token alone. -/
def event (t : TokenCore) : TokenEvent → Except String CkRv × TokenCore
  | .pinCall c => (.ok (t.call c).1, (t.call c).2)
  | .restore snap =>
    match restoreTokenFromSnapshot t snap with
    | .ok t' => (.ok .ok, t')
    | .error msg => (.error msg, t)

/-! ### The object of the key -/

/-- The object of a key-encryption key, with its attributes. -/
def filledKek (kek : Bytes) : HsmObject :=
  ((kekObject.setAttribute ckaClass (ulongBytes ckoSecretKey)).setAttribute ckaLabel
    kekLabel).setAttribute ckaValue kek

theorem attributeValue_filledKek {a : CkUlong} (kek : Bytes) (ha : a ∉ HsmObject.fieldTypes) :
    (filledKek kek).attributeValue a =
      ((filledKek kek).findAttribute a).elim (.error .attributeTypeInvalid) .ok :=
  HsmObject.attributeValue_of_notMem ha fun hvalue => Bool.false_ne_true hvalue.2

theorem hasKekLabel_filledKek (kek : Bytes) : hasKekLabel (filledKek kek) = true := by
  have hlabel : (filledKek kek).findAttribute ckaLabel = some kekLabel := by
    rw [filledKek, HsmObject.findAttribute_setAttribute_of_ne _ _ _ (by decide),
      HsmObject.findAttribute_setAttribute_self]
  rw [hasKekLabel, attributeValue_filledKek kek (by decide), hlabel]
  rfl

theorem isSecretKey_filledKek (kek : Bytes) : isSecretKey (filledKek kek) = true := by
  rw [isSecretKey, HsmObject.attributeValue_class]
  exact decide_eq_true ⟨length_ulongBytes _, bytesUlong_ulongBytes _⟩

theorem value_filledKek (kek : Bytes) : (filledKek kek).attributeValue ckaValue = .ok kek := by
  rw [attributeValue_filledKek kek (by decide), filledKek,
    HsmObject.findAttribute_setAttribute_self]
  rfl

/-! ### The only object -/

/-- Every object is a key-encryption key, and there is at most one. -/
structure SoleKek (st : ObjectStore) : Prop where
  exists_eq : ∀ i version o, st.slot i = some (version, o) → ∃ kek, o = filledKek kek
  index_unique : ∀ i j, (st.slot i).isSome → (st.slot j).isSome → i = j

variable {st : ObjectStore}

/-- The store after the key was cleared. -/
def clearKek (st : ObjectStore) : ObjectStore :=
  match st.findObjectIf hasKekLabel with
  | some (handle, _) => (st.destroyObject handle).2
  | none => st

theorem replaceKek_eq (st : ObjectStore) (kek : Bytes) :
    replaceKek st kek =
      if kek = [] then clearKek st
      else ((clearKek st).createObject kekObject).2.setObject (clearKek st).newHandle
        (filledKek kek) := rfl

/-- The only object goes when the key is cleared. -/
theorem slot_clearKek (hst : SoleKek st) (i : UInt32) : (clearKek st).slot i = none := by
  unfold clearKek
  cases hfind : st.findObjectIf hasKekLabel with
  | none =>
    rw [Option.eq_none_iff_forall_ne_some]
    rintro ⟨version, o⟩ hslot
    obtain ⟨kek, rfl⟩ := hst.exists_eq i version o hslot
    have hlabel := ObjectStore.findObjectIf_eq_none.mp hfind i version _ hslot
    exact Bool.false_ne_true (hlabel.symm.trans (hasKekLabel_filledKek kek))
  | some found =>
    obtain ⟨handle, o⟩ := found
    obtain ⟨-, j, version, rfl, hslot⟩ := ObjectStore.slot_of_findObjectIf hfind
    change ((st.destroyObject (composeHandle j version)).2).slot i = none
    rw [ObjectStore.slot_destroyObject (ObjectStore.getObject_composeHandle.mpr hslot),
      extractIndex_composeHandle]
    split_ifs with hij
    · rfl
    · by_contra hsome
      exact hij (hst.index_unique i j (Option.isSome_iff_ne_none.mpr hsome) (by rw [hslot]; rfl))

/-- The objects after a key was replaced: the new key, unless it is empty, and no other. -/
theorem slot_replaceKek (hst : SoleKek st) (kek : Bytes) (i : UInt32) :
    (replaceKek st kek).slot i =
      if kek ≠ [] ∧ i = (clearKek st).table.allocIndex then
        some ((clearKek st).table.allocVersion, filledKek kek)
      else none := by
  rw [replaceKek_eq]
  by_cases hkek : kek = []
  · rw [if_pos hkek, if_neg fun h => h.1 hkek]
    exact slot_clearKek hst i
  · rw [if_neg hkek, ObjectStore.slot_setObject ObjectStore.getObject_createObject,
      ObjectStore.slot_createObject, ObjectStore.newHandle, extractIndex_composeHandle,
      extractVersion_composeHandle, slot_clearKek hst]
    by_cases hi : i = (clearKek st).table.allocIndex
    · rw [if_pos hi, if_pos ⟨hkek, hi⟩]
    · rw [if_neg hi, if_neg hi, if_neg fun h => hi h.2]

theorem SoleKek.replaceKek (hst : SoleKek st) (kek : Bytes) : SoleKek (replaceKek st kek) := by
  constructor
  · intro i version o hslot
    rw [slot_replaceKek hst] at hslot
    split_ifs at hslot
    exact ⟨kek, (congrArg Prod.snd (Option.some.inj hslot)).symm⟩
  · intro i j hi hj
    rw [slot_replaceKek hst] at hi hj
    split_ifs at hi hj with hi' hj'
    · exact hi'.2.trans hj'.2.symm
    all_goals contradiction

theorem getKek_replaceKek {t : TokenCore} (hst : SoleKek st) {kek : Bytes}
    (ht : t.objectStore = replaceKek st kek) : t.getKek = kek := by
  unfold getKek
  cases hfind : t.objectStore.findObjectIf fun o => hasKekLabel o && isSecretKey o with
  | none =>
    -- Only the empty key leaves nothing to be found.
    by_contra hkek
    have hslot := slot_replaceKek hst kek (clearKek st).table.allocIndex
    rw [if_pos ⟨fun hnil => hkek hnil.symm, rfl⟩, ← ht] at hslot
    have hmissed := ObjectStore.findObjectIf_eq_none.mp hfind _ _ _ hslot
    rw [hasKekLabel_filledKek, isSecretKey_filledKek] at hmissed
    cases hmissed
  | some found =>
    obtain ⟨handle, o⟩ := found
    obtain ⟨-, i, version, -, hslot⟩ := ObjectStore.slot_of_findObjectIf hfind
    rw [ht, slot_replaceKek hst] at hslot
    split_ifs at hslot
    obtain rfl : filledKek kek = o := congrArg Prod.snd (Option.some.inj hslot)
    simp only [value_filledKek]

/-! ### Events -/

theorem objectStore_call (t : TokenCore) (c : TokenCall) :
    (t.call c).2.objectStore = t.objectStore := by
  cases c with
  | login userType pin =>
    simp only [call, login]
    split_ifs <;> rfl
  | setMaxFailedAttempts max => rfl
  | _ =>
    simp only [call]
    split_ifs <;> rfl

theorem SoleKek.event {t : TokenCore} (ht : SoleKek t.objectStore) (e : TokenEvent) :
    SoleKek (t.event e).2.objectStore := by
  cases e with
  | pinCall c => exact (objectStore_call t c).symm ▸ ht
  | restore snap =>
    by_cases hlong : 255 < snap.label.length ∨ 255 < snap.id.length
    · simp only [TokenCore.event, restoreTokenFromSnapshot, if_pos hlong]
      exact ht
    · simp only [TokenCore.event, restoreTokenFromSnapshot, if_neg hlong]
      exact ht.replaceKek snap.kek

theorem soleKek_fresh (label id : Bytes) : SoleKek (fresh label id).objectStore := by
  constructor
  · exact nofun
  · exact nofun

/-- Restoring a snapshot and taking it again gives the same durable state, and every object that
carries the label of the key is the restored key. -/
theorem snapshot_restore (label id : Bytes) (events : List TokenEvent) (snap : TokenSnapshot)
    (hlabel : snap.label.length ≤ 255) (hid : snap.id.length ≤ 255) :
    ∃ t, restoreTokenFromSnapshot (CS.run event (fresh label id) events) snap = .ok t ∧
      (snapshotFromToken t).toDurableState = snap.toDurableState ∧
      ∀ handle o, t.objectStore.getObject handle = some o → hasKekLabel o = true →
        snap.kek ≠ [] ∧ o.attributeValue ckaValue = .ok snap.kek := by
  have hsole : SoleKek (CS.run event (fresh label id) events).objectStore :=
    @CS.Reachable.invariant _ _ _ event (fun t => SoleKek t.objectStore)
      (fun _ e ht => ht.event e) _ _ ⟨events, rfl⟩ (soleKek_fresh label id)
  generalize CS.run event (fresh label id) events = t₀ at hsole ⊢
  have hshort : ¬ (255 < snap.label.length ∨ 255 < snap.id.length) :=
    not_or.mpr ⟨Nat.not_lt.mpr hlabel, Nat.not_lt.mpr hid⟩
  refine ⟨t₀.restoreState snap.toDurableState, if_neg hshort, ?_, ?_⟩
  · have hkek : (t₀.restoreState snap.toDurableState).getKek = snap.kek :=
      getKek_replaceKek hsole rfl
    simp only [snapshotFromToken, hkek]
    rfl
  · intro handle o hobject _
    have hslot := ObjectStore.getObject_eq_some_iff.mp hobject
    change (replaceKek t₀.objectStore snap.kek).slot _ = _ at hslot
    rw [slot_replaceKek hsole] at hslot
    split_ifs at hslot with hnew
    obtain rfl : filledKek snap.kek = o := congrArg Prod.snd (Option.some.inj hslot)
    exact ⟨hnew.1, value_filledKek snap.kek⟩

/-- A token that has had a key gets another one, and then none. -/
theorem snapshot_restore_rekeyed :
    ∃ snap other : TokenSnapshot, snap.kek = [] ∧ other.kek = [1, 2] ∧
      ∃ t, restoreTokenFromSnapshot (CS.run event (fresh [116] [48])
          [.restore other, .pinCall (.initializeUserPin (.data [49])),
           .pinCall (.setMaxFailedAttempts 3)]) snap = .ok t ∧
        (snapshotFromToken t).toDurableState = snap.toDurableState ∧
        ∀ handle o, t.objectStore.getObject handle = some o → hasKekLabel o = true →
          snap.kek ≠ [] ∧ o.attributeValue ckaValue = .ok snap.kek := by
  let snap : TokenSnapshot := snapshotFromToken (fresh [116] [48])
  exact ⟨snap, { snap with kek := [1, 2] }, rfl, rfl,
    snapshot_restore [116] [48] _ snap (by decide) (by decide)⟩

end TokenCore

end VirtualHsm
