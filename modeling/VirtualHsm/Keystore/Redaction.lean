import VirtualHsm.Keystore.ObjectStore

/-!
# Objects up to their key bytes

Two objects are alike for an observer who must not learn key bytes when they agree after
redaction, which overwrites the key bytes of a sensitive object and keeps their length. Reading
an attribute respects this, except that the private-key attributes of the module itself are not
behind the check that protects `CKA_VALUE`.
-/

namespace VirtualHsm

/-- The attributes that hold the bytes of a secret or private key. -/
def secretTypes : List CkUlong := [ckaValue, ckaVhsmRsaPriv, ckaVhsmEcPriv]

/-- Those of them that reading does not refuse. -/
def leakTypes : List CkUlong := [ckaVhsmRsaPriv, ckaVhsmEcPriv]

/-- Every byte becomes another one. -/
def bump (v : Bytes) : Bytes := v.map (· + 1)

theorem bump_ne {v : Bytes} (hv : v ≠ []) : bump v ≠ v := by
  cases v with
  | nil => exact absurd rfl hv
  | cons b bs =>
    intro heq
    have hhead : b + 1 = b := (List.cons.inj heq).1
    have hnat := congrArg UInt8.toNat hhead
    have hlt := b.toNat_lt
    simp only [UInt8.toNat_add, UInt8.toNat_one] at hnat
    omega

namespace HsmObject

variable {o o' : HsmObject} {t : CkUlong} {buf : CkBuf} {f g : Bytes → Bytes}

/-- Change the key bytes of a sensitive object. -/
def mapSecrets (f : Bytes → Bytes) (o : HsmObject) : HsmObject :=
  { o with
    attrs := fun t =>
      if o.sensitive = true ∧ t ∈ secretTypes then (o.attrs t).map f else o.attrs t }

/-- Forget the key bytes of a sensitive object, but not how many there are. -/
def redact : HsmObject → HsmObject := mapSecrets fun v => List.replicate v.length 0

theorem findAttribute_mapSecrets :
    (o.mapSecrets f).findAttribute t =
      if o.sensitive = true ∧ t ∈ secretTypes then (o.findAttribute t).map f
      else o.findAttribute t := rfl

theorem redact_mapSecrets (hf : ∀ v, (f v).length = v.length) :
    (o.mapSecrets f).redact = o.redact := by
  ext t
  all_goals try rfl
  change _ ↔ (if o.sensitive = true ∧ t ∈ secretTypes then _ else _) = some _
  simp only [redact, mapSecrets]
  split_ifs with hsecret
  · simp only [Option.map_map, Function.comp_def, hf]
  · rfl

theorem length_bump (v : Bytes) : (bump v).length = v.length := List.length_map _

/-! ### Objects that agree up to key bytes -/

theorem sensitive_eq (h : o.redact = o'.redact) : o.sensitive = o'.sensitive :=
  (congrArg sensitive h :)

theorem findAttribute_eq (h : o.redact = o'.redact)
    (ht : ¬ (o.sensitive = true ∧ t ∈ secretTypes)) : o.findAttribute t = o'.findAttribute t := by
  have hattr := congrArg (fun x => findAttribute x t) h
  simp only [redact, findAttribute_mapSecrets] at hattr
  rwa [if_neg ht, if_neg (sensitive_eq h ▸ ht)] at hattr

theorem findAttribute_length_eq (h : o.redact = o'.redact) (t : CkUlong) :
    (o.findAttribute t).map List.length = (o'.findAttribute t).map List.length := by
  by_cases ht : o.sensitive = true ∧ t ∈ secretTypes
  · have hattr := congrArg (fun x => findAttribute x t) h
    simp only [redact, findAttribute_mapSecrets] at hattr
    rw [if_pos ht, if_pos (sensitive_eq h ▸ ht)] at hattr
    have hlen := congrArg (Option.map List.length) hattr
    simpa only [Option.map_map, Function.comp_def, List.length_replicate] using hlen
  · rw [findAttribute_eq h ht]

theorem attributeValue_congr (h : o.redact = o'.redact)
    (ht : ¬ (o.sensitive = true ∧ t ∈ leakTypes)) : o.attributeValue t = o'.attributeValue t := by
  have htype : o.type = o'.type := (congrArg type h :)
  have htoken : o.token = o'.token := (congrArg token h :)
  have hpriv : o.priv = o'.priv := (congrArg priv h :)
  have hext : o.extractable = o'.extractable := (congrArg extractable h :)
  have hid : o.getId = o'.getId := (congrArg getId h :)
  have hsens := sensitive_eq h
  by_cases hvalue : t = ckaValue ∧ o.sensitive = true
  · -- Reading the value of a sensitive object is refused before the map is looked at.
    obtain ⟨rfl, hs⟩ := hvalue
    have hs' : o'.sensitive = true := hsens ▸ hs
    have hrefused (x : HsmObject) (hx : x.sensitive = true) :
        x.attributeValue ckaValue = .error .attributeSensitive := by
      simp [attributeValue, hx, ckaValue, ckaClass, ckaToken, ckaPrivate, ckaSensitive,
        ckaExtractable, ckaId]
    rw [hrefused o hs, hrefused o' hs']
  · have hfind : o.findAttribute t = o'.findAttribute t := by
      apply findAttribute_eq h
      rintro ⟨hs, hmem⟩
      rcases List.mem_cons.mp hmem with rfl | hleak
      · exact hvalue ⟨rfl, hs⟩
      · exact ht ⟨hs, hleak⟩
    simp only [attributeValue, htype, htoken, hpriv, hext, hid, hsens, hfind]

theorem attributeValue_of_mem_leakTypes (ht : t ∈ leakTypes) :
    o.attributeValue t =
      match o.findAttribute t with
      | some v => .ok v
      | none => .error .attributeTypeInvalid := by
  simp only [leakTypes, List.mem_cons, List.not_mem_nil, or_false] at ht
  rcases ht with rfl | rfl <;> rfl

/-- Reading the attribute into the buffer returns key bytes of a sensitive object. -/
def Leaks (o : HsmObject) (t : CkUlong) (buf : CkBuf) : Prop :=
  o.sensitive = true ∧ t ∈ leakTypes ∧
    ∃ v old, o.findAttribute t = some v ∧ v ≠ [] ∧ buf = .data old ∧ v.length ≤ old.length

theorem getAttribute_congr (h : o.redact = o'.redact) (hsafe : ¬ o.Leaks t buf) :
    o.getAttribute t buf = o'.getAttribute t buf := by
  by_cases ht : o.sensitive = true ∧ t ∈ leakTypes
  · obtain ⟨hs, hleak⟩ := ht
    have hread := o.attributeValue_of_mem_leakTypes hleak
    have hread' := o'.attributeValue_of_mem_leakTypes hleak
    have hlen := findAttribute_length_eq h t
    cases hv : o.findAttribute t with
    | none =>
      rw [hv, Option.map_none, eq_comm, Option.map_eq_none_iff] at hlen
      rw [hv] at hread
      rw [hlen] at hread'
      rw [getAttribute_of_error hread, getAttribute_of_error hread']
    | some v =>
      rw [hv, Option.map_some, eq_comm, Option.map_eq_some_iff] at hlen
      obtain ⟨v', hv', hlen⟩ := hlen
      rw [hv] at hread
      rw [hv'] at hread'
      cases buf with
      | null n => rw [getAttribute_of_ok_null hread, getAttribute_of_ok_null hread', hlen]
      | data old =>
        rw [getAttribute_of_ok_data hread, getAttribute_of_ok_data hread', hlen]
        by_cases hshort : old.length < v.length
        · rw [if_pos hshort, if_pos hshort]
        · -- The buffer is large enough, so there is nothing to read.
          have hnil : v = [] := by
            by_contra hne
            exact hsafe ⟨hs, hleak, v, old, hv, hne, rfl, Nat.not_lt.mp hshort⟩
          have hnil' : v' = [] := List.eq_nil_of_length_eq_zero (by rw [hlen, hnil]; rfl)
          rw [hnil, hnil']
  · rw [getAttribute, getAttribute, attributeValue_congr h ht]

theorem findAttribute_bump (hs : o.sensitive = true) (ht : t ∈ leakTypes) :
    (o.mapSecrets bump).findAttribute t = (o.findAttribute t).map bump := by
  rw [findAttribute_mapSecrets, if_pos ⟨hs, List.mem_cons_of_mem _ ht⟩]

theorem getAttribute_bump_ne (h : o.Leaks t buf) :
    (o.mapSecrets bump).getAttribute t buf ≠ o.getAttribute t buf := by
  obtain ⟨hs, ht, v, old, hv, hne, rfl, hlen⟩ := h
  have hread := o.attributeValue_of_mem_leakTypes ht
  have hread' := (o.mapSecrets bump).attributeValue_of_mem_leakTypes ht
  rw [hv] at hread
  rw [findAttribute_bump hs ht, hv, Option.map_some] at hread'
  rw [getAttribute_of_ok_data hread, getAttribute_of_ok_data hread', length_bump,
    if_neg (Nat.not_lt.mpr hlen), if_neg (Nat.not_lt.mpr hlen)]
  intro heq
  have hbytes := CkBuf.data.inj (AttributeAnswer.mk.inj heq).2.2
  exact bump_ne hne (List.append_cancel_right hbytes)

end HsmObject

/-! ### Stores -/

namespace ObjectStore

variable {st st' : ObjectStore} {f g : HsmObject → HsmObject} {k : CkUlong}

/-- Change every object in place; the indices stay. -/
def mapObjects (f : HsmObject → HsmObject) (st : ObjectStore) : ObjectStore :=
  { st with table := st.table.map f }

theorem slot_mapObjects (i : UInt32) :
    (st.mapObjects f).slot i = (st.slot i).map fun s => (s.1, f s.2) := st.table.get_map f i

theorem getObject_mapObjects : (st.mapObjects f).getObject k = (st.getObject k).map f := by
  unfold getObject
  rw [slot_mapObjects]
  cases st.slot (extractIndex k) with
  | none => rfl
  | some s =>
    simp only [Option.map_some]
    split_ifs <;> rfl

theorem mapObjects_mapObjects :
    (st.mapObjects f).mapObjects g = st.mapObjects fun o => g (f o) := by
  simp only [mapObjects, CS.SlotTable.map_map]

theorem allHandles_mapObjects : (st.mapObjects f).allHandles = st.allHandles := by
  simp only [allHandles, mapObjects, CS.SlotTable.occupied_map, List.map_map, Function.comp_def]

/-- An indexed search only looks at the indices and at the attributes that it names. -/
theorem findAllByAttributes_mapObjects {templ : List (CkUlong × Bytes)}
    (hf : ∀ o, ∀ kv ∈ templ, (f o).findAttribute kv.1 = o.findAttribute kv.1) :
    (st.mapObjects f).findAllByAttributes templ = st.findAllByAttributes templ := by
  have hall (o : HsmObject) : (templ.all fun kv => (f o).findAttribute kv.1 = some kv.2) =
      templ.all fun kv => o.findAttribute kv.1 = some kv.2 := by
    rw [Bool.eq_iff_iff]
    simp only [List.all_eq_true, decide_eq_true_eq]
    exact forall₂_congr fun kv hkv => by rw [hf o kv hkv]
  have hcand : (st.mapObjects f).candidates templ = st.candidates templ := rfl
  unfold findAllByAttributes
  split_ifs
  · exact allHandles_mapObjects
  rw [hcand]
  cases st.candidates templ with
  | none =>
    simp only [mapObjects, CS.SlotTable.occupied_map, List.filter_map, List.map_map,
      Function.comp_def, hall]
  | some c =>
    have hsnap : (c.filterMap fun i => ((st.mapObjects f).slot i).map fun s => (i, s)) =
        (c.filterMap fun i => (st.slot i).map fun s => (i, s)).map fun s => (s.1, s.2.1, f s.2.2) := by
      rw [List.map_filterMap]
      congr 1
      funext i
      rw [slot_mapObjects, Option.map_map, Option.map_map]
      rfl
    simp only [hsnap, List.filter_map, List.map_map, Function.comp_def, hall]

end ObjectStore

end VirtualHsm
