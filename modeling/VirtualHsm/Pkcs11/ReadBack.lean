import VirtualHsm.Pkcs11.AttributeWrites
import VirtualHsm.Pkcs11.ProtectionFlags

/-!
# Reading back what a template gave

A new object gets the entries of its template in the attribute map. `C_GetAttributeValue` reads
most attributes there, but class, flags and identifier from fields of the object. `C_CreateObject`
parses class and flags into the fields as well; `C_CopyObject` takes the fields of the source, and
the calls that generate keys have them fixed. No call puts the identifier into its field.

So an entry reads back if its attribute has no field of its own, or if the field happens to have the
value. Entries that are flagged as arrays are not stored at all.
-/

namespace VirtualHsm

/-! ### Templates -/

/-- The attributes that hold key material. -/
def keyMaterialTypes : List CkUlong :=
  [ckaEcParams, ckaEcPoint, ckaVhsmRsaPub, ckaVhsmRsaPriv, ckaVhsmEcPub, ckaVhsmEcPriv]

/-- The classes that the attribute store reports. -/
def knownClasses : List CkUlong :=
  [ckoData, ckoCertificate, ckoPublicKey, ckoPrivateKey, ckoSecretKey, ckoHwFeature,
    ckoDomainParameters, ckoOther]

/-- The attributes that are flags of an object. -/
def flagTypes : List CkUlong := [ckaToken, ckaPrivate, ckaSensitive, ckaExtractable]

/-- A template of distinct types whose entries have values, a class among those the store knows and
flags that are true or false. -/
structure TemplateFits (templ : List CkAttribute) : Prop where
  distinct : (templ.map (·.type)).Nodup
  value : ∀ a ∈ templ, a.value = .data a.value.bytes
  cls : ∀ a ∈ templ, a.type = ckaClass → ∃ c ∈ knownClasses, a.value.bytes = ulongBytes c
  flag : ∀ a ∈ templ, a.type ∈ flagTypes → ∃ b, a.value.bytes = boolBytes b

/-! ### Filled objects -/

/-- An object with the fields of `bare` that was filled from the template. Key material and the
value of a sensitive object may have come later. -/
structure FilledFrom (bare : BareObject) (templ : List CkAttribute) (o : HsmObject) : Prop where
  fields : SameFields bare.object o
  attr : ∀ t ∉ keyMaterialTypes, t ≠ ckaClass → ¬ (t = ckaValue ∧ bare.sensitive = true) →
    ∃ rest, o.findAttribute t = (templateValue t templ).or rest ∧
      (t &&& ckfArrayAttribute ≠ 0 → rest = none)

theorem SameFields.attributeValue_eq {o o' : HsmObject} {t : CkUlong} (h : SameFields o o')
    (ht : t ∈ HsmObject.fieldTypes) : o'.attributeValue t = o.attributeValue t := by
  have hid : o'.getId = o.getId := congrArg (·.getD []) h.id
  simp only [HsmObject.fieldTypes, List.mem_cons, List.not_mem_nil, or_false] at ht
  rcases ht with rfl | rfl | rfl | rfl | rfl | rfl
  · rw [HsmObject.attributeValue_class, HsmObject.attributeValue_class, h.type]
  · rw [HsmObject.attributeValue_token, HsmObject.attributeValue_token, h.token]
  · rw [HsmObject.attributeValue_private, HsmObject.attributeValue_private, h.priv]
  · rw [HsmObject.attributeValue_sensitive, HsmObject.attributeValue_sensitive, h.sensitive]
  · rw [HsmObject.attributeValue_extractable, HsmObject.attributeValue_extractable, h.extractable]
  · rw [HsmObject.attributeValue_id, HsmObject.attributeValue_id, hid]

namespace FilledFrom

variable {bare : BareObject} {templ : List CkAttribute} {o : HsmObject} {a : CkAttribute}

theorem isArray_of_mem_fieldTypes (ht : a.type ∈ HsmObject.fieldTypes) : a.isArray = false := by
  have hall : ∀ t ∈ HsmObject.fieldTypes, decide (t &&& ckfArrayAttribute ≠ 0) = false :=
    forall_mem_of_all (by decide)
  exact hall a.type ht

/-- Which entries of its template an object reports: those without a field, unless they are arrays,
and those whose field has the value already. -/
theorem attributeValue_iff (hfilled : FilledFrom bare templ o) (hfits : TemplateFits templ)
    (ha : a ∈ templ) (hmaterial : a.type ∉ keyMaterialTypes)
    (hvalue : ¬ (a.type = ckaValue ∧ o.sensitive = true)) :
    o.attributeValue a.type = .ok a.value.bytes ↔
      a.isArray = false ∧ (a.type ∈ HsmObject.fieldTypes →
        bare.object.attributeValue a.type = .ok a.value.bytes) := by
  by_cases hfield : a.type ∈ HsmObject.fieldTypes
  · rw [hfilled.fields.attributeValue_eq hfield]
    exact ⟨fun heq => ⟨isArray_of_mem_fieldTypes hfield, fun _ => heq⟩, fun h => h.2 hfield⟩
  · have hclass : a.type ≠ ckaClass := fun heq => hfield (heq ▸ List.mem_cons_self)
    have hsensitive : o.sensitive = bare.sensitive := hfilled.fields.sensitive
    obtain ⟨rest, hfind, hrest⟩ := hfilled.attr a.type hmaterial hclass (hsensitive ▸ hvalue)
    rw [HsmObject.attributeValue_of_notMem hfield hvalue, hfind,
      templateValue_of_mem hfits.distinct ha (hfits.value a ha)]
    cases harray : a.isArray with
    | false => exact iff_of_true rfl ⟨rfl, fun hmem => absurd hmem hfield⟩
    | true =>
      rw [if_pos rfl, Option.none_or, hrest (of_decide_eq_true harray)]
      exact iff_of_false (fun h => by cases h) fun h => by cases h.1

end FilledFrom

/-! ### The objects that the calls build -/

theorem thenStore_ok {r : CkRv × HsmObject} {f : HsmObject → CkRv × HsmObject}
    (h : (thenStore r f).1 = .ok) : r.1 = .ok ∧ thenStore r f = f r.2 := by
  unfold thenStore at h ⊢
  split_ifs at h ⊢ with hr
  · exact ⟨hr, rfl⟩
  · exact absurd h hr

section Builders

variable {templ : List CkAttribute}

theorem filledFrom_ofTemplate {bare : BareObject} (hrv : (Built.ofTemplate bare templ).rv = .ok) :
    FilledFrom bare templ (Built.ofTemplate bare templ).built where
  fields := (Built.ofTemplate bare templ).sameFields
  attr t _ _ _ := ⟨none, findAttribute_applyTemplate hrv t, fun _ => rfl⟩

theorem filledFrom_copyOf {src : HsmObject} (hrv : (Built.copyOf src templ).rv = .ok) :
    FilledFrom src.bareCopy templ (Built.copyOf src templ).built where
  fields := (Built.copyOf src templ).sameFields
  attr t _ _ _ := by
    refine ⟨_, findAttribute_applyTemplate hrv t, fun harray => ?_⟩
    have hall : ∀ x ∈ materialTypes, decide (x &&& ckfArrayAttribute ≠ 0) = false :=
      forall_mem_of_all (by decide)
    have hcopied : t ∉ materialTypes := fun hmem =>
      absurd harray (of_decide_eq_false (hall t hmem))
    rw [findAttribute_copyMaterial_eq, if_neg hcopied]
    rfl

theorem filledFrom_secret {raw : Bytes} (hrv : (Built.secret templ raw).rv = .ok) :
    FilledFrom bareSecretKey templ (Built.secret templ raw).built where
  fields := (Built.secret templ raw).sameFields
  attr t _ _ hvalue := by
    obtain ⟨happlied, hstored⟩ := thenStore_ok hrv
    have ht : t ∉ [ckaValue] := fun hmem => hvalue ⟨List.mem_singleton.mp hmem, rfl⟩
    refine ⟨none, ?_, fun _ => rfl⟩
    change (fillSecret templ raw).2.findAttribute t = _
    rw [fillSecret, hstored]
    exact ((writesOnly_storeSecret raw).frame _ t ht).trans (findAttribute_applyTemplate happlied t)

variable {be : Backend} {bare : BareObject} {k : be.Pkey} {isRsa isPrivate : Bool}
  (hrv : (fillKey be bare templ k isRsa isPrivate).1 = .ok)
include hrv

/-- Storing a generated key writes its material and its class. -/
theorem findAttribute_fillKey {t : CkUlong}
    (ht : t ∉ if isRsa = true then rsaKeyTypes else ecKeyTypes) :
    (fillKey be bare templ k isRsa isPrivate).2.findAttribute t = templateValue t templ := by
  obtain ⟨happlied, hstored⟩ := thenStore_ok hrv
  have htempl := findAttribute_applyTemplate happlied t
  have hnone : bare.object.findAttribute t = none := rfl
  rw [hnone, Option.or_none] at htempl
  rw [fillKey, hstored, ← htempl]
  cases isRsa with
  | true => exact (writesOnly_storeKeyRsa k isPrivate).frame _ t ht
  | false => exact (writesOnly_storeKeyEc k isPrivate).frame _ t ht

theorem filledFrom_fillKey : FilledFrom bare templ (fillKey be bare templ k isRsa isPrivate).2 where
  fields := fillKey_sameFields bare templ k isRsa isPrivate
  attr t hmaterial hclass _ := by
    have hstored : t ∉ if isRsa = true then rsaKeyTypes else ecKeyTypes := by
      simp only [keyMaterialTypes, List.mem_cons, List.not_mem_nil, or_false, not_or] at hmaterial
      cases isRsa <;>
        simp only [rsaKeyTypes, ecKeyTypes, List.mem_cons, List.not_mem_nil, or_false, not_or,
          if_true, Bool.false_eq_true, if_false]
      · exact ⟨hmaterial.2.2.2.2.2, hmaterial.1, hmaterial.2.1, hclass⟩
      · exact ⟨hmaterial.2.2.2.1, hmaterial.2.2.1, hclass⟩
    refine ⟨none, ?_, fun _ => rfl⟩
    rw [findAttribute_fillKey hrv hstored, Option.or_none]

end Builders

/-! ### Class and flags of a created object -/

section Parse

variable {templ : List CkAttribute} {a : CkAttribute}

/-- What depends only on the entry of one type is read off that entry. -/
theorem foldl_read_of_mem {β : Type} (f : ClassAndFlags → β)
    (hframe : ∀ p b, b.type ≠ a.type → f (ClassAndFlags.read p b) = f p)
    (hdistinct : (templ.map (·.type)).Nodup) (ha : a ∈ templ) (p : ClassAndFlags) :
    ∃ q : ClassAndFlags, f (templ.foldl ClassAndFlags.read p) = f (q.read a) := by
  induction templ generalizing p with
  | nil => cases ha
  | cons b templ ih =>
    obtain ⟨hnew, hrest⟩ := List.nodup_cons.mp hdistinct
    rw [List.foldl_cons]
    rcases List.mem_cons.mp ha with rfl | hmem
    · -- The entries after it are of other types.
      have hlater : ∀ (bs : List CkAttribute) (q : ClassAndFlags), a.type ∉ bs.map (·.type) →
          f (bs.foldl ClassAndFlags.read q) = f q := by
        intro bs
        induction bs with
        | nil => exact fun _ _ => rfl
        | cons b bs ih =>
          intro q hbs
          rw [List.foldl_cons, ih _ fun hmem => hbs (List.mem_cons_of_mem _ hmem)]
          exact hframe q b fun heq => hbs (heq ▸ List.mem_cons_self)
      exact ⟨p, hlater templ (p.read a) hnew⟩
    · exact ih hrest hmem (p.read b)

theorem flag_of_bytes {b : Bool} (hvalue : a.value = .data (boolBytes b)) : a.flag = some b := by
  rw [CkAttribute.flag, hvalue]
  cases b <;> rfl

theorem objectClass_of_bytes {c : CkUlong} (hvalue : a.value = .data (ulongBytes c)) :
    a.objectClass = some c := by
  rw [CkAttribute.objectClass, hvalue]
  simp only [length_ulongBytes, bytesUlong_ulongBytes, if_true]

theorem ulongBytes_inj {x y : CkUlong} : ulongBytes x = ulongBytes y ↔ x = y := by
  refine ⟨fun heq => ?_, congrArg ulongBytes⟩
  rw [← bytesUlong_ulongBytes x, heq, bytesUlong_ulongBytes]

theorem objectClass_classFromAttr {c : CkUlong} (hc : c ∈ knownClasses) :
    (classFromAttr c).objectClass = c ↔ c ≠ ckoHwFeature ∧ c ≠ ckoDomainParameters := by
  simp only [knownClasses, List.mem_cons, List.not_mem_nil, or_false] at hc
  rcases hc with rfl | rfl | rfl | rfl | rfl | rfl | rfl | rfl <;> decide

theorem mem_fieldTypes {t : CkUlong} :
    t ∈ HsmObject.fieldTypes ↔ t = ckaClass ∨ t ∈ flagTypes ∨ t = ckaId := by
  simp only [HsmObject.fieldTypes, flagTypes, List.mem_cons, List.not_mem_nil, or_false, or_assoc]

/-- The flag that an attribute reports. -/
def ClassAndFlags.flagOf (p : ClassAndFlags) (t : CkUlong) : Bool :=
  if t = ckaToken then p.token
  else if t = ckaPrivate then p.priv
  else if t = ckaSensitive then p.sensitive
  else p.extractable

theorem ClassAndFlags.flagOf_read_of_ne (p : ClassAndFlags) {t : CkUlong} (ht : t ∈ flagTypes)
    (hne : a.type ≠ t) : (p.read a).flagOf t = p.flagOf t := by
  simp only [flagTypes, List.mem_cons, List.not_mem_nil, or_false] at ht
  rcases ht with rfl | rfl | rfl | rfl <;>
  · simp only [ClassAndFlags.read, hne, if_false]
    split_ifs <;> rfl

theorem ClassAndFlags.flagOf_read_self (p : ClassAndFlags) {t : CkUlong} {b : Bool}
    (ht : t ∈ flagTypes) (heq : a.type = t) (hb : a.flag = some b) : (p.read a).flagOf t = b := by
  simp only [flagTypes, List.mem_cons, List.not_mem_nil, or_false] at ht
  rcases ht with rfl | rfl | rfl | rfl <;>
  · simp only [ClassAndFlags.read, heq, hb]
    rfl

theorem attributeValue_of_mem_flagTypes {p : ClassAndFlags} {type : ObjectType} {t : CkUlong}
    (ht : t ∈ flagTypes) :
    (BareObject.mk type p.sensitive p.extractable p.token p.priv).object.attributeValue t =
      .ok (boolBytes (p.flagOf t)) := by
  simp only [flagTypes, List.mem_cons, List.not_mem_nil, or_false] at ht
  rcases ht with rfl | rfl | rfl | rfl <;> rfl

section Flags

variable {bare : BareObject} (hfits : TemplateFits templ) (ha : a ∈ templ)
include hfits ha

theorem cls_parse (htype : a.type = ckaClass) :
    ∃ c ∈ knownClasses, a.value.bytes = ulongBytes c ∧
      (templ.foldl ClassAndFlags.read {}).cls = some c := by
  obtain ⟨c, hc, hbytes⟩ := hfits.cls a ha htype
  have hvalue : a.value = .data (ulongBytes c) := hbytes ▸ hfits.value a ha
  obtain ⟨q, hq⟩ := foldl_read_of_mem ClassAndFlags.cls (fun p b hne => by
    rw [htype] at hne
    simp only [ClassAndFlags.read, hne, if_false]
    split_ifs <;> rfl) hfits.distinct ha {}
  refine ⟨c, hc, hbytes, ?_⟩
  rw [hq, ClassAndFlags.read, if_pos htype, objectClass_of_bytes hvalue]
  rfl

theorem flag_parse (htype : a.type ∈ flagTypes) :
    boolBytes ((templ.foldl ClassAndFlags.read {}).flagOf a.type) = a.value.bytes := by
  obtain ⟨b, hbytes⟩ := hfits.flag a ha htype
  have hvalue : a.value = .data (boolBytes b) := hbytes ▸ hfits.value a ha
  obtain ⟨q, hq⟩ := foldl_read_of_mem (fun p => p.flagOf a.type)
    (fun p b hne => p.flagOf_read_of_ne htype hne) hfits.distinct ha {}
  rw [hq, q.flagOf_read_self htype rfl (flag_of_bytes hvalue), hbytes]

/-- The flags of a created object are those of the template, and so is the class unless the parser
does not know it. The identifier is empty. -/
theorem attributeValue_parse_iff (hparse : parseClassAndFlags templ = some bare)
    (hfield : a.type ∈ HsmObject.fieldTypes) :
    bare.object.attributeValue a.type = .ok a.value.bytes ↔
      (a.type = ckaId → a.value.bytes = []) ∧ (a.type = ckaClass →
        a.value.bytes ≠ ulongBytes ckoHwFeature ∧
          a.value.bytes ≠ ulongBytes ckoDomainParameters) := by
  obtain ⟨cls, hcls, rfl⟩ := Option.map_eq_some_iff.mp hparse
  -- The parser has a field for the class and for each flag, but none for the identifier.
  rcases mem_fieldTypes.mp hfield with ht | ht | ht
  · obtain ⟨c, hc, hbytes, hparsed⟩ := cls_parse hfits ha ht
    obtain rfl := Option.mem_unique hcls hparsed
    rw [ht, HsmObject.attributeValue_class, hbytes]
    simp only [Except.ok.injEq, ulongBytes_inj, ne_eq, forall_const]
    exact (objectClass_classFromAttr hc).trans
      ⟨fun h => ⟨fun heq => absurd heq (by decide), h⟩, fun h => h.2⟩
  · rw [attributeValue_of_mem_flagTypes ht]
    have hne : ∀ t ∈ flagTypes, decide (t ≠ ckaId ∧ t ≠ ckaClass) = true :=
      forall_mem_of_all (by decide)
    obtain ⟨hid, hclass⟩ := of_decide_eq_true (hne a.type ht)
    exact iff_of_true (congrArg Except.ok (flag_parse hfits ha ht))
      ⟨fun h => absurd h hid, fun h => absurd h hclass⟩
  · rw [ht, HsmObject.attributeValue_id]
    constructor
    · intro heq
      exact ⟨fun _ => (Except.ok.inj heq).symm, fun h => absurd h (by decide)⟩
    · intro h
      rw [h.1 rfl]
      rfl

end Flags

end Parse

/-! ### Reading back -/

/-- Whatever else is asked for, `C_GetAttributeValue` returns the bytes `v` for the attribute when
its buffer has room for them. -/
def Hsm.ReadsAs (be : Backend) (hsm : Hsm) (h k t : CkUlong) (v : Bytes) : Prop :=
  ∀ (env : Env) (templ : List CkAttribute) (i : Nat) (old : Bytes),
    templ[i]? = some ⟨t, .data old⟩ → v.length ≤ old.length →
      (hsm.readEntries be h k env templ)[i]? = some ⟨.ok, v.length, .data (v ++ old.drop v.length)⟩

namespace Creation

/-- The calls whose templates are meant. -/
def FromTemplate : Creation → Prop
  | unwrapKey _ _ _ _ => False
  | deriveKey _ _ _ => False
  | _ => True

/-- The entry counts for an object that is sensitive or not: it is neither key material nor the
value of a sensitive object, nor, for a copy, what is fixed when an object is created. -/
structure Counts (c : Creation) (sensitive : Bool) (a : CkAttribute) : Prop where
  material : a.type ∉ keyMaterialTypes
  value : ¬ (a.type = ckaValue ∧ sensitive = true)
  fixed : ∀ object templ, c = .copyObject object templ → a.type ∉ [ckaClass, ckaKeyType]

/-- Class and flags of one of the new keys. -/
def PartBare (hsm : Hsm) (h : CkUlong) (c : Creation) (p : KeyTemplate) (b : BareObject) : Prop :=
  if p.isPublic then b = barePublicKey else c.Bare hsm h b

/-- The call takes the entry over into an object with these fields. -/
def Honours (c : Creation) (b : BareObject) (a : CkAttribute) : Prop :=
  a.isArray = false ∧
    match c with
    | createObject _ =>
      (a.type = ckaId → a.value.bytes = []) ∧ (a.type = ckaClass →
        a.value.bytes ≠ ulongBytes ckoHwFeature ∧
          a.value.bytes ≠ ulongBytes ckoDomainParameters)
    -- Whatever the template says, the fields are those that the call has fixed.
    | _ => a.type ∈ HsmObject.fieldTypes → b.object.attributeValue a.type = .ok a.value.bytes

/-- A pair needs two slots. -/
def HasRoom (hsm : Hsm) (h : CkUlong) : Creation → Prop
  | generateKeyPair _ _ _ => ∀ st, hsm.store h = some st → st.size + 1 < 2 ^ 32
  | _ => True

end Creation

/-- After a successful call there is an object for each of its templates, and every entry that
counts reads as it was given. -/
def ReadsBack (be : Backend) (env : Env) (hsm : Hsm) (h : CkUlong) (c : Creation) : Prop :=
  (hsm.api be (.onSession env h c.call)).1.rv = .ok →
    List.Forall₂ (fun p k => ∃ o, (hsm.api be (.onSession env h c.call)).2.getObject h k = some o ∧
        ∀ a ∈ p.templ, c.Counts o.sensitive a →
          (hsm.api be (.onSession env h c.call)).2.ReadsAs be h k a.type a.value.bytes)
      c.templates (hsm.api be (.onSession env h c.call)).1.handles

section Creations

variable {be : Backend} {env : Env} {hsm : Hsm} {h k t : CkUlong} {c : Creation}

namespace Hsm

theorem readsAs_iff {v : Bytes} :
    ReadsAs be hsm h k t v ↔
      hsm.initialized = true ∧ ∃ o, hsm.getObject h k = some o ∧ o.attributeValue t = .ok v := by
  constructor
  · intro hreads
    exact returns_iff.mp ⟨{}, [⟨t, .data v⟩], 0, v, rfl, hreads {} _ 0 v rfl (Nat.le_refl _)⟩
  · rintro ⟨hinit, o, ho, hvalue⟩ env templ i old ha hlen
    rw [readEntries_eq, hinit, ho]
    simp only [List.getElem?_map, ha, Option.map_some, HsmObject.getAttribute_of_ok_data hvalue,
      Nat.not_lt.mpr hlen, if_false]

end Hsm

theorem Creation.partBare_unique {p : KeyTemplate} {b b' : BareObject} (hc : c.FromTemplate)
    (hb : c.PartBare hsm h p b) (hb' : c.PartBare hsm h p b') : b = b' := by
  unfold PartBare at hb hb'
  split_ifs at hb hb'
  · exact hb.trans hb'.symm
  · cases c with
    | createObject templ => exact Option.mem_unique hb hb'
    | copyObject object templ =>
      obtain ⟨src, hsrc, rfl⟩ := hb
      obtain ⟨src', hsrc', rfl⟩ := hb'
      rw [Option.mem_unique hsrc hsrc']
    | generateKey mech templ | generateKeyPair mech pubTempl privTempl => exact hb.trans hb'.symm
    | unwrapKey | deriveKey => exact hc.elim

theorem Creation.Builds.filledFrom {b : Built} (hc : c.FromTemplate)
    (hone : c.templates = [⟨false, c.templ⟩]) (hb : c.Builds be hsm h b) (hrv : b.rv = .ok) :
    FilledFrom b.bare c.templ b.built := by
  cases c with
  | createObject templ =>
    obtain ⟨bare, -, rfl⟩ := hb
    exact filledFrom_ofTemplate hrv
  | copyObject object templ =>
    obtain ⟨src, -, rfl⟩ := hb
    exact filledFrom_copyOf hrv
  | generateKey mech templ =>
    obtain ⟨raw, rfl⟩ := hb
    exact filledFrom_secret hrv
  | generateKeyPair mech pubTempl privTempl => cases hone
  | unwrapKey | deriveKey => exact hc.elim

/-- The private key of a pair is filled only when the public one is. -/
theorem Built.privateKey_ok {pub : Built} {templ : List CkAttribute} {key : be.Pkey} {isRsa : Bool}
    (hrv : (Built.privateKey be pub templ key isRsa).rv = .ok) :
    pub.rv = .ok ∧ (fillKey be barePrivateKey templ key isRsa true).1 = .ok ∧
      (Built.privateKey be pub templ key isRsa).built =
        (fillKey be barePrivateKey templ key isRsa true).2 := by
  have hpub : pub.rv = .ok := by
    by_contra hfailed
    simp only [Built.privateKey, hfailed, if_false] at hrv
  exact ⟨hpub, (if_pos hpub).symm.trans hrv, if_pos hpub⟩

theorem filledFrom_pair {pub : Built} {pubTempl privTempl : List CkAttribute} {key : be.Pkey}
    {isRsa : Bool} (hpub : pub = .publicKey be pubTempl key isRsa)
    (hrv : (Built.privateKey be pub privTempl key isRsa).rv = .ok) :
    FilledFrom barePublicKey pubTempl pub.built ∧
      FilledFrom barePrivateKey privTempl (Built.privateKey be pub privTempl key isRsa).built := by
  obtain ⟨hfirst, hsecond, hbuilt⟩ := Built.privateKey_ok hrv
  subst hpub
  exact ⟨filledFrom_fillKey hfirst, hbuilt ▸ filledFrom_fillKey hsecond⟩

/-- No refusal of a generation says that it went well. -/
theorem ne_ok_of_generatePair_error {seed : Nat} {m : CkMechanism} {rv : CkRv}
    {pubTempl privTempl : List CkAttribute}
    (herror : Hsm.generatePair be seed m pubTempl privTempl = .error rv) : rv ≠ .ok := by
  have hfails : Fails (fun _ => True) (Hsm.generatePair be seed m pubTempl privTempl) := by
    unfold Hsm.generatePair
    split_ifs
    · simp only [rsaGenerateKey]
      split_ifs
      · exact fun h => by cases h
      · exact fails_orRefuse_bind (by decide) fun _ _ => trivial
    · exact fails_orRefuse_bind (by decide) fun _ _ => trivial
    · exact fun h => by cases h
  rw [herror] at hfails
  exact hfails

theorem Creation.FromTemplate.fails_call (hc : c.FromTemplate) :
    Fails (fun _ => True) (hsm.sessionCall be env h c.call) := by
  cases c <;> simp only [Creation.call, Hsm.sessionCall, Hsm.objectCall, Hsm.keyCall,
    Hsm.cCreateObject, Hsm.cCopyObject, Hsm.cGenerateKey, Hsm.cGenerateKeyPair, Hsm.checkInitialized]
  case unwrapKey | deriveKey => exact hc.elim
  all_goals repeat first
    | refine fails_check (by decide) ?_
    | refine fails_orRefuse_bind (by decide) fun _ _ => ?_
  case generateKeyPair =>
    exact fails_bind (fun _ herror => ne_ok_of_generatePair_error herror) fun _ => trivial
  all_goals trivial

/-- A successful call hands back one filled object for each of its templates. -/
theorem filledFrom_of_creation (hc : c.FromTemplate) (hroom : c.HasRoom hsm h)
    (hok : (hsm.api be (.onSession env h c.call)).1.rv = .ok) :
    (hsm.api be (.onSession env h c.call)).2.initialized = true ∧
      List.Forall₂ (fun p k => ∃ b o, c.PartBare hsm h p b ∧ FilledFrom b p.templ o ∧
          (hsm.api be (.onSession env h c.call)).2.getObject h k = some o)
        c.templates (hsm.api be (.onSession env h c.call)).1.handles := by
  -- No refusal answers `CKR_OK`, so the call has had an effect.
  obtain ⟨e, he⟩ := Hsm.exists_of_finish_ok hc.fails_call hok
  refine ⟨(Hsm.initialized_finish _ _).trans (Hsm.initialized_of_creation he), ?_⟩
  simp only [Hsm.api, he, Hsm.finish_answer] at hok ⊢
  obtain ⟨st, hst, hone | hpair⟩ := Hsm.effect_of_creation he
  · obtain ⟨b, htempl, hbuilds, hedit, hanswer⟩ := hone
    have hrv : b.rv = .ok := by rwa [hanswer] at hok
    have hhandles : e.answer.handles = [st.newHandle] := by
      rw [hanswer, Effect.created, if_pos hrv]
    have hget := Hsm.getObject_finish_created hst hedit hanswer (k := st.newHandle)
      (by rw [hhandles]; rfl)
    rw [htempl, hhandles]
    exact .cons ⟨b.bare, b.built, hbuilds.bare, hbuilds.filledFrom hc htempl hrv, hget⟩ .nil
  · obtain ⟨pub, priv, m, pubTempl, privTempl, key, isRsa, rfl, -, hpub, rfl, hedit, hrv,
      hhandles⟩ := hpair
    rw [hok] at hrv
    obtain ⟨hfirst, hsecond⟩ := filledFrom_pair hpub hrv.symm
    rw [hhandles, if_pos hrv.symm]
    refine .cons ⟨barePublicKey, pub.built, rfl, hfirst, ?_⟩
      (.cons ⟨barePrivateKey, _, rfl, hsecond, ?_⟩ .nil)
    · rw [Hsm.getObject_finish hst, hedit]
      exact ObjectStore.getObject_buildPair_pub (hroom st hst) hrv.symm (.inl rfl)
    · rw [Hsm.getObject_finish hst, hedit]
      exact ObjectStore.getObject_buildPair_priv (hroom st hst) hrv.symm (.inl rfl)

/-- The entries that are honoured are those that a filled object reports. -/
theorem Creation.honours_iff {p : KeyTemplate} {b : BareObject} {a : CkAttribute}
    (hp : p ∈ c.templates) (hb : c.PartBare hsm h p b) (hfits : TemplateFits p.templ)
    (ha : a ∈ p.templ) :
    c.Honours b a ↔ a.isArray = false ∧ (a.type ∈ HsmObject.fieldTypes →
      b.object.attributeValue a.type = .ok a.value.bytes) := by
  cases c with
  | createObject templ =>
    obtain rfl := List.mem_singleton.mp hp
    refine and_congr_right fun _ => ?_
    by_cases hfield : a.type ∈ HsmObject.fieldTypes
    · rw [attributeValue_parse_iff hfits ha hb hfield]
      exact ⟨fun hgiven _ => hgiven, fun hgiven => hgiven hfield⟩
    · have hid : a.type ≠ ckaId := fun heq => hfield (heq ▸ by decide)
      have hclass : a.type ≠ ckaClass := fun heq => hfield (heq ▸ by decide)
      exact iff_of_true ⟨fun heq => absurd heq hid, fun heq => absurd heq hclass⟩
        fun hmem => absurd hmem hfield
  | copyObject | generateKey | generateKeyPair | unwrapKey | deriveKey => exact Iff.rfl

theorem forall₂_iff_forall_mem {α β : Type} {R S : α → β → Prop} {P : α → Prop} {l : List α}
    {u : List β} (hR : List.Forall₂ R l u) (hS : ∀ a ∈ l, ∀ b, R a b → (S a b ↔ P a)) :
    List.Forall₂ S l u ↔ ∀ a ∈ l, P a := by
  induction hR with
  | nil => simp
  | cons hab _ ih =>
    rw [List.forall₂_cons, List.forall_mem_cons, hS _ List.mem_cons_self _ hab,
      ih fun a ha => hS a (List.mem_cons_of_mem _ ha)]

/-- What a call was given reads back exactly when the call honours every entry that counts. -/
theorem readsBack_iff (hc : c.FromTemplate) (hroom : c.HasRoom hsm h)
    (hfits : ∀ p ∈ c.templates, TemplateFits p.templ)
    (hok : (hsm.api be (.onSession env h c.call)).1.rv = .ok) :
    ReadsBack be env hsm h c ↔ ∀ p ∈ c.templates, ∀ b, c.PartBare hsm h p b →
      ∀ a ∈ p.templ, c.Counts b.sensitive a → c.Honours b a := by
  obtain ⟨hinit, hfilled⟩ := filledFrom_of_creation hc hroom hok
  rw [ReadsBack, imp_iff_right hok]
  refine forall₂_iff_forall_mem hfilled fun p hp k => ?_
  rintro ⟨b, o, hb, hfill, ho⟩
  have hsensitive : o.sensitive = b.sensitive := hfill.fields.sensitive
  -- For an entry that counts, both sides say that the object reports it.
  have hentry (a : CkAttribute) (ha : a ∈ p.templ) (hcounts : c.Counts o.sensitive a) :
      (hsm.api be (.onSession env h c.call)).2.ReadsAs be h k a.type a.value.bytes ↔
        c.Honours b a := by
    rw [c.honours_iff hp hb (hfits p hp) ha, Hsm.readsAs_iff, ho,
      ← hfill.attributeValue_iff (hfits p hp) ha hcounts.material hcounts.value]
    simp [hinit]
  constructor
  · rintro ⟨o', ho', hreads⟩ b' hb' a ha hcounts
    obtain rfl := Option.mem_unique ho ho'
    obtain rfl := c.partBare_unique hc hb hb'
    rw [← hsensitive] at hcounts
    exact (hentry a ha hcounts).mp (hreads a ha hcounts)
  · intro hhonours
    refine ⟨o, ho, fun a ha hcounts => ?_⟩
    exact (hentry a ha hcounts).mpr (hhonours b hb a ha (hsensitive ▸ hcounts))

end Creations

/-! ### A label and an identifier -/

/-- An elliptic-curve pair with a label on both keys. -/
def labelledPair : Creation :=
  .generateKeyPair (some ⟨ckmEcKeyPairGen, .absent⟩) [⟨ckaLabel, .data [107]⟩]
    [⟨ckaLabel, .data [107]⟩]

theorem readsBack_labelledPair : ReadsBack .toy {} Hsm.oneSession 1 labelledPair := by
  have hlabel : ∀ p ∈ labelledPair.templates, p.templ = [⟨ckaLabel, .data [107]⟩] := by
    intro p hp
    rcases List.mem_cons.mp hp with rfl | hp
    · rfl
    · rw [List.mem_singleton.mp hp]
  refine (readsBack_iff (c := labelledPair) trivial ?_ ?_ rfl).mpr ?_
  · intro st hst
    cases hst
    decide
  · intro p hp
    rw [hlabel p hp]
    refine ⟨List.nodup_singleton _, ?_, ?_, ?_⟩ <;> intro a ha <;> rw [List.mem_singleton.mp ha]
    · rfl
    · exact fun ht => absurd ht (by decide)
    · exact fun ht => absurd ht (by decide)
  · intro p hp b _ a ha _
    rw [hlabel p hp] at ha
    rw [List.mem_singleton.mp ha]
    exact ⟨rfl, fun hfield => absurd hfield (by decide)⟩

/-- The identifier of an object that `C_CreateObject` makes is lost. -/
theorem not_readsBack_id :
    ¬ ReadsBack .toy {} Hsm.oneSession 1
      (.createObject [⟨ckaClass, .data (ulongBytes ckoData)⟩, ⟨ckaId, .data [1]⟩]) := by
  intro hreads
  obtain ⟨o, -, hentries⟩ := (List.forall₂_cons.mp (hreads rfl)).1
  have hentry := hentries ⟨ckaId, .data [1]⟩ (List.mem_cons_of_mem _ List.mem_cons_self)
    ⟨by decide, fun h => absurd h.1 (by decide), fun _ _ h => by cases h⟩
  obtain ⟨-, o', ho', hvalue⟩ := Hsm.readsAs_iff.mp hentry
  cases ho'
  cases hvalue

end VirtualHsm
