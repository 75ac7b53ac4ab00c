import Mathlib.Logic.Function.Basic
import VirtualHsm.CS.LittleEndian
import VirtualHsm.Pkcs11.Types

/-!
# Key-store objects and their attribute interface

An `HsmObject` keeps its class, four flags and its identifier in fields of their own and every
other attribute in a map. `getAttribute` and `setAttribute` are the attribute store: they
decide for each attribute type which of the two representations they read or write.
-/

namespace VirtualHsm

/-- The object classes of the store, with the numbers of the source enumeration. -/
inductive ObjectType
  | data
  | certificate
  | publicKey
  | privateKey
  | secretKey
  | hardwareFeature
  | domainParameters
  | other
  deriving DecidableEq, Repr

namespace ObjectType

/-- The enumeration value, under which the store indexes the object. -/
def toNum : ObjectType → UInt32
  | data => 0
  | certificate => 1
  | publicKey => 2
  | privateKey => 3
  | secretKey => 4
  | hardwareFeature => 5
  | domainParameters => 6
  | other => 7

/-- The `CKO_*` class reported for the object. -/
def objectClass : ObjectType → CkUlong
  | data => ckoData
  | certificate => ckoCertificate
  | publicKey => ckoPublicKey
  | privateKey => ckoPrivateKey
  | secretKey => ckoSecretKey
  | hardwareFeature => ckoHwFeature
  | domainParameters => ckoDomainParameters
  | other => ckoOther

end ObjectType

/-- A `CK_ULONG` as the bytes of the little-endian builds. -/
def ulongBytes (v : CkUlong) : Bytes := CS.toLe 8 v.toNat

/-- The `CK_ULONG` that the first bytes of a buffer hold. -/
def bytesUlong (bs : Bytes) : CkUlong := UInt64.ofNat (CS.ofLe bs)

@[simp] theorem length_ulongBytes (v : CkUlong) : (ulongBytes v).length = 8 :=
  CS.length_toLe 8 v.toNat

@[simp] theorem bytesUlong_ulongBytes (v : CkUlong) : bytesUlong (ulongBytes v) = v := by
  have hlt : v.toNat < 256 ^ 8 := v.toNat_lt
  rw [bytesUlong, ulongBytes, CS.ofLe_toLe_of_lt hlt, UInt64.ofNat_toNat]

/-- A `CK_BBOOL` as one byte. -/
def boolBytes (b : Bool) : Bytes := [if b then ckTrue else ckFalse]

/-- The life-cycle state of a key. The source casts an arbitrary stored octet, so values
outside the enumeration occur. -/
inductive KeyState
  | active
  | rotating
  | revoked
  | unnamed (code : UInt8)
  deriving DecidableEq, Repr

namespace KeyState

def ofCode (code : UInt8) : KeyState :=
  if code = 0 then active
  else if code = 1 then rotating
  else if code = 2 then revoked
  else unnamed code

def code : KeyState → UInt8
  | active => 0
  | rotating => 1
  | revoked => 2
  | unnamed c => c

end KeyState

/-- An object of the key store. -/
@[ext]
structure HsmObject where
  type : ObjectType
  sensitive : Bool := false
  extractable : Bool := true
  token : Bool := false
  priv : Bool := false
  /-- The identifier field; `none` when it is not set. -/
  id : Option Bytes := none
  /-- All attributes that have no field of their own. -/
  attrs : CkUlong → Option Bytes := fun _ => none

namespace HsmObject

variable (o : HsmObject)

/-- The raw attribute map. -/
def findAttribute (t : CkUlong) : Option Bytes := o.attrs t

/-- Store bytes in the raw attribute map, without any check. -/
def setAttribute (t : CkUlong) (v : Bytes) : HsmObject :=
  { o with attrs := Function.update o.attrs t (some v) }

def getId : Bytes := o.id.getD []

def setId (v : Bytes) : HsmObject := { o with id := if v = [] then none else some v }

def getKeyState : KeyState :=
  match o.findAttribute ckaVhsmKeyState with
  | some (b :: _) => KeyState.ofCode b
  | _ => KeyState.active

def setKeyState (s : KeyState) : HsmObject := o.setAttribute ckaVhsmKeyState [s.code]

section Fields

variable (t : CkUlong) (v : Bytes)

@[simp] theorem findAttribute_setAttribute_self :
    (o.setAttribute t v).findAttribute t = some v := by
  simp [findAttribute, setAttribute]

theorem findAttribute_setAttribute_of_ne {t' : CkUlong} (h : t' ≠ t) :
    (o.setAttribute t v).findAttribute t' = o.findAttribute t' := by
  simp [findAttribute, setAttribute, h]

@[simp] theorem setAttribute_sensitive : (o.setAttribute t v).sensitive = o.sensitive := rfl
@[simp] theorem setAttribute_extractable : (o.setAttribute t v).extractable = o.extractable := rfl

@[simp] theorem setId_sensitive : (o.setId v).sensitive = o.sensitive := rfl
@[simp] theorem setId_extractable : (o.setId v).extractable = o.extractable := rfl
@[simp] theorem setId_findAttribute : (o.setId v).findAttribute t = o.findAttribute t := rfl

end Fields

/-! ### Reading an attribute -/

/-- The value of an attribute, or the code with which reading it is refused. Class, flags and
identifier come from the fields; `CKA_VALUE` of a sensitive object is refused; everything else
comes from the map. -/
def attributeValue (t : CkUlong) : Except CkRv Bytes :=
  if t = ckaClass then .ok (ulongBytes o.type.objectClass)
  else if t = ckaToken then .ok (boolBytes o.token)
  else if t = ckaPrivate then .ok (boolBytes o.priv)
  else if t = ckaSensitive then .ok (boolBytes o.sensitive)
  else if t = ckaExtractable then .ok (boolBytes o.extractable)
  else if t = ckaId then .ok o.getId
  else if t = ckaValue ∧ o.sensitive then .error .attributeSensitive
  else
    match o.findAttribute t with
    | some v => .ok v
    | none => .error .attributeTypeInvalid

/-- What reading an attribute into a caller's buffer returns: the code, the length written back
and the buffer afterwards. -/
structure AttributeAnswer where
  rv : CkRv
  len : Nat
  buf : CkBuf
  deriving DecidableEq, Repr

/-- `v_get_attribute`: a length query through a null pointer, otherwise a copy into the buffer
when it is large enough. -/
def getAttribute (t : CkUlong) (buf : CkBuf) : AttributeAnswer :=
  match o.attributeValue t with
  | .error rv => ⟨rv, ckUnavailableInformation, buf⟩
  | .ok v =>
    match buf with
    | .null _ => ⟨.ok, v.length, buf⟩
    | .data old =>
      if old.length < v.length then ⟨.bufferTooSmall, v.length, buf⟩
      else ⟨.ok, v.length, .data (v ++ old.drop v.length)⟩

section Fields

theorem attributeValue_class :
    o.attributeValue ckaClass = .ok (ulongBytes o.type.objectClass) := rfl
theorem attributeValue_token : o.attributeValue ckaToken = .ok (boolBytes o.token) := rfl
theorem attributeValue_private : o.attributeValue ckaPrivate = .ok (boolBytes o.priv) := rfl
theorem attributeValue_sensitive :
    o.attributeValue ckaSensitive = .ok (boolBytes o.sensitive) := rfl
theorem attributeValue_extractable :
    o.attributeValue ckaExtractable = .ok (boolBytes o.extractable) := rfl
theorem attributeValue_id : o.attributeValue ckaId = .ok o.getId := rfl

variable {o}

theorem attributeValue_value_of_sensitive (h : o.sensitive = true) :
    o.attributeValue ckaValue = .error .attributeSensitive := by
  change (if _ ∧ o.sensitive = true then _ else _) = _
  rw [if_pos ⟨rfl, h⟩]

end Fields

section Read

variable {o} {t : CkUlong} {v : Bytes} {rv : CkRv}

theorem attributeValue_error (h : o.attributeValue t = .error rv) :
    rv = .attributeSensitive ∨ rv = .attributeTypeInvalid := by
  unfold attributeValue at h
  split_ifs at h
  · exact .inl (Except.error.inj h).symm
  · cases hfind : o.findAttribute t with
    | none =>
      rw [hfind] at h
      exact .inr (Except.error.inj h).symm
    | some v =>
      rw [hfind] at h
      cases h

theorem getAttribute_of_error (h : o.attributeValue t = .error rv) (buf : CkBuf) :
    o.getAttribute t buf = ⟨rv, ckUnavailableInformation, buf⟩ := by
  rw [getAttribute, h]

theorem getAttribute_of_ok_null (h : o.attributeValue t = .ok v) (n : Nat) :
    o.getAttribute t (.null n) = ⟨.ok, v.length, .null n⟩ := by
  rw [getAttribute, h]

theorem getAttribute_of_ok_data (h : o.attributeValue t = .ok v) (old : Bytes) :
    o.getAttribute t (.data old) =
      if old.length < v.length then ⟨.bufferTooSmall, v.length, .data old⟩
      else ⟨.ok, v.length, .data (v ++ old.drop v.length)⟩ := by
  rw [getAttribute, h]

theorem attributeValue_of_getAttribute_rv {buf : CkBuf}
    (h : (o.getAttribute t buf).rv = .attributeSensitive) :
    o.attributeValue t = .error .attributeSensitive := by
  cases hvalue : o.attributeValue t with
  | error rv =>
    rw [getAttribute_of_error hvalue] at h
    exact congrArg _ h
  | ok v =>
    cases buf with
    | null n =>
      rw [getAttribute_of_ok_null hvalue] at h
      cases h
    | data old =>
      rw [getAttribute_of_ok_data hvalue] at h
      split_ifs at h

end Read

/-! ### Writing an attribute -/

def isReadOnly (t : CkUlong) : Bool :=
  if t = ckaClass ∨ t = ckaToken ∨ t = ckaPrivate then true
  else if t = ckaSensitive then o.sensitive
  else if t = ckaExtractable then !o.extractable
  else false

/-- The classes a class attribute may name. -/
def knownClasses : List CkUlong :=
  [ckoData, ckoCertificate, ckoPublicKey, ckoPrivateKey, ckoSecretKey, ckoHwFeature,
    ckoDomainParameters, ckoOther]

/-- `v_validate_attribute`: the pointer, length and value checks by attribute type. -/
def validateAttribute (t : CkUlong) (value : CkBuf) : CkRv :=
  if value.isNull ∧ 0 < value.len then .argumentsBad
  else if t = ckaClass then
    if value.len ≠ 8 then .attributeValueInvalid
    else if bytesUlong value.bytes ∈ knownClasses then .ok
    else .attributeValueInvalid
  else if t = ckaToken ∨ t = ckaPrivate ∨ t = ckaSensitive ∨ t = ckaExtractable then
    if value.bytes = [ckFalse] ∨ value.bytes = [ckTrue] then .ok
    else .attributeValueInvalid
  else .ok

/-- `v_set_attribute`: identifier and the two settable flags go to their fields, every other
attribute to the map. -/
def setAttributeChecked (a : CkAttribute) : CkRv × HsmObject :=
  if o.isReadOnly a.type then (.attributeReadOnly, o)
  else
    match validateAttribute a.type a.value with
    | .ok =>
      if a.type = ckaClass ∨ a.type = ckaToken ∨ a.type = ckaPrivate then
        (.attributeReadOnly, o)
      else if a.type = ckaId then (.ok, o.setId a.value.bytes)
      else if a.type = ckaSensitive then
        if o.sensitive ∧ a.value.bytes = [ckFalse] then (.attributeReadOnly, o)
        else (.ok, { o with sensitive := a.value.bytes = [ckTrue] })
      else if a.type = ckaExtractable then
        if ¬ o.extractable ∧ a.value.bytes ≠ [ckFalse] then (.attributeReadOnly, o)
        else (.ok, { o with extractable := a.value.bytes = [ckTrue] })
      else (.ok, o.setAttribute a.type a.value.bytes)
    | rv => (rv, o)

/-- The attribute types that have a field of their own. -/
def fieldTypes : List CkUlong :=
  [ckaClass, ckaToken, ckaPrivate, ckaSensitive, ckaExtractable, ckaId]

section Map

variable {o} {t : CkUlong}

/-- Attributes without a field are read from the map, the value of a sensitive object apart. -/
theorem attributeValue_of_notMem (ht : t ∉ fieldTypes)
    (hvalue : ¬ (t = ckaValue ∧ o.sensitive = true)) :
    o.attributeValue t = (o.findAttribute t).elim (.error .attributeTypeInvalid) .ok := by
  simp only [fieldTypes, List.mem_cons, List.not_mem_nil, or_false, not_or] at ht
  obtain ⟨hclass, htoken, hprivate, hsensitive, hextractable, hid⟩ := ht
  simp only [attributeValue, hclass, htoken, hprivate, hsensitive, hextractable, hid, hvalue,
    if_false]
  cases o.findAttribute t <;> rfl

theorem attributeValue_value_eq_sensitive_iff :
    o.attributeValue ckaValue = .error .attributeSensitive ↔ o.sensitive = true := by
  constructor
  · intro h
    by_contra hclear
    rw [attributeValue_of_notMem (by decide) fun hboth => hclear hboth.2] at h
    cases hfind : o.findAttribute ckaValue with
    | none => simp [hfind] at h
    | some v => simp [hfind] at h
  · exact attributeValue_value_of_sensitive

end Map

/-- Everything a write can do: it is refused and changes nothing, or it sets the identifier, a
flag that still may change, or an entry of the map. -/
theorem setAttributeChecked_cases (a : CkAttribute) :
    ((o.setAttributeChecked a).1 ≠ .ok ∧ (o.setAttributeChecked a).2 = o) ∨
    (a.type = ckaId ∧ o.setAttributeChecked a = (.ok, o.setId a.value.bytes)) ∨
    (a.type = ckaSensitive ∧ o.sensitive = false ∧
      o.setAttributeChecked a = (.ok, { o with sensitive := a.value.bytes = [ckTrue] })) ∨
    (a.type = ckaExtractable ∧ o.extractable = true ∧
      o.setAttributeChecked a = (.ok, { o with extractable := a.value.bytes = [ckTrue] })) ∨
    (a.type ∉ fieldTypes ∧
      o.setAttributeChecked a = (.ok, o.setAttribute a.type a.value.bytes)) := by
  unfold setAttributeChecked
  by_cases hro : o.isReadOnly a.type = true
  · exact .inl (by simp [hro])
  rw [if_neg hro]
  cases hvalid : validateAttribute a.type a.value
  case ok =>
    by_cases hfixed : a.type = ckaClass ∨ a.type = ckaToken ∨ a.type = ckaPrivate
    · exact .inl (by simp [hfixed])
    by_cases hid : a.type = ckaId
    · exact .inr (.inl ⟨hid, by simp only [if_neg hfixed, if_pos hid]⟩)
    -- The read-only test has already excluded the values the two flag branches refuse.
    by_cases hsens : a.type = ckaSensitive
    · have hclear : o.sensitive = false := by
        simpa [isReadOnly, hsens, ckaSensitive, ckaClass, ckaToken, ckaPrivate] using hro
      refine .inr (.inr (.inl ⟨hsens, hclear, ?_⟩))
      simp only [if_neg hfixed, if_neg hid, if_pos hsens, hclear]
      simp
    by_cases hext : a.type = ckaExtractable
    · have hset : o.extractable = true := by
        simpa [isReadOnly, hext, ckaExtractable, ckaSensitive, ckaClass, ckaToken, ckaPrivate]
          using hro
      refine .inr (.inr (.inr (.inl ⟨hext, hset, ?_⟩)))
      simp only [if_neg hfixed, if_neg hid, if_neg hsens, if_pos hext, hset]
      simp
    · refine .inr (.inr (.inr (.inr ⟨?_, ?_⟩)))
      · simp only [fieldTypes, List.mem_cons, List.not_mem_nil, or_false]
        tauto
      · simp only [if_neg hfixed, if_neg hid, if_neg hsens, if_neg hext]
  all_goals exact .inl ⟨by simp, rfl⟩

@[simp] theorem setAttributeChecked_type (a : CkAttribute) :
    (o.setAttributeChecked a).2.type = o.type := by
  rcases o.setAttributeChecked_cases a with ⟨-, h⟩ | ⟨-, h⟩ | ⟨-, -, h⟩ | ⟨-, -, h⟩ | ⟨-, h⟩ <;>
    rw [h] <;> rfl

/-- A non-extractable object stays so whatever is written to it. -/
theorem setAttributeChecked_extractable {a : CkAttribute} (h : o.extractable = false) :
    (o.setAttributeChecked a).2.extractable = false := by
  rcases o.setAttributeChecked_cases a with
    ⟨-, hr⟩ | ⟨-, hr⟩ | ⟨-, -, hr⟩ | ⟨-, hset, -⟩ | ⟨-, hr⟩
  · rw [hr, h]
  · rw [hr, setId_extractable, h]
  · rw [hr]; exact h
  · rw [h] at hset; cases hset
  · rw [hr, setAttribute_extractable, h]

/-- A sensitive object stays so whatever is written to it. -/
theorem setAttributeChecked_sensitive {a : CkAttribute} (h : o.sensitive = true) :
    (o.setAttributeChecked a).2.sensitive = true := by
  rcases o.setAttributeChecked_cases a with
    ⟨-, hr⟩ | ⟨-, hr⟩ | ⟨-, hclear, -⟩ | ⟨-, -, hr⟩ | ⟨-, hr⟩
  · rw [hr, h]
  · rw [hr, setId_sensitive, h]
  · rw [h] at hclear; cases hclear
  · rw [hr]; exact h
  · rw [hr, setAttribute_sensitive, h]

end HsmObject

/-! ### Objects under construction -/

/-- Class and flags of an object as it is created, before it has any attribute. -/
structure BareObject where
  type : ObjectType
  sensitive : Bool := false
  extractable : Bool := true
  token : Bool := false
  priv : Bool := false
  deriving DecidableEq, Repr

def BareObject.object (b : BareObject) : HsmObject :=
  { type := b.type, sensitive := b.sensitive, extractable := b.extractable, token := b.token
    priv := b.priv }

/-- Two objects agree in class, flags and identifier. -/
structure SameFields (o o' : HsmObject) : Prop where
  type : o'.type = o.type
  sensitive : o'.sensitive = o.sensitive
  extractable : o'.extractable = o.extractable
  token : o'.token = o.token
  priv : o'.priv = o.priv
  id : o'.id = o.id

namespace SameFields

variable {o o' o'' : HsmObject}

theorem refl (o : HsmObject) : SameFields o o := ⟨rfl, rfl, rfl, rfl, rfl, rfl⟩

theorem trans (h : SameFields o o') (h' : SameFields o' o'') : SameFields o o'' :=
  ⟨h'.type.trans h.type, h'.sensitive.trans h.sensitive, h'.extractable.trans h.extractable,
    h'.token.trans h.token, h'.priv.trans h.priv, h'.id.trans h.id⟩

theorem setAttribute (o : HsmObject) (t : CkUlong) (v : Bytes) :
    SameFields o (o.setAttribute t v) := ⟨rfl, rfl, rfl, rfl, rfl, rfl⟩

end SameFields

end VirtualHsm
