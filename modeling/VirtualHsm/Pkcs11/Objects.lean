import VirtualHsm.Core.Utils
import VirtualHsm.Pkcs11.Call
import VirtualHsm.Pkcs11.Template

/-!
# Object management

The entry points that create, copy, destroy, read, write and search objects. An output pointer
is passed as a flag that says whether it is not null.
-/

namespace VirtualHsm

/-! ### Creation and destruction -/

/-- The effect of creating one object: the caller gets its handle when filling it succeeded. -/
def Effect.created (st : ObjectStore) (b : Built) : Effect where
  answer := { rv := b.rv, handles := if b.rv = .ok then [st.newHandle] else [] }
  edit := .build b

/-- The object that the template of `C_CreateObject` describes. -/
def Built.ofTemplate (bare : BareObject) (templ : List CkAttribute) : Built where
  bare := bare
  built := (applyTemplate bare.object templ).2
  rv := (applyTemplate bare.object templ).1
  sameFields := applyTemplate_sameFields _ _

/-- A new object with the class and the flags of another, and no attributes. -/
def HsmObject.bareCopy (src : HsmObject) : BareObject :=
  { type := src.type, sensitive := src.sensitive, extractable := src.extractable
    token := src.token, priv := src.priv }

/-- The copy that `C_CopyObject` builds: material of the source, then the template. -/
def Built.copyOf (src : HsmObject) (templ : List CkAttribute) : Built where
  bare := src.bareCopy
  built := (applyTemplate (copyMaterial src.bareCopy.object src) templ).2
  rv := (applyTemplate (copyMaterial src.bareCopy.object src) templ).1
  sameFields := (copyMaterial_sameFields _ _).trans (applyTemplate_sameFields _ _)

namespace Hsm

variable (hsm : Hsm)

def cCreateObject (session : CkUlong) (templ : List CkAttribute) (phObject : Bool) :
    Except CkRv Effect := do
  hsm.checkInitialized
  refuseIf (phObject = false) .argumentsBad
  let st ← orRefuse (hsm.store session) .sessionHandleInvalid
  let bare ← orRefuse (parseClassAndFlags templ) .templateIncomplete
  return Effect.created st (Built.ofTemplate bare templ)

def cCopyObject (session object : CkUlong) (templ : List CkAttribute) (phNewObject : Bool) :
    Except CkRv Effect := do
  hsm.checkInitialized
  refuseIf (phNewObject = false) .argumentsBad
  let st ← orRefuse (hsm.store session) .sessionHandleInvalid
  let src ← orRefuse (st.getObject object) .objectHandleInvalid
  -- An object that is not extractable may be copied.
  refuseIf (src.sensitive = true) .actionProhibited
  return Effect.created st (Built.copyOf src templ)

/-- A number in the decimal form of the event texts. -/
def decimal (n : CkUlong) : String := toString n.toNat

def destroyEvent (slotId : CkUlong) (tokenLabel : Bytes) (object : CkUlong) : P11Event where
  type := .keyDestroyed
  severity := .warning
  slotId := slotInt slotId
  tokenLabel := tokenLabel
  keyId := (decimal object).toUTF8.toList
  summary := "C_DestroyObject completed for handle " ++ decimal object
  detailJson := "\x7b\"destroyed_object_handle\":" ++ decimal object ++ "\x7d"
  userLabel := none
  auditEventType := "C_DestroyObject"

def cDestroyObject (session object : CkUlong) : Except CkRv Effect := do
  hsm.checkInitialized
  let s ← orRefuse (hsm.getSession session) .sessionHandleInvalid
  refuseIf (s.objectStore.isValidHandle object = false) .objectHandleInvalid
  return { answer := { rv := .ok }
           edit := .destroy object
           events := [destroyEvent s.slotId (hsm.tokenLabel session) object] }

/-! ### Attributes -/

/-- `C_GetObjectSize`: the length of the first key material found. The module need not be
initialised. -/
def cGetObjectSize (session object : CkUlong) (pulSize : Bool) : Except CkRv Effect := do
  refuseIf (pulSize = false) .argumentsBad
  let o ← orRefuse (hsm.getObject session object) .objectHandleInvalid
  let size := ([ckaValue, ckaVhsmRsaPriv, ckaVhsmEcPriv].findSome? o.findAttribute).elim 0
    List.length
  return { answer := { rv := .ok, len := some size } }

/-- The code of `C_GetAttributeValue`: the last refusal, a short buffer aside. -/
def readCode (entries : List HsmObject.AttributeAnswer) : CkRv :=
  entries.foldl (fun rv r => if r.rv ≠ .ok ∧ r.rv ≠ .bufferTooSmall then r.rv else rv) .ok

def cGetAttributeValue (session object : CkUlong) (templ : List CkAttribute) :
    Except CkRv Effect := do
  hsm.checkInitialized
  let o ← orRefuse (hsm.getObject session object) .objectHandleInvalid
  let entries := templ.map fun a => o.getAttribute a.type a.value
  return { answer := { rv := readCode entries, entries } }

def cSetAttributeValue (session object : CkUlong) (templ : List CkAttribute) :
    Except CkRv Effect := do
  hsm.checkInitialized
  let o ← orRefuse (hsm.getObject session object) .objectHandleInvalid
  return { answer := { rv := (o.setAttributes templ).1 }, edit := .setAttributes object templ }

end Hsm

/-! ### Search -/

/-- The attribute types with an index. -/
def indexedTypes : List CkUlong := [ckaClass, ckaLabel, ckaId]

/-- The search goes through the indices: one to three entries, all of an indexed type. -/
def useIndex (templ : List CkAttribute) : Bool :=
  0 < templ.length && templ.length ≤ 3 && templ.all fun a => a.type ∈ indexedTypes

/-- The map from types to values that the indexed search gets; a later entry of a type replaces
an earlier one. -/
def templateMap (templ : List CkAttribute) : List (CkUlong × Bytes) :=
  templ.foldl (fun m a => (a.type, a.value.bytes) :: m.filter (·.1 ≠ a.type)) []

/-- The handles that a search collects. -/
def ObjectStore.findHandles (st : ObjectStore) (templ : List CkAttribute) : List CkUlong :=
  if useIndex templ then st.findAllByAttributes (templateMap templ)
  else st.allHandles.filter fun k => (st.getObject k).elim false (matchObject · templ)

theorem ObjectStore.mem_findHandles_linear {st : ObjectStore} {templ : List CkAttribute}
    (hlinear : useIndex templ = false) (k : CkUlong) :
    k ∈ st.findHandles templ ↔ ∃ o, st.getObject k = some o ∧ matchObject o templ = true := by
  simp only [findHandles, hlinear, Bool.false_eq_true, if_false, List.mem_filter,
    ObjectStore.mem_allHandles]
  constructor
  · rintro ⟨⟨o, ho⟩, hmatch⟩
    rw [ho] at hmatch
    exact ⟨o, ho, hmatch⟩
  · rintro ⟨o, ho, hmatch⟩
    refine ⟨⟨o, ho⟩, ?_⟩
    rw [ho]
    exact hmatch

namespace Hsm

variable (hsm : Hsm)

def cFindObjectsInit (session : CkUlong) (templ : List CkAttribute) : Except CkRv Effect := do
  hsm.checkInitialized
  let s ← orRefuse (hsm.getSession session) .sessionHandleInvalid
  -- A search has to be ended before the next one, also when it is exhausted.
  refuseIf (s.hasFindResults || s.findActive) .operationActive
  return { answer := { rv := .ok }
           update := .setFindResults (s.objectStore.findHandles templ) }

def cFindObjects (session : CkUlong) (phObject : Bool) (maxObjectCount : Nat)
    (pulObjectCount : Bool) : Except CkRv Effect := do
  refuseIf (pulObjectCount = false) .argumentsBad
  let s ← orRefuse (hsm.getSession session) .sessionHandleInvalid
  refuseIf (s.findActive = false) .operationNotInitialized
  -- The cursor moves even when there is no array for the handles.
  let batch := (s.findNextBatch maxObjectCount).1
  return { answer := { rv := .ok, handles := if phObject then batch else []
                       len := some batch.length }
           update := .findNextBatch maxObjectCount }

def cFindObjectsFinal (session : CkUlong) : Except CkRv Effect := do
  let _ ← orRefuse (hsm.getSession session) .sessionHandleInvalid
  return { answer := { rv := .ok }, update := .clearFindResults }

end Hsm

end VirtualHsm
