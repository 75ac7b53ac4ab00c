import VirtualHsm.Crypto.Backend
import VirtualHsm.Keystore.HsmObject

/-!
# Templates and key material

How a template becomes an object: the class and the flags are parsed into fields, every entry is
copied into the attribute map, and the key material of a generated, unwrapped or derived key is
stored in vendor attributes.
-/

namespace VirtualHsm

/-! ### Templates -/

/-- `class_from_attr`. -/
def classFromAttr (c : CkUlong) : ObjectType :=
  if c = ckoData then .data
  else if c = ckoCertificate then .certificate
  else if c = ckoPublicKey then .publicKey
  else if c = ckoPrivateKey then .privateKey
  else if c = ckoSecretKey then .secretKey
  else .other

/-- What the entries read so far say about class and flags. -/
structure ClassAndFlags where
  cls : Option CkUlong := none
  sensitive : Bool := false
  extractable : Bool := true
  token : Bool := false
  priv : Bool := false
  deriving DecidableEq, Repr

/-- The flag a template entry holds, if it is one byte behind a pointer. -/
def CkAttribute.flag (a : CkAttribute) : Option Bool :=
  match a.value with
  | .data [b] => some (b = ckTrue)
  | _ => none

/-- The class a template entry holds, if it is a `CK_ULONG` behind a pointer. -/
def CkAttribute.objectClass (a : CkAttribute) : Option CkUlong :=
  match a.value with
  | .data bs => if bs.length = 8 then some (bytesUlong bs) else none
  | .null _ => none

/-- Read one entry; a later entry overrides an earlier one. -/
def ClassAndFlags.read (p : ClassAndFlags) (a : CkAttribute) : ClassAndFlags :=
  if a.type = ckaClass then { p with cls := a.objectClass.orElse fun _ => p.cls }
  else if a.type = ckaToken then { p with token := a.flag.getD p.token }
  else if a.type = ckaPrivate then { p with priv := a.flag.getD p.priv }
  else if a.type = ckaSensitive then { p with sensitive := a.flag.getD p.sensitive }
  else if a.type = ckaExtractable then { p with extractable := a.flag.getD p.extractable }
  else p

/-- `parse_class_and_flags`: the object to create, still without attributes. -/
def parseClassAndFlags (t : List CkAttribute) : Option BareObject :=
  let p := t.foldl ClassAndFlags.read {}
  p.cls.map fun c =>
    { type := classFromAttr c, sensitive := p.sensitive, extractable := p.extractable
      token := p.token, priv := p.priv }

/-- `p11_apply_template`: copy the entries into the attribute map. Array entries and null
entries of length zero are skipped. -/
def applyTemplate (o : HsmObject) : List CkAttribute → CkRv × HsmObject
  | [] => (.ok, o)
  | a :: t =>
    if a.isArray then applyTemplate o t
    else
      match a.value with
      -- The entries before the bad one have been written.
      | .null n => if n ≠ 0 then (.argumentsBad, o) else applyTemplate o t
      | .data bs => applyTemplate (o.setAttribute a.type bs) t

/-- The attributes that `C_CopyObject` takes over. -/
def materialTypes : List CkUlong :=
  [ckaValue, ckaKeyType, ckaEcParams, ckaEcPoint, ckaVhsmRsaPub, ckaVhsmRsaPriv, ckaVhsmEcPub,
    ckaVhsmEcPriv, ckaLabel, ckaId, ckaModulusBits, ckaClass]

/-- The attribute, if it is present and not empty. -/
def HsmObject.nonEmpty (o : HsmObject) (t : CkUlong) : Option Bytes :=
  (o.findAttribute t).filter (· ≠ [])

def copyMaterial (dst src : HsmObject) : HsmObject :=
  materialTypes.foldl (fun d t => ((src.nonEmpty t).map (d.setAttribute t)).getD d) dst

/-- One entry of `match_object`: an array entry matches always, a null entry when the attribute
can be read, a value when reading the attribute into a buffer of its length returns it. -/
def matchEntry (o : HsmObject) (a : CkAttribute) : Bool :=
  a.isArray ||
    match a.value with
    | .null _ =>
      -- The value is not compared, only that it can be read.
      let r := o.getAttribute a.type (.null 0)
      r.rv = .bufferTooSmall || r.rv = .ok
    | .data v =>
      let r := o.getAttribute a.type (.data (List.replicate v.length 0))
      r.rv = .ok && r.len = v.length && r.buf.bytes.take r.len = v

def matchObject (o : HsmObject) (t : List CkAttribute) : Bool := t.all (matchEntry o)

/-! ### Storing key material -/

/-- `p11_store_secret`. -/
def storeSecret (o : HsmObject) (raw : Bytes) : HsmObject := o.setAttribute ckaValue raw

/-- Set the class attribute of a key. -/
def setKeyClass (o : HsmObject) (isPrivate : Bool) : HsmObject :=
  o.setAttribute ckaClass (ulongBytes (if isPrivate then ckoPrivateKey else ckoPublicKey))

/-- Store an exported component, or leave the object and fail. -/
def storePart (o : HsmObject) (t : CkUlong) (part : Option Bytes) : CkRv × HsmObject :=
  match part with
  | some bs => (.ok, o.setAttribute t bs)
  | none => (.generalError, o)

/-- Run a store step after one that succeeded. -/
def thenStore (r : CkRv × HsmObject) (f : HsmObject → CkRv × HsmObject) : CkRv × HsmObject :=
  if r.1 = .ok then f r.2 else r

variable (be : Backend)

/-- `p11_store_key_ec`. -/
def storeKeyEc (o : HsmObject) (k : be.Pkey) (isPrivate : Bool) : CkRv × HsmObject :=
  let priv :=
    if isPrivate then storePart o ckaVhsmEcPriv (be.ecExportPrivateDer k) else (.ok, o)
  let params := thenStore priv fun o => storePart o ckaEcParams (be.ecExportParamsDer k)
  let point := thenStore params fun o => storePart o ckaEcPoint (be.ecExportPublicPoint k)
  thenStore point fun o => (.ok, setKeyClass o isPrivate)

/-- `p11_store_key` for a generated RSA key. -/
def storeKeyRsa (o : HsmObject) (k : be.Pkey) (isPrivate : Bool) : CkRv × HsmObject :=
  let der :=
    if isPrivate then storePart o ckaVhsmRsaPriv (be.rsaExportPrivateDer k)
    else storePart o ckaVhsmRsaPub (be.rsaExportPublicDer k)
  thenStore der fun o => (.ok, setKeyClass o isPrivate)

/-- `p11_store_key` for a key of the library, with its key type. -/
def storeKeyEvp (o : HsmObject) (k : be.Pkey) (isPrivate : Bool) : CkRv × HsmObject :=
  match be.base k with
  | .rsa =>
    let der :=
      if isPrivate then storePart o ckaVhsmRsaPriv (be.i2dRsaPrivateKey k)
      else storePart o ckaVhsmRsaPub (be.i2dRsaPublicKey k)
    thenStore der fun o =>
      (.ok, (setKeyClass o isPrivate).setAttribute ckaKeyType (ulongBytes ckkRsa))
  | .ec =>
    let der :=
      if isPrivate then storePart o ckaVhsmEcPriv (be.i2dEcPrivateKey k)
      else storePart o ckaVhsmEcPub (be.i2oEcPublicKey k)
    let params := thenStore der fun o => storePart o ckaEcParams (be.i2dEcpkParameters k)
    let point := thenStore params fun o => storePart o ckaEcPoint (be.ecPointPoint2oct k)
    thenStore point fun o =>
      (.ok, (setKeyClass o isPrivate).setAttribute ckaKeyType (ulongBytes ckkEc))
  | .other => (.generalError, o)

/-! ### Reading key material -/

/-- The public key of the curve parameters and the point, when both are there. -/
def buildFromParamsPoint (o : HsmObject) : Option be.Pkey :=
  match o.nonEmpty ckaEcParams, o.nonEmpty ckaEcPoint with
  | some params, some point => be.ecImportPublicParamsPoint params point
  | _, _ => none

/-- `p11_build_key_from_attrs`. The first attribute that is present decides, even when it cannot
be imported; the builds differ in how they find an elliptic-curve public key. -/
def buildKeyFromAttrs (o : HsmObject) : Option be.Pkey :=
  match o.nonEmpty ckaVhsmRsaPriv with
  | some der => be.rsaImportPrivateDer der
  | none =>
    match o.nonEmpty ckaVhsmEcPriv with
    | some der => be.ecImportPrivateDer der
    | none =>
      match o.nonEmpty ckaVhsmRsaPub with
      | some der => be.rsaImportPublicDer der
      | none =>
        -- The exported public key is not looked at in this build.
        if be.shim then buildFromParamsPoint be o
        else
          match o.nonEmpty ckaVhsmEcPub with
          | some der =>
            match buildFromParamsPoint be o with
            | some k => some k
            | none => be.d2iEcPubkey der
          | none => none

/-- The attributes that `C_WrapKey` looks for key bytes in, in this order. -/
def rawKeyTypes : List CkUlong :=
  [ckaValue, ckaVhsmRsaPriv, ckaVhsmEcPriv, ckaVhsmRsaPub, ckaVhsmEcPub]

/-- `raw_key_bytes`. -/
def rawKeyBytes (o : HsmObject) : Option Bytes := rawKeyTypes.findSome? o.nonEmpty

/-! ### Filling changes the attribute map only -/

variable {be} {o : HsmObject}

theorem applyTemplate_induction {P : HsmObject → Prop} {templ : List CkAttribute} (ho : P o)
    (hwrite : ∀ o', ∀ a ∈ templ, P o' → P (o'.setAttribute a.type a.value.bytes)) :
    P (applyTemplate o templ).2 := by
  induction templ generalizing o with
  | nil => exact ho
  | cons a templ ih =>
    have hrest : ∀ o', ∀ b ∈ templ, P o' → P (o'.setAttribute b.type b.value.bytes) :=
      fun o' b hb => hwrite o' b (List.mem_cons_of_mem a hb)
    have hfirst := hwrite o a List.mem_cons_self ho
    unfold applyTemplate
    split_ifs
    · exact ih ho hrest
    · cases hvalue : a.value with
      | null n =>
        by_cases hn : n ≠ 0
        · simp only [if_pos hn]
          exact ho
        · simp only [if_neg hn]
          exact ih ho hrest
      | data bs =>
        rw [hvalue] at hfirst
        exact ih hfirst hrest

theorem applyTemplate_sameFields (o : HsmObject) (t : List CkAttribute) :
    SameFields o (applyTemplate o t).2 :=
  applyTemplate_induction (P := SameFields o) (.refl o) fun _ a _ hsame =>
    hsame.trans (.setAttribute _ a.type a.value.bytes)

theorem copyMaterial_sameFields (dst src : HsmObject) : SameFields dst (copyMaterial dst src) := by
  unfold copyMaterial
  induction materialTypes generalizing dst with
  | nil => exact .refl dst
  | cons t ts ih =>
    refine SameFields.trans ?_ (ih _)
    cases hsrc : src.nonEmpty t with
    | none =>
      simp only [hsrc]
      exact .refl dst
    | some v =>
      simp only [hsrc]
      exact .setAttribute dst t v

theorem findAttribute_copyMaterial_eq (dst src : HsmObject) (t : CkUlong) :
    (copyMaterial dst src).findAttribute t =
      if t ∈ materialTypes then (src.nonEmpty t).or (dst.findAttribute t)
      else dst.findAttribute t := by
  unfold copyMaterial
  -- Types may occur twice in the list: what has been taken over already is taken over again.
  induction materialTypes generalizing dst with
  | nil => rfl
  | cons x types ih =>
    rw [List.foldl_cons, ih]
    by_cases hx : t = x
    · subst hx
      cases src.nonEmpty t <;> simp
    · have hsame : (((src.nonEmpty x).map (dst.setAttribute x)).getD dst).findAttribute t =
          dst.findAttribute t := by
        cases src.nonEmpty x with
        | none => rfl
        | some v => exact HsmObject.findAttribute_setAttribute_of_ne _ _ _ hx
      rw [hsame]
      simp only [List.mem_cons, hx, false_or]

theorem findAttribute_copyMaterial {dst src : HsmObject} {t : CkUlong} (ht : t ∈ materialTypes) :
    (copyMaterial dst src).findAttribute t = (src.nonEmpty t).or (dst.findAttribute t) := by
  rw [findAttribute_copyMaterial_eq, if_pos ht]

theorem storePart_sameFields (o : HsmObject) (t : CkUlong) (part : Option Bytes) :
    SameFields o (storePart o t part).2 := by
  cases part with
  | none => exact .refl o
  | some bs => exact .setAttribute o t bs

theorem thenStore_sameFields {r : CkRv × HsmObject} {f : HsmObject → CkRv × HsmObject}
    (h : SameFields o r.2) (hf : ∀ o', SameFields o' (f o').2) :
    SameFields o (thenStore r f).2 := by
  unfold thenStore
  split_ifs
  · exact h.trans (hf r.2)
  · exact h

theorem setKeyClass_sameFields (o : HsmObject) (isPrivate : Bool) :
    SameFields o (setKeyClass o isPrivate) := .setAttribute o _ _

theorem storeKeyEc_sameFields (o : HsmObject) (k : be.Pkey) (isPrivate : Bool) :
    SameFields o (storeKeyEc be o k isPrivate).2 := by
  have hpriv : SameFields o
      (if isPrivate then storePart o ckaVhsmEcPriv (be.ecExportPrivateDer k)
        else (CkRv.ok, o)).2 := by
    split_ifs
    · exact storePart_sameFields o _ _
    · exact .refl o
  have hparams := thenStore_sameFields hpriv fun o' =>
    storePart_sameFields o' ckaEcParams (be.ecExportParamsDer k)
  have hpoint := thenStore_sameFields hparams fun o' =>
    storePart_sameFields o' ckaEcPoint (be.ecExportPublicPoint k)
  exact thenStore_sameFields hpoint fun o' => setKeyClass_sameFields o' isPrivate

theorem storeKeyRsa_sameFields (o : HsmObject) (k : be.Pkey) (isPrivate : Bool) :
    SameFields o (storeKeyRsa be o k isPrivate).2 := by
  refine thenStore_sameFields ?_ fun o' => setKeyClass_sameFields o' isPrivate
  split_ifs
  all_goals exact storePart_sameFields o _ _

theorem storeKeyEvp_sameFields (o : HsmObject) (k : be.Pkey) (isPrivate : Bool) :
    SameFields o (storeKeyEvp be o k isPrivate).2 := by
  have hclass (kt : CkUlong) (o' : HsmObject) :
      SameFields o' ((setKeyClass o' isPrivate).setAttribute ckaKeyType (ulongBytes kt)) :=
    (setKeyClass_sameFields o' isPrivate).trans (.setAttribute _ _ _)
  unfold storeKeyEvp
  cases be.base k with
  | rsa =>
    refine thenStore_sameFields ?_ fun o' => hclass ckkRsa o'
    split_ifs
    all_goals exact storePart_sameFields o _ _
  | ec =>
    -- Private part, parameters, point and key type, in the order in which they are stored.
    refine thenStore_sameFields (thenStore_sameFields (thenStore_sameFields ?_ fun o' =>
      storePart_sameFields o' _ _) fun o' => storePart_sameFields o' _ _) fun o' =>
        hclass ckkEc o'
    split_ifs
    all_goals exact storePart_sameFields o _ _
  | other => exact .refl o

/-! ### Matching plain values -/

section Match

variable {t : CkUlong} {v : Bytes}

theorem matchEntry_data (harray : (CkAttribute.mk t (.data v)).isArray = false) :
    matchEntry o ⟨t, .data v⟩ = true ↔ o.attributeValue t = .ok v := by
  rw [matchEntry, harray, Bool.false_or]
  cases hvalue : o.attributeValue t with
  | error rv =>
    have hne : rv ≠ .ok := by
      rcases HsmObject.attributeValue_error hvalue with rfl | rfl <;> decide
    simp [HsmObject.getAttribute_of_error hvalue, hne]
  | ok w =>
    simp only [HsmObject.getAttribute_of_ok_data hvalue, List.length_replicate]
    by_cases hlen : v.length < w.length
    · have hne : w ≠ v := fun h => by rw [h] at hlen; exact Nat.lt_irrefl _ hlen
      simp [hlen, hne]
    · simp only [if_neg hlen, CkBuf.bytes_data, List.take_left]
      simp only [decide_true, Bool.true_and, Bool.and_eq_true, decide_eq_true_eq,
        Except.ok.injEq]
      exact ⟨fun h => h.2, fun h => ⟨congrArg List.length h, h⟩⟩

theorem matchObject_iff {templ : List CkAttribute} :
    matchObject o templ = true ↔ ∀ a ∈ templ, matchEntry o a = true :=
  List.all_eq_true

end Match

end VirtualHsm
