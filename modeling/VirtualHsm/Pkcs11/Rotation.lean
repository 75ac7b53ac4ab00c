import VirtualHsm.Pkcs11.GeneratedKeys

/-!
# Rotation of a key pair

`p11_rotate_keypair` generates a key pair in the place of a private key. What to ask for it reads
off the attributes of that key: the family off `CKA_KEY_TYPE`, the size off `CKA_MODULUS_BITS`, the
curve off `CKA_EC_PARAMS`. Generation stores no `CKA_KEY_TYPE`, and of a curve the encoding of its
object identifier, whereas rotation looks for the name of a curve.

So an RSA key is replaced by an RSA key only if its template called it one, and every other key by a
key on P-256. The new key is called nothing, so that the next rotation of an RSA key goes to P-256
in any case.
-/

namespace VirtualHsm

/-! ### What rotation takes over -/

/-- Rotation takes the key for an RSA key. -/
def CalledRsa (o : HsmObject) : Prop :=
  ∃ v, o.findAttribute ckaKeyType = some v ∧ v.length = 8 ∧ bytesUlong v = ckkRsa

section Inheritance

variable {o : HsmObject}

theorem foldl_ensureAttr {ts : List CkUlong} (hdistinct : ts.Nodup) (templ : List CkAttribute)
    (hnew : ∀ a ∈ templ, a.type ∉ ts) :
    ts.foldl (Hsm.ensureAttr o) templ =
      templ ++ ts.filterMap fun t => (o.nonEmpty t).map fun v => ⟨t, .data v⟩ := by
  induction ts generalizing templ with
  | nil => simp
  | cons t ts ih =>
    obtain ⟨hfirst, hrest⟩ := List.nodup_cons.mp hdistinct
    -- No entry of this type is there yet, so the one of the old key is appended.
    have hany : templ.any (·.type = t) = false :=
      List.any_eq_false.mpr fun a ha heq =>
        hnew a ha (of_decide_eq_true heq ▸ List.mem_cons_self)
    have hnew' : ∀ a ∈ templ, a.type ∉ ts := fun a ha hmem =>
      hnew a ha (List.mem_cons_of_mem t hmem)
    rw [List.foldl_cons, List.filterMap_cons, Hsm.ensureAttr, hany]
    cases hv : o.nonEmpty t with
    | none => exact ih hrest templ hnew'
    | some v =>
      have hnext := ih hrest (templ ++ [⟨t, .data v⟩]) fun a ha => by
        rcases List.mem_append.mp ha with hold | hlast
        · exact hnew' a hold
        · rwa [List.mem_singleton.mp hlast]
      rw [List.append_assoc] at hnext
      exact hnext

/-- An attribute that rotation takes over is that of the old key, unless it is empty. -/
theorem templateValue_foldl_ensureAttr {ts : List CkUlong} (hdistinct : ts.Nodup)
    (harray : ∀ t ∈ ts, t &&& ckfArrayAttribute = 0) (t : CkUlong) :
    templateValue t (ts.foldl (Hsm.ensureAttr o) []) = if t ∈ ts then o.nonEmpty t else none := by
  rw [foldl_ensureAttr hdistinct [] (by simp), List.nil_append]
  have hmem (a : CkAttribute) :
      a ∈ ts.filterMap (fun t => (o.nonEmpty t).map fun v => ⟨t, .data v⟩) ↔
        ∃ v, a.type ∈ ts ∧ o.nonEmpty a.type = some v ∧ a.value = .data v := by
    simp only [List.mem_filterMap, Option.map_eq_some_iff]
    constructor
    · rintro ⟨t, ht, v, hv, rfl⟩
      exact ⟨v, ht, hv, rfl⟩
    · rintro ⟨v, ht, hv, hvalue⟩
      exact ⟨a.type, ht, v, hv, by rw [← hvalue]⟩
  have htypes : ((ts.filterMap fun t => (o.nonEmpty t).map fun v =>
      CkAttribute.mk t (.data v)).map (·.type)).Nodup := by
    rw [List.map_filterMap]
    refine hdistinct.filterMap fun t t' x ht ht' => ?_
    simp only [Option.map_map, Option.mem_def, Option.map_eq_some_iff] at ht ht'
    obtain ⟨v, -, rfl⟩ := ht
    obtain ⟨v', -, heq⟩ := ht'
    exact heq.symm
  by_cases hfound : ∃ v, t ∈ ts ∧ o.nonEmpty t = some v
  · obtain ⟨v, ht, hv⟩ := hfound
    have hentry := (hmem ⟨t, .data v⟩).mpr ⟨v, ht, hv, rfl⟩
    have hplain : ¬ CkAttribute.isArray ⟨t, .data v⟩ = true := fun h =>
      of_decide_eq_true h (harray t ht)
    rw [if_pos ht, hv, templateValue_of_mem htypes hentry rfl, if_neg hplain]
  · rw [templateValue_eq_none]
    · split_ifs with ht
      · exact (Option.eq_none_iff_forall_ne_some.mpr fun v hv => hfound ⟨v, ht, hv⟩).symm
      · rfl
    · intro a ha heq
      obtain ⟨v, ht, hv, -⟩ := (hmem a).mp ha
      exact hfound ⟨v, heq ▸ ht, heq ▸ hv⟩

end Inheritance

/-! ### A rotation -/

/-- The template of the new public key, when the caller gives none. -/
def rotationPubTempl (o : HsmObject) : List CkAttribute :=
  [ckaLabel, ckaId, ckaEcParams].foldl (Hsm.ensureAttr o) []

/-- The template of the new private key, when the caller gives none. -/
def rotationPrivTempl (o : HsmObject) : List CkAttribute :=
  [ckaLabel, ckaId, ckaModulusBits].foldl (Hsm.ensureAttr o) []

theorem templateValue_rotationPubTempl (o : HsmObject) (t : CkUlong) :
    templateValue t (rotationPubTempl o) =
      if t ∈ [ckaLabel, ckaId, ckaEcParams] then o.nonEmpty t else none :=
  templateValue_foldl_ensureAttr (by decide) (forall_mem_of_all (by decide)) t

theorem templateValue_rotationPrivTempl (o : HsmObject) (t : CkUlong) :
    templateValue t (rotationPrivTempl o) =
      if t ∈ [ckaLabel, ckaId, ckaModulusBits] then o.nonEmpty t else none :=
  templateValue_foldl_ensureAttr (by decide) (forall_mem_of_all (by decide)) t

theorem generatePair_rotationMechanism {be : Backend} {o : HsmObject} {seed : Nat} {k : be.Pkey}
    {isRsa : Bool} {pubTempl privTempl : List CkAttribute}
    (hgen : Hsm.generatePair be seed (Hsm.rotationMechanism o) pubTempl privTempl =
      .ok (k, isRsa)) :
    isRsa = true ↔ CalledRsa o := by
  by_cases hcalled : CalledRsa o
  · obtain ⟨v, hv, hlen, htype⟩ := hcalled
    have hmech : Hsm.rotationMechanism o = ⟨ckmRsaPkcsKeyPairGen, .absent⟩ := by
      rw [Hsm.rotationMechanism, hv]
      exact if_pos ⟨hlen, htype⟩
    rw [hmech] at hgen
    obtain ⟨key, -, hpair⟩ := bind_eq_ok.mp hgen
    exact iff_of_true (Prod.mk.inj (Except.ok.inj hpair)).2.symm ⟨v, hv, hlen, htype⟩
  · have hmech : Hsm.rotationMechanism o = ⟨ckmEcKeyPairGen, .absent⟩ := by
      unfold Hsm.rotationMechanism
      cases hv : o.findAttribute ckaKeyType with
      | none => rfl
      | some v => exact if_neg fun h => hcalled ⟨v, hv, h.1, h.2⟩
    rw [hmech] at hgen
    obtain ⟨key, -, hpair⟩ := orRefuse_bind_eq_ok.mp hgen
    have hfalse := (Prod.mk.inj (Except.ok.inj hpair)).2.symm
    exact iff_of_false (fun htrue => by cases hfalse.symm.trans htrue) hcalled

theorem rsaBitsFromTemplate_of_nonEmpty {o o' : HsmObject}
    (h : o'.findAttribute ckaModulusBits = o.nonEmpty ckaModulusBits) :
    rsaBitsFromTemplate o' = rsaBitsFromTemplate o := by
  rw [rsaBitsFromTemplate, rsaBitsFromTemplate, h, HsmObject.nonEmpty]
  cases o.findAttribute ckaModulusBits with
  | none => rfl
  | some v => cases v <;> rfl

theorem curveFromParams_of_nonEmpty {o o' : HsmObject}
    (h : o'.findAttribute ckaEcParams = o.nonEmpty ckaEcParams) :
    curveFromParams o' = curveFromParams o := by
  have hsame : o'.nonEmpty ckaEcParams = o.nonEmpty ckaEcParams := by
    rw [HsmObject.nonEmpty, h, HsmObject.nonEmpty, Option.filter_filter]
    simp only [Bool.and_self]
  rw [curveFromParams, curveFromParams, hsame]

/-- The kind of key that a rotation asks for is read off the old key. -/
theorem params_of_rotation {be : Backend} {params : be.Pkey → KeyParams} {o : HsmObject}
    {seed : Nat} {k : be.Pkey} {isRsa : Bool} (hlib : be.GeneratesAsAsked params)
    (hgen : Hsm.generatePair be seed (Hsm.rotationMechanism o) (rotationPubTempl o)
      (rotationPrivTempl o) = .ok (k, isRsa))
    (hpub : (applyTemplate barePublicKey.object (rotationPubTempl o)).1 = .ok)
    (hpriv : (applyTemplate barePrivateKey.object (rotationPrivTempl o)).1 = .ok) :
    isRsa = (params k).isRsa ∧
      (CalledRsa o ∧ params k = .rsa (rsaBitsFromTemplate o) ∨
        ¬ CalledRsa o ∧ params k = .ec (curveFromParams o)) := by
  obtain ⟨hfamily, hparams⟩ := params_of_generatePair hlib hgen
  have hcalled := generatePair_rotationMechanism hgen
  refine ⟨hfamily, ?_⟩
  cases isRsa with
  | true =>
    have hbits : (applyTemplate barePrivateKey.object (rotationPrivTempl o)).2.findAttribute
        ckaModulusBits = o.nonEmpty ckaModulusBits := by
      rw [findAttribute_applyTemplate hpriv, templateValue_rotationPrivTempl, if_pos (by decide)]
      exact Option.or_none
    refine .inl ⟨hcalled.mp rfl, ?_⟩
    rw [hparams, if_pos rfl, rsaBitsFromTemplate_of_nonEmpty hbits]
  | false =>
    have hcurve : (applyTemplate barePublicKey.object (rotationPubTempl o)).2.findAttribute
        ckaEcParams = o.nonEmpty ckaEcParams := by
      rw [findAttribute_applyTemplate hpub, templateValue_rotationPubTempl, if_pos (by decide)]
      exact Option.or_none
    refine .inr ⟨fun h => Bool.false_ne_true (hcalled.mpr h), ?_⟩
    rw [hparams, if_neg Bool.false_ne_true, curveFromParams_of_nonEmpty hcurve]

namespace Hsm

variable {be : Backend} {env : Env} {hsm : Hsm} {h old : CkUlong} {o : HsmObject}

/-- `p11_rotate_keypair` with empty templates. -/
def rotate (be : Backend) (env : Env) (hsm : Hsm) (h old : CkUlong) : Answer × Hsm :=
  hsm.api be (.onSession env h (.key (.rotateKeypair old [] [] true true)))

/-- What a successful rotation does. -/
theorem rotate_ok (ho : hsm.getObject h old = some o) (hok : (rotate be env hsm h old).1.rv = .ok) :
    ∃ st k isRsa pub priv, hsm.store h = some st ∧
      generatePair be env.seed (rotationMechanism o) (rotationPubTempl o) (rotationPrivTempl o) =
        .ok (k, isRsa) ∧
      pub = .publicKey be (rotationPubTempl o) k isRsa ∧
      priv = .privateKey be pub (rotationPrivTempl o) k isRsa ∧ priv.rv = .ok ∧
      (rotate be env hsm h old).1.handles = [st.newHandle, (st.fill pub).newHandle] ∧
      ∀ x, (rotate be env hsm h old).2.getObject h x = (st.buildPair pub priv old).getObject x := by
  have hfails : Fails (fun _ => True) (hsm.rotateKeypair be env.seed h old [] [] true true) := by
    refine fails_check (by decide) ?_
    refine fails_check (by decide) ?_
    refine fails_orRefuse_bind (by decide) fun st _ => ?_
    refine fails_orRefuse_bind (by decide) fun old _ => ?_
    refine fails_check (by decide) ?_
    refine fails_orRefuse_bind (by decide) fun st _ => ?_
    exact fails_bind (fun _ herror => ne_ok_of_generatePair_error herror) fun _ => trivial
  change (hsm.finish h (hsm.rotateKeypair be env.seed h old [] [] true true)).1.rv = .ok at hok
  obtain ⟨e, he⟩ := exists_of_finish_ok hfails hok
  have hrotate : rotate be env hsm h old = hsm.finish h (.ok e) := by rw [← he]; rfl
  rw [he, finish_answer] at hok
  rw [hrotate, finish_answer]
  -- The store is looked up for the rotation, and again for the generation.
  obtain ⟨-, -, st, hst, o', ho', -, st', hst', he⟩ := by
    simpa only [rotateKeypair, generateAndStoreKeypair, checkInitialized, refuseIf_bind_eq_ok,
      orRefuse_bind_eq_ok] using he
  obtain rfl := Option.mem_unique hst hst'
  obtain rfl : o' = o := by
    rw [getObject, hst, Option.bind_some, ho'] at ho
    exact Option.some.inj ho
  obtain ⟨⟨k, isRsa⟩, hgen, he⟩ := bind_eq_ok.mp he
  cases he
  refine ⟨st, k, isRsa, _, _, hst, hgen, rfl, rfl, hok, if_pos hok, fun x => ?_⟩
  exact getObject_finish hst

end Hsm

/-! ### Replacement -/

/-- The objects are a key pair of the kind `p`, named as the old key, with an active private key. -/
structure Successors (be : Backend) (params : be.Pkey → KeyParams) (p : KeyParams)
    (o pub priv : HsmObject) : Prop where
  types : pub.type = .publicKey ∧ priv.type = .privateKey
  key : ∃ k, params k = p ∧ HoldsKey be k false pub p ∧ HoldsKey be k true priv p
  named : ∀ t ∈ [ckaLabel, ckaId],
    pub.findAttribute t = o.findAttribute t ∧ priv.findAttribute t = o.findAttribute t
  active : priv.getKeyState = .active

/-- The outcome `r` of a rotation: a key pair of the kind `p` has taken the place of the object `o`,
which is rotating, and no other object has changed. -/
structure Hsm.Replaces (be : Backend) (params : be.Pkey → KeyParams) (p : KeyParams) (hsm : Hsm)
    (h old : CkUlong) (o : HsmObject) (r : Answer × Hsm) : Prop where
  successors : ∃ pub priv pubObj privObj, r.1.handles = [pub, priv] ∧
    r.2.getObject h pub = some pubObj ∧ r.2.getObject h priv = some privObj ∧
    Successors be params p o pubObj privObj
  superseded : ∃ o', r.2.getObject h old = some o' ∧ o'.getKeyState = .rotating
  others : ∀ x o', x ≠ old → hsm.getObject h x = some o' → r.2.getObject h x = some o'

/-- The attributes of a key tell its kind and its name. -/
structure Recovers (p : KeyParams) (o : HsmObject) : Prop where
  kind : CalledRsa o ∧ p.isRsa = true ∨ ¬ CalledRsa o ∧ p = .ec .p256
  named : ∀ t ∈ [ckaLabel, ckaId], o.findAttribute t ≠ some []

section Replacement

variable {be : Backend} {params : be.Pkey → KeyParams} {env : Env} {hsm : Hsm} {h old : CkUlong}
  {o : HsmObject} {k : be.Pkey}

theorem nonEmpty_eq_findAttribute_iff {t : CkUlong} :
    o.nonEmpty t = o.findAttribute t ↔ o.findAttribute t ≠ some [] := by
  rw [HsmObject.nonEmpty]
  cases o.findAttribute t with
  | none => simp
  | some v => cases v <;> simp

theorem getKeyState_setKeyState_rotating (o : HsmObject) :
    (o.setKeyState .rotating).getKeyState = .rotating := by
  rw [HsmObject.getKeyState, HsmObject.setKeyState, HsmObject.findAttribute_setAttribute_self]
  rfl

section Pair

variable {seed : Nat} {key : be.Pkey} {isRsa : Bool}
  (hgen : Hsm.generatePair be seed (Hsm.rotationMechanism o) (rotationPubTempl o)
    (rotationPrivTempl o) = .ok (key, isRsa))
  (hpub : (fillKey be barePublicKey (rotationPubTempl o) key isRsa false).1 = .ok)
  (hpriv : (fillKey be barePrivateKey (rotationPrivTempl o) key isRsa true).1 = .ok)

include hpub hpriv in
/-- Both new keys have the label and the identifier of the old key, unless they are empty. -/
theorem findAttribute_rotated {t : CkUlong} (ht : t ∈ [ckaLabel, ckaId]) :
    (fillKey be barePublicKey (rotationPubTempl o) key isRsa false).2.findAttribute t =
        o.nonEmpty t ∧
      (fillKey be barePrivateKey (rotationPrivTempl o) key isRsa true).2.findAttribute t =
        o.nonEmpty t := by
  have hplain : t ∉ if isRsa = true then rsaKeyTypes else ecKeyTypes := by
    simp only [List.mem_cons, List.not_mem_nil, or_false] at ht
    rcases ht with rfl | rfl <;> cases isRsa <;> decide
  have hmem : ∀ x, t ∈ [ckaLabel, ckaId, x] := fun x => List.mem_append_left [x] ht
  rw [findAttribute_fillKey hpub hplain, findAttribute_fillKey hpriv hplain,
    templateValue_rotationPubTempl, templateValue_rotationPrivTempl, if_pos (hmem _),
    if_pos (hmem _)]
  exact ⟨rfl, rfl⟩

include hpriv in
theorem active_rotated :
    (fillKey be barePrivateKey (rotationPrivTempl o) key isRsa true).2.getKeyState = .active := by
  have hplain : ckaVhsmKeyState ∉ if isRsa = true then rsaKeyTypes else ecKeyTypes := by
    cases isRsa <;> decide
  rw [HsmObject.getKeyState, findAttribute_fillKey hpriv hplain, templateValue_rotationPrivTempl,
    if_neg (by decide)]

include hpub hpriv in
/-- The kind of a key shows in the exports that are stored, but for the size of an RSA key. -/
theorem kind_of_holdsKey (hlib : be.GeneratesAsAsked params) (hfamily : isRsa = (params key).isRsa)
    {k' : be.Pkey}
    (hpub' : HoldsKey be k' false
      (fillKey be barePublicKey (rotationPubTempl o) key isRsa false).2 (params k'))
    (hpriv' : HoldsKey be k' true
      (fillKey be barePrivateKey (rotationPrivTempl o) key isRsa true).2 (params k')) :
    (params k').isRsa = isRsa ∧ ∀ c, params k' = .ec c → params key = .ec c := by
  -- A key of the other family would hold an export that was not stored.
  have hnone {t : CkUlong} {part : Option Bytes}
      (ht : t ∉ if isRsa = true then rsaKeyTypes else ecKeyTypes)
      (ht' : t ∉ [ckaLabel, ckaId, ckaModulusBits]) :
      ¬ StoresPart (fillKey be barePrivateKey (rotationPrivTempl o) key isRsa true).2 t part := by
    rintro ⟨bs, -, hstored⟩
    rw [findAttribute_fillKey hpriv ht, templateValue_rotationPrivTempl, if_neg ht'] at hstored
    cases hstored
  cases hkind : params k' with
  | rsa bits =>
    rw [hkind] at hpriv'
    refine ⟨?_, fun c hc => by cases hc⟩
    cases isRsa with
    | true => rfl
    | false => exact absurd hpriv' (hnone (by decide) (by decide))
  | ec curve =>
    rw [hkind] at hpub' hpriv'
    cases hkey : params key with
    | rsa bits =>
      obtain rfl : isRsa = true := by rw [hfamily, hkey]; rfl
      exact absurd (hpriv'.1 rfl) (hnone (by decide) (by decide))
    | ec curve' =>
      obtain rfl : isRsa = false := by rw [hfamily, hkey]; rfl
      refine ⟨rfl, fun c hc => ?_⟩
      -- One encoding is stored, and it is that of both curves.
      obtain ⟨-, ⟨der, hder, hstored⟩, -⟩ := holdsKey_fillKey (p := .ec curve') hpub
      obtain ⟨-, ⟨der', hder', hstored'⟩, -⟩ := hpub'
      obtain rfl := Option.mem_unique hstored hstored'
      have hoid : curve'.oidDer = curve.oidDer :=
        (hlib.der key curve' der hkey hder).symm.trans (hlib.der k' curve der hkind hder')
      rw [← hc, Curve.oidDer_inj hoid]

include hgen hpub hpriv in
/-- The new keys are of the kind of the old one exactly when its attributes tell the kind. -/
theorem holdsKey_rotated_iff (hlib : be.GeneratesAsAsked params) (hmade : MadeKey be o k) :
    (∃ k', params k' = params k ∧
        HoldsKey be k' false (fillKey be barePublicKey (rotationPubTempl o) key isRsa false).2
          (params k) ∧
        HoldsKey be k' true (fillKey be barePrivateKey (rotationPrivTempl o) key isRsa true).2
          (params k)) ↔
      CalledRsa o ∧ (params k).isRsa = true ∨ ¬ CalledRsa o ∧ params k = .ec .p256 := by
  obtain ⟨hfamily, hkind⟩ := params_of_rotation hlib hgen (thenStore_ok hpub).1
    (thenStore_ok hpriv).1
  constructor
  · rintro ⟨k', hk', hpub', hpriv'⟩
    rw [← hk'] at hpub' hpriv'
    obtain ⟨hsame, hcurve⟩ := kind_of_holdsKey hpub hpriv hlib hfamily hpub' hpriv'
    rw [hk', hfamily] at hsame
    rw [hk'] at hcurve
    rcases hkind with ⟨hcalled, hkey⟩ | ⟨hcalled, hkey⟩
    · rw [hkey] at hsame
      exact .inl ⟨hcalled, hsame⟩
    · rcases hmade.params_eq hlib with hrsa | ⟨curve, hec, hder⟩
      · rw [hkey, hrsa] at hsame
        cases hsame
      · refine .inr ⟨hcalled, ?_⟩
        rw [hec, ← hcurve curve hec, hkey, curveFromParams_of_oidDer hder]
  · intro hrecovers
    have hsame : params key = params k := by
      rcases hmade.params_eq hlib with hrsa | ⟨curve, hec, hder⟩
      · rw [hrsa] at hrecovers ⊢
        rcases hkind with ⟨-, hkey⟩ | ⟨hcalled, -⟩
        · exact hkey
        · rcases hrecovers with ⟨hcalled', -⟩ | ⟨-, hp⟩
          · exact absurd hcalled' hcalled
          · cases hp
      · rcases hrecovers with ⟨-, hrsa⟩ | ⟨hcalled, hp⟩
        · rw [hec] at hrsa
          cases hrsa
        · rcases hkind with ⟨hcalled', -⟩ | ⟨-, hkey⟩
          · exact absurd hcalled' hcalled
          · rw [hkey, curveFromParams_of_oidDer hder, hp]
    subst hfamily
    rw [← hsame]
    exact ⟨key, rfl, holdsKey_fillKey hpub, holdsKey_fillKey hpriv⟩

end Pair

/-- The pair that a rotation makes is a successor exactly when the attributes of the old key tell
its kind and its name. -/
theorem successors_iff (hlib : be.GeneratesAsAsked params) (hmade : MadeKey be o k) {seed : Nat}
    {key : be.Pkey} {isRsa : Bool} {pub priv : Built}
    (hgen : Hsm.generatePair be seed (Hsm.rotationMechanism o) (rotationPubTempl o)
      (rotationPrivTempl o) = .ok (key, isRsa))
    (hpub : pub = .publicKey be (rotationPubTempl o) key isRsa)
    (hpriv : priv = .privateKey be pub (rotationPrivTempl o) key isRsa) (hrv : priv.rv = .ok) :
    Successors be params (params k) o pub.built priv.built ↔ Recovers (params k) o := by
  subst hpriv
  obtain ⟨hpubRv, hprivRv, hbuilt⟩ := Built.privateKey_ok hrv
  subst hpub
  have hnames {t : CkUlong} (ht : t ∈ [ckaLabel, ckaId]) :=
    findAttribute_rotated hpubRv hprivRv ht
  have hkeys := holdsKey_rotated_iff hgen hpubRv hprivRv hlib hmade
  rw [hbuilt]
  constructor
  · intro hs
    refine ⟨hkeys.mp hs.key, fun t ht => ?_⟩
    rw [← nonEmpty_eq_findAttribute_iff, ← (hnames ht).2, (hs.named t ht).2]
  · intro hrecovers
    refine ⟨⟨?_, ?_⟩, hkeys.mpr hrecovers.kind, fun t ht => ?_, active_rotated hprivRv⟩
    · exact (fillKey_sameFields barePublicKey (rotationPubTempl o) key isRsa false).type
    · exact (fillKey_sameFields barePrivateKey (rotationPrivTempl o) key isRsa true).type
    · have hsame := nonEmpty_eq_findAttribute_iff.mpr (hrecovers.named t ht)
      exact ⟨(hnames ht).1.trans hsame, (hnames ht).2.trans hsame⟩

/-- A rotation replaces a generated key exactly when the attributes of the key tell its kind and its
name. -/
theorem Hsm.replaces_iff (hlib : be.GeneratesAsAsked params) (hmade : MadeKey be o k)
    (ho : hsm.getObject h old = some o) (hroom : ∀ st, hsm.store h = some st → st.size + 1 < 2 ^ 32)
    (hok : (rotate be env hsm h old).1.rv = .ok) :
    Replaces be params (params k) hsm h old o (rotate be env hsm h old) ↔
      Recovers (params k) o ∧ (old = ckInvalidHandle → o.getKeyState = .rotating) := by
  obtain ⟨st, key, isRsa, pub, priv, hst, hgen, hpub, hpriv, hrv, hhandles, hget⟩ :=
    rotate_ok ho hok
  have hold : st.getObject old = some o := by
    rwa [getObject, hst, Option.bind_some] at ho
  have hsome : old = ckInvalidHandle ∨ (st.getObject old).isSome :=
    .inr (Option.isSome_of_eq_some hold)
  have hsucc := successors_iff hlib hmade hgen hpub hpriv hrv
  have hnewPub := (hget _).trans (ObjectStore.getObject_buildPair_pub (hroom st hst) hrv hsome)
  have hnewPriv := (hget _).trans (ObjectStore.getObject_buildPair_priv (hroom st hst) hrv hsome)
  have hlives (x : CkUlong) (o' : HsmObject) (hx : st.getObject x = some o') :=
    (hget x).trans (ObjectStore.getObject_buildPair_of_some (hroom st hst) hrv hsome hx)
  constructor
  · intro hreplaces
    constructor
    · obtain ⟨pubHandle, privHandle, pubObj, privObj, heq, hpubObj, hprivObj, hs⟩ :=
        hreplaces.successors
      rw [hhandles, List.cons.injEq, List.cons.injEq] at heq
      obtain ⟨rfl, rfl, -⟩ := heq
      obtain rfl := Option.mem_unique hnewPub hpubObj
      obtain rfl := Option.mem_unique hnewPriv hprivObj
      exact hsucc.mp hs
    · intro hinvalid
      obtain ⟨o', ho', hstate⟩ := hreplaces.superseded
      rw [hlives old o hold, if_neg fun hboth => hboth.2 hinvalid] at ho'
      rwa [Option.some.inj ho']
  · rintro ⟨hrecovers, hinvalid⟩
    refine ⟨⟨_, _, _, _, hhandles, hnewPub, hnewPriv, hsucc.mpr hrecovers⟩, ?_,
      fun x o' hx ho' => ?_⟩
    · rw [hlives old o hold]
      split_ifs with hvalid
      · exact ⟨_, rfl, getKeyState_setKeyState_rotating o⟩
      · exact ⟨o, rfl, hinvalid (not_not.mp fun hne => hvalid ⟨rfl, hne⟩)⟩
    · rw [getObject, hst, Option.bind_some] at ho'
      rw [hlives x o' ho', if_neg fun hboth => hx hboth.1]

end Replacement

/-! ### Where the keys come from -/

namespace Hsm

variable {be : Backend} {env : Env} {hsm : Hsm} {h old : CkUlong} {o : HsmObject}

end Hsm

/-! ### A key on a curve and an RSA key -/

namespace Hsm

/-- The first session has generated a key pair; the private key is in the second slot. -/
def withKeyPair (mechanism : CkUlong) (privTempl : List CkAttribute) : Hsm :=
  (oneSession.api .sized (.onSession {} 1
    (Creation.generateKeyPair (some ⟨mechanism, .absent⟩) [] privTempl).call)).2

/-- A key on P-256 with a label. -/
def withCurveKey : Hsm := withKeyPair ckmEcKeyPairGen [⟨ckaLabel, .data [107]⟩]

theorem replaces_withCurveKey :
    ∃ o, withCurveKey.getObject 1 (composeHandle 1 1) = some o ∧
      withCurveKey.Replaces .sized (fun k => k) (.ec .p256) 1 (composeHandle 1 1) o
        (rotate .sized {} withCurveKey 1 (composeHandle 1 1)) := by
  have hmade := @MadeKey.of_fillKey .sized 0 ⟨ckmEcKeyPairGen, .absent⟩ []
    [⟨ckaLabel, .data [107]⟩] (.ec .p256) false rfl rfl
  have ho : withCurveKey.getObject 1 (composeHandle 1 1) = some (fillKey .sized barePrivateKey
    [⟨ckaLabel, .data [107]⟩] (.ec .p256) false true).2 := rfl
  refine ⟨_, ho, (replaces_iff Backend.generatesAsAsked_sized hmade ho ?_ ?_).mpr ?_⟩
  · intro st hst
    cases hst
    decide
  · decide +kernel
  · refine ⟨⟨.inr ⟨fun hcalled => ?_, rfl⟩, fun t ht => ?_⟩, fun hold => absurd hold (by decide)⟩
    · obtain ⟨v, hv, -⟩ := hcalled
      cases hv
    · simp only [List.mem_cons, List.not_mem_nil, or_false] at ht
      rcases ht with rfl | rfl <;> decide

/-- An RSA key that no template has called one. -/
def withRsaKey : Hsm := withKeyPair ckmRsaPkcsKeyPairGen []

/-- The key is replaced by one on a curve. -/
theorem not_replaces_withRsaKey :
    ∃ o, withRsaKey.getObject 1 (composeHandle 1 1) = some o ∧ MadeKey .sized o (.rsa 2048) ∧
      (rotate .sized {} withRsaKey 1 (composeHandle 1 1)).1.rv = .ok ∧
      ¬ withRsaKey.Replaces .sized (fun k => k) (.rsa 2048) 1 (composeHandle 1 1) o
        (rotate .sized {} withRsaKey 1 (composeHandle 1 1)) := by
  have hmade := @MadeKey.of_fillKey .sized 0 ⟨ckmRsaPkcsKeyPairGen, .absent⟩ [] [] (.rsa 2048) true
    rfl rfl
  refine ⟨_, rfl, hmade, by decide +kernel, fun hreplaces => ?_⟩
  obtain ⟨pub, priv, pubObj, privObj, hhandles, -, hpriv, hs⟩ := hreplaces.successors
  obtain ⟨k, -, -, bs, -, hstored⟩ := hs.key
  have hnew : (rotate .sized {} withRsaKey 1 (composeHandle 1 1)).1.handles =
      [composeHandle 2 1, composeHandle 3 1] := by decide +kernel
  have hnone : ((rotate .sized {} withRsaKey 1 (composeHandle 1 1)).2.getObject 1
      (composeHandle 3 1)).bind (·.findAttribute ckaVhsmRsaPriv) = none := by decide +kernel
  rw [hnew, List.cons.injEq, List.cons.injEq] at hhandles
  obtain ⟨-, rfl, -⟩ := hhandles
  rw [hpriv, Option.bind_some, hstored] at hnone
  cases hnone

end Hsm

end VirtualHsm
