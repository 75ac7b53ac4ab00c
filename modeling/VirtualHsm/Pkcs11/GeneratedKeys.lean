import VirtualHsm.Pkcs11.ReadBack

/-!
# Generated keys and their kinds

What `C_GenerateKeyPair` leaves in a private key: the exports of the key, and the attributes of the
template. The size of an RSA key is still to be read off `CKA_MODULUS_BITS`, whence generation had
it. Of a key on a curve there is the encoding of the object identifier, which does not contain the
name that generation looks for in a template.
-/

namespace VirtualHsm

/-! ### Kinds of keys -/

inductive KeyParams
  | rsa (bits : Int)
  | ec (curve : Curve)
  deriving DecidableEq

def KeyParams.isRsa : KeyParams → Bool
  | rsa _ => true
  | ec _ => false

/-- The encoding of the object identifier of a curve. -/
def Curve.oidDer : Curve → Bytes
  | p256 => [6, 8, 42, 134, 72, 206, 61, 3, 1, 7]
  | p384 => [6, 5, 43, 129, 4, 0, 34]
  | p521 => [6, 5, 43, 129, 4, 0, 35]

/-- The library generates keys of the kind it is asked for, and exports the parameters of a curve as
its object identifier. -/
structure Backend.GeneratesAsAsked (be : Backend) (params : be.Pkey → KeyParams) : Prop where
  rsa : ∀ seed bits k, be.rsaGenerate seed bits = some k → params k = .rsa bits
  ec : ∀ seed curve k, be.ecGenerate seed curve = some k → params k = .ec curve
  der : ∀ k curve der, params k = .ec curve → be.ecExportParamsDer k = some der →
    der = curve.oidDer

theorem Curve.oidDer_inj {c c' : Curve} (heq : c.oidDer = c'.oidDer) : c = c' := by
  revert heq
  cases c <;> cases c' <;> decide

theorem curveFromParams_of_oidDer {o : HsmObject} {c : Curve}
    (ho : o.findAttribute ckaEcParams = some c.oidDer) : curveFromParams o = .p256 := by
  have hsome : o.nonEmpty ckaEcParams = some c.oidDer := by
    rw [HsmObject.nonEmpty, ho]
    cases c <;> rfl
  have hnames : ∀ text ∈ ["P-384", "secp384r1", "P-521", "secp521r1"],
      mentions c.oidDer text = false := by
    cases c <;> decide +kernel
  rw [curveFromParams, hsome]
  simp [hnames]

/-! ### Keys in objects -/

/-- The export is stored under the attribute. -/
def StoresPart (o : HsmObject) (t : CkUlong) (part : Option Bytes) : Prop :=
  ∃ bs, part = some bs ∧ o.findAttribute t = some bs

/-- The object holds one of the keys of a pair of this kind. -/
def HoldsKey (be : Backend) (k : be.Pkey) (isPrivate : Bool) (o : HsmObject) : KeyParams → Prop
  | .rsa _ =>
    if isPrivate then StoresPart o ckaVhsmRsaPriv (be.rsaExportPrivateDer k)
    else StoresPart o ckaVhsmRsaPub (be.rsaExportPublicDer k)
  | .ec _ =>
    (isPrivate = true → StoresPart o ckaVhsmEcPriv (be.ecExportPrivateDer k)) ∧
      StoresPart o ckaEcParams (be.ecExportParamsDer k) ∧
      StoresPart o ckaEcPoint (be.ecExportPublicPoint k)

theorem storesPart_of_storePart {o : HsmObject} {t : CkUlong} {part : Option Bytes}
    (hrv : (storePart o t part).1 = .ok) : StoresPart (storePart o t part).2 t part := by
  cases part with
  | none => cases hrv
  | some bs => exact ⟨bs, rfl, o.findAttribute_setAttribute_self t bs⟩

theorem storesPart_thenStore {r : CkRv × HsmObject} {t : CkUlong} {part : Option Bytes}
    (hrv : (thenStore r fun o => storePart o t part).1 = .ok) :
    StoresPart (thenStore r fun o => storePart o t part).2 t part := by
  obtain ⟨-, hstored⟩ := thenStore_ok hrv
  rw [hstored] at hrv ⊢
  exact storesPart_of_storePart hrv

/-- A further step that writes other attributes leaves the export. -/
theorem StoresPart.thenStore {r : CkRv × HsmObject} {t : CkUlong} {part : Option Bytes}
    {f : HsmObject → CkRv × HsmObject} (h : StoresPart r.2 t part) (ts : List CkUlong)
    (hf : WritesOnly ts f) (ht : t ∉ ts) : StoresPart (thenStore r f).2 t part := by
  unfold VirtualHsm.thenStore
  split_ifs
  · obtain ⟨bs, hpart, hstored⟩ := h
    exact ⟨bs, hpart, (hf.frame r.2 t ht).trans hstored⟩
  · exact h

section Store

variable {be : Backend} {o : HsmObject} {k : be.Pkey} {isPrivate : Bool}

theorem holdsKey_storeKeyRsa {bits : Int} (hrv : (storeKeyRsa be o k isPrivate).1 = .ok) :
    HoldsKey be k isPrivate (storeKeyRsa be o k isPrivate).2 (.rsa bits) := by
  have hclass : WritesOnly [ckaClass] fun o => (.ok, setKeyClass o isPrivate) :=
    writesOnly_setKeyClass isPrivate (by decide)
  have hder := (thenStore_ok hrv).1
  cases isPrivate with
  | true | false => exact (storesPart_of_storePart hder).thenStore _ hclass (by decide)

theorem holdsKey_storeKeyEc {curve : Curve} (hrv : (storeKeyEc be o k isPrivate).1 = .ok) :
    HoldsKey be k isPrivate (storeKeyEc be o k isPrivate).2 (.ec curve) := by
  have hclass : WritesOnly [ckaClass] fun o => (.ok, setKeyClass o isPrivate) :=
    writesOnly_setKeyClass isPrivate (by decide)
  have hwrites (t : CkUlong) (part : Option Bytes) : WritesOnly [t] fun o => storePart o t part :=
    .storePart List.mem_cons_self part
  -- Each of the steps has succeeded.
  have hpoint := (thenStore_ok hrv).1
  have hparams := (thenStore_ok hpoint).1
  have hpriv := (thenStore_ok hparams).1
  refine ⟨fun hprivate => ?_, ?_, ?_⟩
  · subst hprivate
    exact (((storesPart_of_storePart hpriv).thenStore _ (hwrites _ _) (by decide)).thenStore _
      (hwrites _ _) (by decide)).thenStore _ hclass (by decide)
  · exact ((storesPart_thenStore hparams).thenStore _ (hwrites _ _) (by decide)).thenStore _ hclass
      (by decide)
  · exact (storesPart_thenStore hpoint).thenStore _ hclass (by decide)

theorem holdsKey_fillKey {bare : BareObject} {templ : List CkAttribute} {p : KeyParams}
    (hrv : (fillKey be bare templ k p.isRsa isPrivate).1 = .ok) :
    HoldsKey be k isPrivate (fillKey be bare templ k p.isRsa isPrivate).2 p := by
  obtain ⟨-, hstored⟩ := thenStore_ok hrv
  rw [fillKey] at hrv ⊢
  rw [hstored] at hrv ⊢
  cases p with
  | rsa bits => exact holdsKey_storeKeyRsa hrv
  | ec curve => exact holdsKey_storeKeyEc hrv

end Store

/-! ### Generated keys -/

/-- A private key that generation has made of the key `k`. Attributes may have been written since,
but not those that hold its size and curve. -/
def MadeKey (be : Backend) (o : HsmObject) (k : be.Pkey) : Prop :=
  ∃ seed m pubTempl privTempl isRsa made,
    Hsm.generatePair be seed m pubTempl privTempl = .ok (k, isRsa) ∧
      fillKey be barePrivateKey privTempl k isRsa true = (.ok, made) ∧
      made.Evolves o ∧
      ∀ t ∈ [ckaEcParams, ckaModulusBits], o.findAttribute t = made.findAttribute t

theorem MadeKey.of_fillKey {be : Backend} {seed : Nat} {m : CkMechanism}
    {pubTempl privTempl : List CkAttribute} {k : be.Pkey} {isRsa : Bool}
    (hgen : Hsm.generatePair be seed m pubTempl privTempl = .ok (k, isRsa))
    (hrv : (fillKey be barePrivateKey privTempl k isRsa true).1 = .ok) :
    MadeKey be (fillKey be barePrivateKey privTempl k isRsa true).2 k :=
  ⟨seed, m, pubTempl, privTempl, isRsa, _, hgen, Prod.ext hrv rfl, .refl, fun _ _ => rfl⟩

section Generation

variable {be : Backend} {params : be.Pkey → KeyParams} {seed : Nat} {m : CkMechanism}
  {pubTempl privTempl : List CkAttribute} {k : be.Pkey} {isRsa : Bool} {o : HsmObject}

theorem rsaGenerateKey_eq_ok {bits : Int} (h : rsaGenerateKey be seed bits = .ok k) :
    be.rsaGenerate seed bits = some k := by
  unfold rsaGenerateKey at h
  split_ifs at h
  cases hkey : be.rsaGenerate seed bits with
  | none =>
    rw [hkey] at h
    cases h
  | some key =>
    rw [hkey] at h
    exact congrArg some (Except.ok.inj h)

/-- The kind of key that is asked for. -/
theorem params_of_generatePair (hlib : be.GeneratesAsAsked params)
    (hgen : Hsm.generatePair be seed m pubTempl privTempl = .ok (k, isRsa)) :
    isRsa = (params k).isRsa ∧ params k =
      if isRsa then .rsa (rsaBitsFromTemplate (applyTemplate barePrivateKey.object privTempl).2)
      else .ec (curveFromParams (applyTemplate barePublicKey.object pubTempl).2) := by
  unfold Hsm.generatePair at hgen
  split_ifs at hgen
  · obtain ⟨key, hkey, ⟨⟩⟩ := bind_eq_ok.mp hgen
    have hparams := hlib.rsa _ _ _ (rsaGenerateKey_eq_ok hkey)
    rw [hparams]
    exact ⟨rfl, rfl⟩
  · obtain ⟨key, hkey, ⟨⟩⟩ := orRefuse_bind_eq_ok.mp hgen
    have hparams := hlib.ec _ _ _ hkey
    rw [hparams]
    exact ⟨rfl, rfl⟩

theorem rsaBitsFromTemplate_congr {o o' : HsmObject}
    (h : o.findAttribute ckaModulusBits = o'.findAttribute ckaModulusBits) :
    rsaBitsFromTemplate o = rsaBitsFromTemplate o' := by
  rw [rsaBitsFromTemplate, rsaBitsFromTemplate, h]

/-- What the attributes of a generated key tell: of an RSA key its size, of a key on a curve the
object identifier. -/
theorem MadeKey.params_eq (hlib : be.GeneratesAsAsked params) (hmade : MadeKey be o k) :
    params k = .rsa (rsaBitsFromTemplate o) ∨
      ∃ curve, params k = .ec curve ∧ o.findAttribute ckaEcParams = some curve.oidDer := by
  obtain ⟨seed, m, pubTempl, privTempl, isRsa, made, hgen, hfill, -, hsame⟩ := hmade
  obtain ⟨hfamily, hparams⟩ := params_of_generatePair hlib hgen
  have hrv : (fillKey be barePrivateKey privTempl k isRsa true).1 = .ok := by rw [hfill]
  obtain rfl : (fillKey be barePrivateKey privTempl k isRsa true).2 = made := by rw [hfill]
  cases hkind : params k with
  | rsa bits =>
    rw [hkind] at hfamily
    obtain rfl : isRsa = true := hfamily
    -- The size was read off the template, and the attribute is still the one of the template.
    have hbits : o.findAttribute ckaModulusBits =
        (applyTemplate barePrivateKey.object privTempl).2.findAttribute ckaModulusBits := by
      rw [hsame _ (by decide), findAttribute_fillKey hrv (by decide),
        findAttribute_applyTemplate (thenStore_ok hrv).1]
      exact (Option.or_none).symm
    rw [← hkind, hparams, if_pos rfl, rsaBitsFromTemplate_congr hbits]
    exact .inl rfl
  | ec curve =>
    rw [hkind] at hfamily
    obtain rfl : isRsa = false := hfamily
    obtain ⟨-, ⟨der, hder, hstored⟩, -⟩ := holdsKey_fillKey (p := .ec curve) hrv
    refine .inr ⟨curve, rfl, ?_⟩
    rw [hsame _ (by decide), ← hlib.der k curve der hkind hder]
    exact hstored

end Generation

/-- The private key of a generated pair. -/
theorem Hsm.madeKey_of_generateKeyPair {be : Backend} {env : Env} {hsm : Hsm} {h : CkUlong}
    {mech : Option CkMechanism} {pubTempl privTempl : List CkAttribute} :
    let out := hsm.api be (.onSession env h
      (Creation.generateKeyPair mech pubTempl privTempl).call)
    out.1.rv = .ok → ∃ pub priv o k, out.1.handles = [pub, priv] ∧
      out.2.getObject h priv = some o ∧ MadeKey be o k := by
  intro out hok
  subst out
  obtain ⟨e, he⟩ := exists_of_finish_ok
    (Creation.FromTemplate.fails_call (c := .generateKeyPair mech pubTempl privTempl) trivial) hok
  simp only [api, he, finish_answer] at hok ⊢
  obtain ⟨st, hst, ⟨b, hone, -⟩ | hpair⟩ := effect_of_creation he
  · cases hone
  · obtain ⟨pub, priv, m, pubTempl', privTempl', key, isRsa, hc, hgen, -, rfl, hedit, hrv,
      hhandles⟩ := hpair
    cases hc
    rw [hok] at hrv
    obtain ⟨-, hfill, hbuilt⟩ := Built.privateKey_ok hrv.symm
    have hpairHandles := hhandles.trans (if_pos hrv.symm)
    have hget := getObject_finish_pair hst hedit hhandles (by rw [hpairHandles]; rfl)
    rw [hbuilt] at hget
    exact ⟨_, _, _, key, hpairHandles, hget, .of_fillKey hgen hfill⟩

/-! ### Keys that are their kinds -/

/-- A library whose keys are their kinds. -/
def Backend.sized : Backend :=
  { Backend.toy with
    Pkey := KeyParams
    base := fun k => if k.isRsa then .rsa else .ec
    rsaGenerate := fun _ bits => some (.rsa bits)
    ecGenerate := fun _ curve => some (.ec curve)
    rsaExportPrivateDer := fun _ => some [1]
    rsaExportPublicDer := fun _ => some [2]
    ecExportPrivateDer := fun _ => some [3]
    ecExportParamsDer := fun k =>
      match k with
      | .rsa _ => none
      | .ec curve => some curve.oidDer
    ecExportPublicPoint := fun _ => some [5]
    rsaImportPrivateDer := fun _ => none
    ecImportPrivateDer := fun _ => none
    rsaImportPublicDer := fun _ => none
    ecImportPublicParamsPoint := fun _ _ => none
    d2iEcPubkey := fun _ => none
    d2iPubkey := fun _ => none
    i2dRsaPrivateKey := fun _ => none
    i2dRsaPublicKey := fun _ => none
    i2dEcPrivateKey := fun _ => none
    i2oEcPublicKey := fun _ => none
    i2dEcpkParameters := fun _ => none
    ecPointPoint2oct := fun _ => none
    rsaEncrypt := fun _ _ _ _ _ data => .ok data
    rsaDecrypt := fun _ _ _ _ data => .ok data
    rsaSign := fun _ _ _ _ _ data => .ok data
    rsaVerify := fun _ _ _ _ data sig => if data = sig then .ok else .signatureInvalid
    ecdsaSign := fun _ _ data => .ok data
    ecdsaVerify := fun _ data sig => if data = sig then .ok else .signatureInvalid
    ecdhDerive := fun _ _ => [6] }

theorem Backend.generatesAsAsked_sized : Backend.sized.GeneratesAsAsked (fun k => k) where
  rsa seed bits k h := (Option.some.inj h).symm
  ec seed curve k h := (Option.some.inj h).symm
  der k curve der hk hder := by
    subst hk
    exact (Option.some.inj hder).symm

end VirtualHsm
