import VirtualHsm.Pkcs11.Template

/-!
# Which attributes a storing step writes

The functions that put a template, a copy or key material into an object write a fixed set of
attributes, with values that do not depend on what the object holds. `WritesOnly` says so for one
step; it is closed under the ways in which the module composes steps.
-/

namespace VirtualHsm

/-- The step writes attributes of these types only. Its answer and what it writes are the same for
every object. -/
structure WritesOnly (types : List CkUlong) (f : HsmObject → CkRv × HsmObject) : Prop where
  rv_eq : ∀ o o', (f o).1 = (f o').1
  frame : ∀ o, ∀ t ∉ types, (f o).2.findAttribute t = o.findAttribute t
  congr : ∀ o o' t, o.findAttribute t = o'.findAttribute t →
    (f o).2.findAttribute t = (f o').2.findAttribute t

namespace WritesOnly

variable {ts ts' : List CkUlong} {f g : HsmObject → CkRv × HsmObject}

theorem mono (h : WritesOnly ts f) (hsub : ts ⊆ ts') : WritesOnly ts' f where
  rv_eq := h.rv_eq
  frame o t ht := h.frame o t fun hmem => ht (hsub hmem)
  congr := h.congr

theorem done (rv : CkRv) : WritesOnly ts fun o => (rv, o) where
  rv_eq _ _ := rfl
  frame _ _ _ := rfl
  congr _ _ _ h := h

theorem setAttribute {t : CkUlong} (ht : t ∈ ts) (v : Bytes) :
    WritesOnly ts fun o => (.ok, o.setAttribute t v) where
  rv_eq _ _ := rfl
  frame o t' ht' := by
    have hne : t' ≠ t := fun h => ht' (h ▸ ht)
    exact o.findAttribute_setAttribute_of_ne t v hne
  congr o o' t' h := by
    by_cases hne : t' = t
    · subst hne
      simp only [HsmObject.findAttribute_setAttribute_self]
    · simp only [HsmObject.findAttribute_setAttribute_of_ne _ _ _ hne]
      exact h

theorem storePart {t : CkUlong} (ht : t ∈ ts) (part : Option Bytes) :
    WritesOnly ts fun o => storePart o t part := by
  cases part with
  | none => exact done .generalError
  | some v => exact setAttribute ht v

theorem thenStore (hf : WritesOnly ts f) (hg : WritesOnly ts g) :
    WritesOnly ts fun o => thenStore (f o) g where
  rv_eq o o' := by
    simp only [VirtualHsm.thenStore, hf.rv_eq o o']
    split_ifs
    · exact hg.rv_eq _ _
    · exact hf.rv_eq o o'
  frame o t ht := by
    simp only [VirtualHsm.thenStore]
    split_ifs
    · exact (hg.frame _ t ht).trans (hf.frame o t ht)
    · exact hf.frame o t ht
  congr o o' t h := by
    simp only [VirtualHsm.thenStore, hf.rv_eq o o']
    split_ifs
    · exact hg.congr _ _ t (hf.congr o o' t h)
    · exact hf.congr o o' t h

end WritesOnly

section Steps

variable {be : Backend} (k : be.Pkey) (isPrivate : Bool)

theorem writesOnly_setKeyClass {ts : List CkUlong} (ht : ckaClass ∈ ts) :
    WritesOnly ts fun o => (.ok, setKeyClass o isPrivate) :=
  .setAttribute ht _

theorem writesOnly_storeSecret (raw : Bytes) :
    WritesOnly [ckaValue] fun o => (.ok, storeSecret o raw) :=
  .setAttribute List.mem_cons_self raw

/-- The attributes of an elliptic-curve key. -/
def ecKeyTypes : List CkUlong := [ckaVhsmEcPriv, ckaEcParams, ckaEcPoint, ckaClass]

/-- The attributes of an RSA key. -/
def rsaKeyTypes : List CkUlong := [ckaVhsmRsaPriv, ckaVhsmRsaPub, ckaClass]

theorem writesOnly_storeKeyEc : WritesOnly ecKeyTypes fun o => storeKeyEc be o k isPrivate := by
  have hpriv : WritesOnly ecKeyTypes fun o =>
      if isPrivate then storePart o ckaVhsmEcPriv (be.ecExportPrivateDer k) else (.ok, o) := by
    cases isPrivate with
    | true => exact .storePart (by decide) _
    | false => exact .done .ok
  exact ((hpriv.thenStore (.storePart (by decide) _)).thenStore (.storePart (by decide) _)).thenStore
    (writesOnly_setKeyClass isPrivate (by decide))

theorem writesOnly_storeKeyRsa : WritesOnly rsaKeyTypes fun o => storeKeyRsa be o k isPrivate := by
  have hder : WritesOnly rsaKeyTypes fun o =>
      if isPrivate then storePart o ckaVhsmRsaPriv (be.rsaExportPrivateDer k)
      else storePart o ckaVhsmRsaPub (be.rsaExportPublicDer k) := by
    cases isPrivate with
    | true | false => exact .storePart (by decide) _
  exact hder.thenStore (writesOnly_setKeyClass isPrivate (by decide))

/-- The attributes of a key of the library. Only a public key on a curve is exported under
`CKA_VHSM_EC_PUB`. -/
def evpKeyTypes (be : Backend) (k : be.Pkey) (isPrivate : Bool) : List CkUlong :=
  (if be.base k = .ec ∧ isPrivate = false then [ckaVhsmEcPub] else []) ++
    [ckaVhsmRsaPriv, ckaVhsmRsaPub, ckaVhsmEcPriv, ckaEcParams, ckaEcPoint, ckaClass, ckaKeyType]

theorem writesOnly_storeKeyEvp :
    WritesOnly (evpKeyTypes be k isPrivate) fun o => storeKeyEvp be o k isPrivate := by
  have hmem : ∀ t ∈ [ckaVhsmRsaPriv, ckaVhsmRsaPub, ckaVhsmEcPriv, ckaEcParams, ckaEcPoint, ckaClass,
      ckaKeyType], t ∈ evpKeyTypes be k isPrivate := fun t => List.mem_append_right _
  have hclass (kt : CkUlong) : WritesOnly (evpKeyTypes be k isPrivate) fun o =>
      (.ok, (setKeyClass o isPrivate).setAttribute ckaKeyType (ulongBytes kt)) :=
    (writesOnly_setKeyClass isPrivate (hmem _ (by decide))).thenStore
      (.setAttribute (hmem _ (by decide)) (ulongBytes kt))
  unfold storeKeyEvp
  cases hbase : be.base k with
  | rsa =>
    refine WritesOnly.thenStore ?_ (hclass ckkRsa)
    cases isPrivate with
    | true | false => exact .storePart (hmem _ (by decide)) _
  | ec =>
    refine WritesOnly.thenStore (WritesOnly.thenStore (WritesOnly.thenStore ?_
      (.storePart (hmem _ (by decide)) _)) (.storePart (hmem _ (by decide)) _)) (hclass ckkEc)
    cases isPrivate with
    | true => exact .storePart (hmem _ (by decide)) _
    | false =>
      refine .storePart ?_ _
      rw [evpKeyTypes, if_pos ⟨hbase, rfl⟩]
      exact List.mem_cons_self
  | other => exact .done .generalError

theorem writesOnly_applyTemplate (templ : List CkAttribute) :
    WritesOnly (templ.map (·.type)) fun o => applyTemplate o templ := by
  induction templ with
  | nil => exact .done .ok
  | cons a templ ih =>
    have hrest := ih.mono (List.subset_cons_self a.type _)
    unfold applyTemplate
    split_ifs
    · exact hrest
    · cases a.value with
      | null n =>
        by_cases hn : n ≠ 0
        · simp only [if_pos hn]
          exact .done .argumentsBad
        · simp only [if_neg hn]
          exact hrest
      | data bs => exact WritesOnly.thenStore (.setAttribute List.mem_cons_self bs) hrest

/-- The value that the template gives to the attribute: that of the last entry which is no array and
has a value. -/
def templateValue (t : CkUlong) : List CkAttribute → Option Bytes
  | [] => none
  | a :: templ =>
    (templateValue t templ).or
      (match a.value with
      | .data bs => if a.isArray = false ∧ a.type = t then some bs else none
      | .null _ => none)

variable {templ : List CkAttribute}

theorem templateValue_eq_none {t : CkUlong}
    (h : ∀ a ∈ templ, a.type ≠ t) : templateValue t templ = none := by
  induction templ with
  | nil => rfl
  | cons a templ ih =>
    rw [templateValue, ih fun b hb => h b (List.mem_cons_of_mem a hb), Option.none_or]
    have hne := h a List.mem_cons_self
    cases a.value with
    | null n => rfl
    | data bs => exact if_neg fun hboth => hne hboth.2

/-- Among distinct types, the value is that of the entry. -/
theorem templateValue_of_mem {a : CkAttribute} {bs : Bytes}
    (hdistinct : (templ.map (·.type)).Nodup) (ha : a ∈ templ) (hvalue : a.value = .data bs) :
    templateValue a.type templ = if a.isArray = true then none else some bs := by
  induction templ with
  | nil => cases ha
  | cons b templ ih =>
    obtain ⟨hnew, hrest⟩ := List.nodup_cons.mp hdistinct
    rw [templateValue]
    rcases List.mem_cons.mp ha with rfl | hmem
    · have hlater : templateValue a.type templ = none :=
        templateValue_eq_none fun b hb heq => hnew (List.mem_map.mpr ⟨b, hb, heq⟩)
      rw [hlater, Option.none_or, hvalue]
      cases harray : a.isArray <;> simp
    · have hne : b.type ≠ a.type := fun heq => hnew (List.mem_map.mpr ⟨a, hmem, heq.symm⟩)
      rw [ih hrest hmem]
      cases b.value with
      | null n => rw [Option.or_none]
      | data bs' =>
        simp only [hne, and_false, if_false, Option.or_none]

theorem findAttribute_applyTemplate {o : HsmObject}
    (hrv : (applyTemplate o templ).1 = .ok) (t : CkUlong) :
    (applyTemplate o templ).2.findAttribute t = (templateValue t templ).or (o.findAttribute t) := by
  induction templ generalizing o with
  | nil => rfl
  | cons a templ ih =>
    rw [templateValue, Option.or_assoc]
    unfold applyTemplate at hrv ⊢
    by_cases harray : a.isArray = true
    · rw [if_pos harray] at hrv ⊢
      rw [ih hrv]
      cases a.value <;> simp [harray]
    · rw [if_neg harray] at hrv ⊢
      cases hvalue : a.value with
      | null n =>
        simp only [hvalue] at hrv ⊢
        split_ifs at hrv ⊢
        rw [ih hrv, Option.none_or]
      | data bs =>
        simp only [hvalue] at hrv ⊢
        rw [ih hrv]
        by_cases ht : a.type = t
        · subst ht
          rw [HsmObject.findAttribute_setAttribute_self,
            if_pos ⟨Bool.eq_false_of_not_eq_true harray, rfl⟩, Option.some_or]
        · rw [HsmObject.findAttribute_setAttribute_of_ne _ _ _ (Ne.symm ht),
            if_neg fun hboth => ht hboth.2, Option.none_or]

theorem writesOnly_copyMaterial (src : HsmObject) :
    WritesOnly materialTypes fun o => (.ok, copyMaterial o src) where
  rv_eq _ _ := rfl
  frame o t ht := by rw [findAttribute_copyMaterial_eq, if_neg ht]
  congr o o' t h := by simp only [findAttribute_copyMaterial_eq, h]

end Steps

end VirtualHsm
