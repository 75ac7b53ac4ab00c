import VirtualHsm.Pkcs11.CallEffect
import VirtualHsm.Pkcs11.Extractability

/-!
# Protection flags only tighten

What `C_GetAttributeValue` reports for the class and the flags of an object comes from fields, and
the only writes to these fields make an object sensitive or not extractable. The statements are
about any calls that leave the object in place; calls of `C_SetAttributeValue` always do, whatever
their templates.
-/

namespace VirtualHsm

/-! ### How fields change -/

namespace HsmObject

variable {o o' : HsmObject}

theorem setAttributeChecked_token_priv (a : CkAttribute) :
    (o.setAttributeChecked a).2.token = o.token ∧ (o.setAttributeChecked a).2.priv = o.priv := by
  rcases o.setAttributeChecked_cases a with ⟨-, h⟩ | ⟨-, h⟩ | ⟨-, -, h⟩ | ⟨-, -, h⟩ | ⟨-, h⟩ <;>
    rw [h] <;> exact ⟨rfl, rfl⟩

theorem Evolves.sensitive (h : o.Evolves o') (ho : o.sensitive = true) : o'.sensitive = true := by
  induction h with
  | refl => exact ho
  | write a _ ih => exact setAttributeChecked_sensitive _ ih
  | keyState s _ ih => exact ih

theorem Evolves.token_priv (h : o.Evolves o') : o'.token = o.token ∧ o'.priv = o.priv := by
  induction h with
  | refl => exact ⟨rfl, rfl⟩
  | write a _ ih =>
    obtain ⟨htoken, hpriv⟩ := setAttributeChecked_token_priv a
    exact ⟨htoken.trans ih.1, hpriv.trans ih.2⟩
  | keyState s _ ih => exact ih

theorem Evolves.trans {o'' : HsmObject} (h : o.Evolves o') (h' : o'.Evolves o'') :
    o.Evolves o'' := by
  induction h' with
  | refl => exact h
  | write a _ ih => exact .write a ih
  | keyState s _ ih => exact .keyState s ih

theorem Evolves.attributeValue_eq (h : o.Evolves o') {t : CkUlong}
    (ht : t ∈ [ckaClass, ckaToken, ckaPrivate]) : o'.attributeValue t = o.attributeValue t := by
  simp only [List.mem_cons, List.not_mem_nil, or_false] at ht
  rcases ht with rfl | rfl | rfl
  · rw [attributeValue_class, attributeValue_class, h.type]
  · rw [attributeValue_token, attributeValue_token, h.token_priv.1]
  · rw [attributeValue_private, attributeValue_private, h.token_priv.2]

end HsmObject

namespace Hsm

/-! ### What is reported -/

section Reports

variable (be : Backend) (hsm : Hsm) (h k t : CkUlong)

/-- The answers of a call of `C_GetAttributeValue`, entry by entry. -/
def readEntries (env : Env) (templ : List CkAttribute) : List HsmObject.AttributeAnswer :=
  (hsm.api be (.onSession env h (.object (.getAttributeValue k templ)))).1.entries

/-- Some call of `C_GetAttributeValue`, with whatever other entries in its template, writes the
bytes `v` to the buffer for the attribute. -/
def Returns (v : Bytes) : Prop :=
  ∃ (env : Env) (templ : List CkAttribute) (i : Nat) (old : Bytes),
    templ[i]? = some ⟨t, .data old⟩ ∧
      (hsm.readEntries be h k env templ)[i]? = some ⟨.ok, v.length, .data (v ++ old.drop v.length)⟩

/-- Some call of `C_GetAttributeValue` refuses the attribute as sensitive. -/
def RefusesSensitive : Prop :=
  ∃ (env : Env) (templ : List CkAttribute) (i : Nat) (buf : CkBuf) (r : HsmObject.AttributeAnswer),
    templ[i]? = some ⟨t, buf⟩ ∧ (hsm.readEntries be h k env templ)[i]? = some r ∧
      r.rv = .attributeSensitive

end Reports

variable {be : Backend} {env : Env} {hsm later : Hsm} {h k t : CkUlong} {o : HsmObject}

/-- A call hands back entries only when the module is initialised and the object is there. -/
theorem readEntries_eq (templ : List CkAttribute) :
    hsm.readEntries be h k env templ =
      match hsm.initialized, hsm.getObject h k with
      | true, some o => templ.map fun a => o.getAttribute a.type a.value
      | _, _ => [] := by
  change (hsm.finish h (hsm.cGetAttributeValue h k templ)).1.entries = _
  cases hinit : hsm.initialized with
  | false => simp [cGetAttributeValue, checkInitialized, hinit, refuseIf, bind, Except.bind, finish]
  | true =>
    cases ho : hsm.getObject h k with
    | none =>
      simp [cGetAttributeValue, checkInitialized, hinit, ho, refuseIf, orRefuse, bind,
        Except.bind, finish]
    | some o =>
      simp only [cGetAttributeValue, checkInitialized, hinit, ho, refuseIf, orRefuse, bind,
        Except.bind, pure, Except.pure, Bool.true_eq_false, if_false, finish_answer]

/-- An entry of an answer belongs to an entry of the template, and to the object. -/
theorem exists_of_readEntries {templ : List CkAttribute} {i : Nat} {a : CkAttribute}
    {r : HsmObject.AttributeAnswer} (ha : templ[i]? = some a)
    (hr : (hsm.readEntries be h k env templ)[i]? = some r) :
    hsm.initialized = true ∧ ∃ o, hsm.getObject h k = some o ∧ r = o.getAttribute a.type a.value := by
  rw [readEntries_eq] at hr
  cases hinit : hsm.initialized with
  | false => simp [hinit] at hr
  | true =>
    cases ho : hsm.getObject h k with
    | none => simp [ho] at hr
    | some o =>
      simp only [hinit, ho, List.getElem?_map, ha, Option.map_some] at hr
      exact ⟨rfl, o, rfl, (Option.some.inj hr).symm⟩

theorem returns_iff {v : Bytes} :
    Returns be hsm h k t v ↔
      hsm.initialized = true ∧ ∃ o, hsm.getObject h k = some o ∧ o.attributeValue t = .ok v := by
  constructor
  · rintro ⟨env, templ, i, old, ha, hr⟩
    obtain ⟨hinit, o, ho, hread⟩ := exists_of_readEntries ha hr
    refine ⟨hinit, o, ho, ?_⟩
    cases hvalue : o.attributeValue t with
    | error rv =>
      rw [HsmObject.getAttribute_of_error hvalue] at hread
      rcases HsmObject.attributeValue_error hvalue with rfl | rfl <;> cases hread
    | ok w =>
      rw [HsmObject.getAttribute_of_ok_data hvalue] at hread
      split_ifs at hread
      · cases hread
      · -- Two values of one length in front of the same rest.
        obtain ⟨-, hlen, hbuf⟩ := HsmObject.AttributeAnswer.mk.inj hread
        exact congrArg Except.ok (List.append_inj (CkBuf.data.inj hbuf) hlen).1.symm
  · rintro ⟨hinit, o, ho, hvalue⟩
    refine ⟨{}, [⟨t, .data v⟩], 0, v, rfl, ?_⟩
    rw [readEntries_eq, hinit, ho]
    simp only [List.map_cons, List.map_nil, List.getElem?_cons_zero,
      HsmObject.getAttribute_of_ok_data hvalue, Nat.lt_irrefl, if_false]

/-- Only the value of a sensitive object is refused as sensitive. -/
theorem refusesSensitive_value_iff :
    RefusesSensitive be hsm h k ckaValue ↔
      hsm.initialized = true ∧ ∃ o, hsm.getObject h k = some o ∧ o.sensitive = true := by
  constructor
  · rintro ⟨env, templ, i, buf, r, ha, hr, hrv⟩
    obtain ⟨hinit, o, ho, rfl⟩ := exists_of_readEntries ha hr
    exact ⟨hinit, o, ho, HsmObject.attributeValue_value_eq_sensitive_iff.mp
      (HsmObject.attributeValue_of_getAttribute_rv hrv)⟩
  · rintro ⟨hinit, o, ho, hsensitive⟩
    refine ⟨{}, [⟨ckaValue, .null 0⟩], 0, .null 0, o.getAttribute ckaValue (.null 0), rfl, ?_, ?_⟩
    · rw [readEntries_eq, hinit, ho]
      rfl
    · rw [HsmObject.getAttribute_of_error (HsmObject.attributeValue_value_of_sensitive hsensitive)]

/-! ### Whole runs -/

/-- Between two states of the module, a flag that protects the object is not taken back, class,
token flag and private flag stay, and a value that was refused as sensitive is not handed out. -/
structure OnlyTightens (be : Backend) (hsm later : Hsm) (h k : CkUlong) : Prop where
  sensitive : Returns be hsm h k ckaSensitive [ckTrue] → ¬ Returns be later h k ckaSensitive [ckFalse]
  extractable :
    Returns be hsm h k ckaExtractable [ckFalse] → ¬ Returns be later h k ckaExtractable [ckTrue]
  fixed : ∀ t ∈ [ckaClass, ckaToken, ckaPrivate], ∀ v v',
    Returns be hsm h k t v → Returns be later h k t v' → v' = v
  value : RefusesSensitive be hsm h k ckaValue → ∀ v, ¬ Returns be later h k ckaValue v

theorem boolBytes_inj {b c : Bool} (heq : boolBytes b = boolBytes c) : b = c := by
  revert heq
  cases b <;> cases c <;> decide

theorem onlyTightens_of_evolves {o' : HsmObject} (ho : hsm.getObject h k = some o)
    (ho' : later.getObject h k = some o') (hevolves : o.Evolves o') :
    OnlyTightens be hsm later h k := by
  -- Both reports are about the one object that is there.
  have hread {t : CkUlong} {v : Bytes} (hreturns : Returns be hsm h k t v) :
      o.attributeValue t = .ok v := by
    obtain ⟨-, x, hx, hv⟩ := returns_iff.mp hreturns
    exact Option.mem_unique hx ho ▸ hv
  have hread' {t : CkUlong} {v : Bytes} (hreturns : Returns be later h k t v) :
      o'.attributeValue t = .ok v := by
    obtain ⟨-, x, hx, hv⟩ := returns_iff.mp hreturns
    exact Option.mem_unique hx ho' ▸ hv
  constructor
  · intro htrue hfalse
    have hset : o.sensitive = true := boolBytes_inj (Except.ok.inj (hread htrue))
    have hclear : o'.sensitive = false := boolBytes_inj (Except.ok.inj (hread' hfalse))
    rw [hevolves.sensitive hset] at hclear
    cases hclear
  · intro hfalse htrue
    have hclear : o.extractable = false := boolBytes_inj (Except.ok.inj (hread hfalse))
    have hset : o'.extractable = true := boolBytes_inj (Except.ok.inj (hread' htrue))
    rw [hevolves.extractable hclear] at hset
    cases hset
  · intro t ht v v' hv hv'
    exact Except.ok.inj ((hread' hv').symm.trans ((hevolves.attributeValue_eq ht).trans (hread hv)))
  · intro hrefused v hv
    obtain ⟨-, x, hx, hset⟩ := refusesSensitive_value_iff.mp hrefused
    obtain rfl : x = o := Option.mem_unique hx ho
    have hvalue := hread' hv
    rw [HsmObject.attributeValue_value_of_sensitive (hevolves.sensitive hset)] at hvalue
    cases hvalue

end Hsm

/-- The call is one of `C_SetAttributeValue`, on whatever object of whatever session. -/
def ApiCall.SetsAttributes (c : ApiCall) : Prop :=
  ∃ env session object templ,
    c = .onSession env session (.object (.setAttributeValue object templ))

theorem ObjectStore.isSome_getObject_setAttributes {st : ObjectStore} {k : CkUlong} {o : HsmObject}
    (ho : st.getObject k = some o) (x : CkUlong) (templ : List CkAttribute) :
    ((st.setAttributes x templ).getObject k).isSome = true := by
  unfold setAttributes
  cases hx : st.getObject x with
  | none =>
    rw [ho]
    rfl
  | some y =>
    have hwritten : ((st.setObject x (y.setAttributes templ).2).getObject k).isSome = true := by
      rw [getObject_setObject hx]
      split_ifs
      · rfl
      · rw [ho]
        rfl
    simp only
    split_ifs
    · obtain ⟨z, hz⟩ := Option.isSome_iff_exists.mp hwritten
      have hsame : ((st.setObject x (y.setAttributes templ).2).reindex x).getObject k = some z := by
        rw [getObject_eq_some_iff, slot_reindex, ← getObject_eq_some_iff, hz]
      rw [hsame]
      rfl
    · exact hwritten

namespace Hsm

variable {be : Backend} {hsm : Hsm} {h k : CkUlong} {o : HsmObject}

theorem keeps_of_setsAttributes {c : ApiCall} (hc : c.SetsAttributes)
    (ho : hsm.getObject h k = some o) : Keeps be h k hsm c := by
  obtain ⟨env, x, object, templ, rfl⟩ := hc
  obtain ⟨st, hst, hget⟩ := Option.bind_eq_some_iff.mp ho
  refine ⟨id, ?_⟩
  rw [getObject, store_api id hst, Option.bind_some]
  rcases @apiEdit_cases be hsm h (.onSession env x (.object (.setAttributeValue object templ)))
    with hkeep | ⟨env', call, heq, hedit⟩
  · rw [hkeep]
    exact Option.isSome_iff_exists.mpr ⟨o, hget⟩
  · obtain ⟨-, -, rfl⟩ := ApiCall.onSession.inj heq
    have hwrites : hsm.apiEdit be _ h = .setAttributes object templ := hedit
    rw [hwrites]
    exact ObjectStore.isSome_getObject_setAttributes hget object templ

/-- Over any sequence of calls of `C_SetAttributeValue`, with any templates, and of other calls that
leave the object in place, what is reported of an object only tightens. -/
theorem onlyTightens_run (be : Backend) (hsm : Hsm) (h k : CkUlong) (o : HsmObject)
    (ho : hsm.getObject h k = some o) (calls : List ApiCall)
    (hcalls : CS.Guarded (api be) (fun hsm c => c.SetsAttributes ∨ Keeps be h k hsm c) hsm calls) :
    OnlyTightens be hsm (CS.run (api be) hsm calls) h k := by
  have hstep : ∀ (now : Hsm) (c : ApiCall),
      (∃ o', now.getObject h k = some o' ∧ o.Evolves o') →
      (c.SetsAttributes ∨ Keeps be h k now c) →
      ∃ o', (now.api be c).2.getObject h k = some o' ∧ o.Evolves o' := by
    rintro now c ⟨o', ho', hevolves⟩ hc
    have hkeep : Keeps be h k now c := by
      rcases hc with hsets | hkeep
      · exact keeps_of_setsAttributes hsets ho'
      · exact hkeep
    obtain ⟨o'', ho'', hnext⟩ := hkeep.evolves ho'
    exact ⟨o'', ho'', hevolves.trans hnext⟩
  obtain ⟨o', ho', hevolves⟩ := hcalls.invariant hstep ⟨o, ho, .refl⟩
  exact onlyTightens_of_evolves ho ho' hevolves

/-- A data object of the first session. -/
def withData : Hsm :=
  (oneSession.api .toy (.onSession {} 1 (.object (.createObject
    [⟨ckaClass, .data (ulongBytes ckoData)⟩, ⟨ckaValue, .data [7]⟩] true)))).2

/-- It is made sensitive, and a later call tries to take that back. -/
def tightening : List ApiCall :=
  [.onSession {} 1 (.object (.setAttributeValue 1 [⟨ckaSensitive, .data [ckTrue]⟩])),
    .onSession {} 1 (.object (.setAttributeValue 1
      [⟨ckaSensitive, .data [ckFalse]⟩, ⟨ckaExtractable, .data [ckFalse]⟩]))]

theorem onlyTightens_tightening :
    OnlyTightens .toy withData (CS.run (api .toy) withData tightening) 1 1 :=
  onlyTightens_run .toy withData 1 1 _ rfl tightening
    ⟨.inl ⟨_, _, _, _, rfl⟩, .inl ⟨_, _, _, _, rfl⟩, trivial⟩

end Hsm

end VirtualHsm
