import VirtualHsm.Pkcs11.Creation

/-!
# Export of non-extractable keys

`C_WrapKey` looks at the `extractable_` field of the key and at nothing else. The field can only
go from true to false, but a creating call sets it from the template only in `C_CreateObject`.
-/

namespace VirtualHsm

/-! ### The flag of a new key -/

/-- The values of the entries for `CKA_EXTRACTABLE` that are one byte long. -/
def extractableFlags (templ : List CkAttribute) : List Bool :=
  templ.filterMap fun a => if a.type = ckaExtractable then a.flag else none

/-- Only entries for `CKA_EXTRACTABLE` change the flag, and the last one decides. -/
theorem foldl_read_extractable (templ : List CkAttribute) (p : ClassAndFlags) :
    (templ.foldl ClassAndFlags.read p).extractable =
      (extractableFlags templ).getLast?.getD p.extractable := by
  induction templ generalizing p with
  | nil => rfl
  | cons a templ ih =>
    rw [List.foldl_cons, ih, extractableFlags, extractableFlags, List.filterMap_cons]
    by_cases ht : a.type = ckaExtractable
    · have hread : (p.read a).extractable = a.flag.getD p.extractable := by
        simp [ClassAndFlags.read, ht, ckaExtractable, ckaClass, ckaToken, ckaPrivate,
          ckaSensitive]
      rw [if_pos ht, hread]
      cases a.flag with
      | none => rfl
      | some b => rw [List.getLast?_cons, Option.getD_some, Option.getD_some]
    · have hread : (p.read a).extractable = p.extractable := by
        unfold ClassAndFlags.read
        split_ifs <;> rfl
      rw [if_neg ht, hread]

theorem parseClassAndFlags_extractable {templ : List CkAttribute} {b : BareObject}
    (hb : parseClassAndFlags templ = some b) :
    b.extractable = false ↔ (extractableFlags templ).getLast? = some false := by
  obtain ⟨c, -, rfl⟩ := Option.map_eq_some_iff.mp hb
  rw [foldl_read_extractable]
  cases (extractableFlags templ).getLast? with
  | none => simp
  | some f => simp

/-- The call creates a key that is not extractable: `C_CreateObject` whose last entry for
`CKA_EXTRACTABLE` is not true, or `C_CopyObject` of such a key. -/
def Creation.Locks (hsm : Hsm) (h : CkUlong) : Creation → Prop
  | createObject templ => (extractableFlags templ).getLast? = some false
  | copyObject object _ => ∃ src, hsm.getObject h object = some src ∧ src.extractable = false
  | _ => False

theorem Creation.Bare.extractable {c : Creation} {hsm : Hsm} {h : CkUlong} {b : BareObject}
    (hb : c.Bare hsm h b) : b.extractable = false ↔ c.Locks hsm h := by
  cases c with
  | createObject templ => exact parseClassAndFlags_extractable hb
  | copyObject object templ =>
    obtain ⟨src, hsrc, rfl⟩ := hb
    constructor
    · intro hflag
      exact ⟨src, hsrc, hflag⟩
    · rintro ⟨src', hsrc', hflag⟩
      obtain rfl : src = src' := Option.mem_unique hsrc hsrc'
      exact hflag
  | generateKey | deriveKey =>
    rw [(hb : b = bareSecretKey)]
    exact iff_of_false (by decide) id
  | generateKeyPair =>
    rw [(hb : b = barePrivateKey)]
    exact iff_of_false (by decide) id
  | unwrapKey =>
    rcases hb with rfl | rfl
    all_goals exact iff_of_false (by decide) id

namespace Hsm

variable {be : Backend} {env : Env} {hsm : Hsm} {h k : CkUlong} {o : HsmObject}

/-! ### A key that is not extractable -/

theorem fails_cWrapKey (ho : hsm.getObject h k = some o) (hlocked : o.extractable = false)
    (seed : Nat) (mech : Option CkMechanism) (wrappingKey : CkUlong) (buf : CkBuf) (pul : Bool) :
    Fails (fun e => e.answer.rv ≠ .ok) (hsm.cWrapKey be seed h mech wrappingKey k buf pul) := by
  obtain ⟨st, hst, hget⟩ := Option.bind_eq_some_iff.mp ho
  unfold cWrapKey checkInitialized checkKeyState
  refine fails_check (by simp) ?_
  refine fails_orRefuse_bind (by simp) fun m _ => ?_
  refine fails_check (by simp) ?_
  refine fails_orRefuse_some hst ?_
  refine fails_orRefuse_bind (by simp) fun wkey _ => ?_
  refine fails_orRefuse_some hget ?_
  refine fails_refuseIf_bind (fun herror => herror) fun _ => ?_
  exact fails_refuseIf_bind (fun _ => by simp) fun hopen => absurd hlocked hopen

/-- The call leaves the session open and the object alive. -/
def Keeps (be : Backend) (h k : CkUlong) (hsm : Hsm) (c : ApiCall) : Prop :=
  ¬ hsm.Closes h c ∧ ((hsm.api be c).2.getObject h k).isSome = true

/-- What a kept object has become is what the edit of its store made of it. -/
theorem Keeps.exists_edit {c : ApiCall} (hkeep : Keeps be h k hsm c)
    (ho : hsm.getObject h k = some o) :
    ∃ (st : ObjectStore) (o' : HsmObject), st.getObject k = some o ∧
      (st.edit (hsm.apiEdit be c h)).getObject k = some o' ∧
        (hsm.api be c).2.getObject h k = some o' := by
  obtain ⟨st, hst, hget⟩ := Option.bind_eq_some_iff.mp ho
  obtain ⟨o', ho'⟩ := Option.isSome_iff_exists.mp hkeep.2
  have hedit : (st.edit (hsm.apiEdit be c h)).getObject k = some o' := by
    rwa [getObject, store_api hkeep.1 hst, Option.bind_some] at ho'
  exact ⟨st, o', hget, hedit, ho'⟩

theorem Keeps.evolves {c : ApiCall} (hkeep : Keeps be h k hsm c) (ho : hsm.getObject h k = some o) :
    ∃ o', (hsm.api be c).2.getObject h k = some o' ∧ o.Evolves o' := by
  obtain ⟨st, o', hget, hget', ho'⟩ := hkeep.exists_edit ho
  exact ⟨o', ho', ObjectStore.evolves_of_edit hget hget'⟩

/-- However long the key lives, and whatever is called in between, wrapping it does not return
`CKR_OK`. -/
def NeverExported (be : Backend) (hsm : Hsm) (h k : CkUlong) : Prop :=
  ∀ calls, CS.Guarded (api be) (Keeps be h k) hsm calls →
    ∀ (env : Env) (mech : Option CkMechanism) (wrappingKey : CkUlong) (buf : CkBuf) (pul : Bool),
      ((CS.run (api be) hsm calls).api be
        (.onSession env h (.key (.wrapKey mech wrappingKey k buf pul)))).1.rv ≠ .ok

/-- The object is there and not extractable. -/
def Locked (h k : CkUlong) (hsm : Hsm) : Prop :=
  ∃ o, hsm.getObject h k = some o ∧ o.extractable = false

theorem Locked.api {c : ApiCall} (hlocked : hsm.Locked h k) (hkeep : Keeps be h k hsm c) :
    (hsm.api be c).2.Locked h k := by
  obtain ⟨o, ho, hflag⟩ := hlocked
  obtain ⟨o', ho', hevolves⟩ := hkeep.evolves ho
  exact ⟨o', ho', hevolves.extractable hflag⟩

theorem Locked.neverExported (hlocked : hsm.Locked h k) : NeverExported be hsm h k := by
  intro calls hguard env mech wrappingKey buf pul
  have hstep : ∀ hsm c, Locked h k hsm → Keeps be h k hsm c → (hsm.api be c).2.Locked h k :=
    fun _ _ hl hk => hl.api hk
  obtain ⟨o, ho, hflag⟩ := hguard.invariant hstep hlocked
  exact finish_rv_ne (fails_cWrapKey ho hflag env.seed mech wrappingKey buf pul) h

/-! ### A key that is extractable -/

/-- Writes that make a key usable as the wrapping key of itself. -/
def selfWrapTempl : List CkAttribute :=
  [⟨ckaValue, .data (List.replicate 32 0)⟩, ⟨ckaVhsmKeyState, .data [0]⟩]

/-- The key after these writes. -/
def selfWrapKey (o : HsmObject) : HsmObject :=
  (o.setAttribute ckaValue (List.replicate 32 0)).setAttribute ckaVhsmKeyState [0]

theorem setAttributes_selfWrapTempl : o.setAttributes selfWrapTempl = (.ok, selfWrapKey o) := by
  have hwrite (o : HsmObject) (t : CkUlong) (v : Bytes)
      (ht : t = ckaValue ∨ t = ckaVhsmKeyState) :
      o.setAttributeChecked ⟨t, .data v⟩ = (.ok, o.setAttribute t v) := by
    rcases ht with rfl | rfl <;> rfl
  simp only [selfWrapTempl, HsmObject.setAttributes, List.foldl_cons, List.foldl_nil, hwrite,
    true_or, or_true, if_true]
  rfl

theorem rawKeyBytes_selfWrapKey : rawKeyBytes (selfWrapKey o) = some (List.replicate 32 0) := by
  have hvalue : (selfWrapKey o).nonEmpty ckaValue = some (List.replicate 32 0) := by
    rw [HsmObject.nonEmpty, selfWrapKey, HsmObject.findAttribute_setAttribute_of_ne _ _ _ (by decide),
      HsmObject.findAttribute_setAttribute_self]
    rfl
  rw [rawKeyBytes, rawKeyTypes, List.findSome?_cons, hvalue]

theorem wrappingKek_selfWrapKey : (selfWrapKey o).wrappingKek = some (List.replicate 32 0) := by
  rw [HsmObject.wrappingKek, selfWrapKey,
    HsmObject.findAttribute_setAttribute_of_ne _ _ _ (by decide),
    HsmObject.findAttribute_setAttribute_self]
  rfl

theorem getKeyState_selfWrapKey : (selfWrapKey o).getKeyState = .active := by
  rw [HsmObject.getKeyState, selfWrapKey, HsmObject.findAttribute_setAttribute_self]
  rfl

/-- Such a key wraps itself into a buffer of the right length. -/
theorem exists_wrap_selfWrapKey (hinit : hsm.initialized = true)
    (ho : hsm.getObject h k = some (selfWrapKey o)) (hopen : o.extractable = true) :
    ∃ buf, (hsm.api be (.onSession {} h
      (.key (.wrapKey (some ⟨ckmAesKeyWrap, .absent⟩) k k buf true)))).1.rv = .ok := by
  obtain ⟨st, hst, hget⟩ := Option.bind_eq_some_iff.mp ho
  obtain ⟨out, hout⟩ : ∃ out, KeyWrap.wrap be (List.replicate 32 0) (List.replicate 32 0) = some out :=
    ⟨_, if_pos (by decide)⟩
  have hbytes : wrapBytes be 0 ckmAesKeyWrap (selfWrapKey o) (List.replicate 32 0) = .ok out := by
    rw [wrapBytes, if_pos rfl, wrappingKek_selfWrapKey]
    simp only [hout, orRefuse]
  have hstate : keyStateError (selfWrapKey o).getKeyState false = .ok := by
    rw [getKeyState_selfWrapKey]
    rfl
  have hflag : (selfWrapKey o).extractable = true := hopen
  refine ⟨.data (List.replicate out.length 0), ?_⟩
  change (hsm.finish h (hsm.cWrapKey be 0 h _ k k _ true)).1.rv = .ok
  simp only [cWrapKey, checkInitialized, checkKeyState, refuseIf, orRefuse, hinit, hst, hget, hstate,
    hflag, rawKeyBytes_selfWrapKey, hbytes, bind, Except.bind, pure, Except.pure, Bool.true_eq_false,
    ne_eq, not_true_eq_false, if_false]
  rw [finish_answer]
  simp [finishOutput]

/-- `C_SetAttributeValue` writes to the object. -/
theorem getObject_setAttributeValue (hinit : hsm.initialized = true)
    (ho : hsm.getObject h k = some o) (templ : List CkAttribute) :
    (hsm.api be (.onSession env h (.object (.setAttributeValue k templ)))).2.getObject h k =
      some (o.setAttributes templ).2 := by
  obtain ⟨st, hst, hget⟩ := Option.bind_eq_some_iff.mp ho
  have heffect : hsm.cSetAttributeValue h k templ = .ok
      { answer := { rv := (o.setAttributes templ).1 }, edit := .setAttributes k templ } := by
    simp only [cSetAttributeValue, checkInitialized, refuseIf, hinit, ho, orRefuse, bind,
      Except.bind, pure, Except.pure, Bool.true_eq_false, if_false]
  change (hsm.finish h (hsm.cSetAttributeValue h k templ)).2.getObject h k = _
  rw [heffect, getObject_finish hst]
  have hwritten : (st.setObject k (o.setAttributes templ).2).getObject k =
      some (o.setAttributes templ).2 := by
    rw [ObjectStore.getObject_setObject hget, if_pos rfl]
  simp only [ObjectStore.edit, ObjectStore.setAttributes, hget]
  -- Reindexing leaves the slots alone.
  split_ifs
  · rw [ObjectStore.getObject_eq_some_iff, ObjectStore.slot_reindex,
      ← ObjectStore.getObject_eq_some_iff, hwritten]
  · exact hwritten

theorem not_neverExported (hinit : hsm.initialized = true) (ho : hsm.getObject h k = some o)
    (hopen : o.extractable = true) : ¬ NeverExported be hsm h k := by
  intro hnever
  let write : ApiCall := .onSession {} h (.object (.setAttributeValue k selfWrapTempl))
  have hwritten : (hsm.api be write).2.getObject h k = some (selfWrapKey o) := by
    rw [getObject_setAttributeValue hinit ho, setAttributes_selfWrapTempl]
  have hinit' : (hsm.api be write).2.initialized = true := (initialized_finish _ _).trans hinit
  have hkeep : Keeps be h k hsm write := ⟨id, by rw [hwritten]; rfl⟩
  obtain ⟨buf, hbuf⟩ := @exists_wrap_selfWrapKey be _ h k o hinit' hwritten hopen
  exact hnever [write] ⟨hkeep, trivial⟩ {} _ k buf true hbuf

/-! ### New keys -/

/-- The key that a creating call hands back is never exported, however long it lives and whatever
is called, exactly when the call made its flag false. -/
theorem neverExported_iff {c : Creation}
    (hk : (hsm.api be (.onSession env h c.call)).1.handles.getLast? = some k) :
    NeverExported be (hsm.api be (.onSession env h c.call)).2 h k ↔ c.Locks hsm h := by
  obtain ⟨b, hget, hbare⟩ := getObject_of_creation hk
  obtain ⟨e, he, -⟩ := exists_effect hk
  have hinit : (hsm.api be (.onSession env h c.call)).2.initialized = true :=
    (initialized_finish _ _).trans (initialized_of_creation he)
  have hflag : b.built.extractable = b.bare.extractable := b.sameFields.extractable
  rw [← hbare.extractable, ← hflag]
  constructor
  · intro hnever
    by_contra hopen
    exact not_neverExported hinit hget (Bool.eq_true_of_not_eq_false hopen) hnever
  · intro hlocked
    exact Locked.neverExported ⟨b.built, hget, hlocked⟩

/-- A key made by `C_CreateObject` with the flag false is never exported. -/
theorem neverExported_created :
    NeverExported .toy (oneSession.api .toy (.onSession {} 1 (Creation.createObject
      [⟨ckaClass, .data (ulongBytes ckoSecretKey)⟩, ⟨ckaExtractable, .data [ckFalse]⟩]).call)).2
      1 1 :=
  (neverExported_iff rfl).mpr rfl

/-- A key made by `C_GenerateKey` with the flag false is exported. -/
theorem not_neverExported_generated :
    ¬ NeverExported .toy (oneSession.api .toy (.onSession {} 1 (Creation.generateKey
      (some ⟨ckmAesKeyGen, .absent⟩) [⟨ckaExtractable, .data [ckFalse]⟩]).call)).2 1 1 := by
  intro hnever
  refine hnever [] trivial {} (some ⟨ckmAesKeyWrap, .absent⟩) 1 (.data (List.replicate 40 0)) true ?_
  decide +kernel

end Hsm

end VirtualHsm
