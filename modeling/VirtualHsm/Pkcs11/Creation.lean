import VirtualHsm.Pkcs11.Api

/-!
# Calls that create keys

Six calls create a key and hand back its handle. Where the flags of the new object come from
differs: `C_CreateObject` reads them from the template, `C_CopyObject` takes them from the source,
and the other four have them fixed.
-/

namespace VirtualHsm

inductive Creation
  | createObject (templ : List CkAttribute)
  | copyObject (object : CkUlong) (templ : List CkAttribute)
  | generateKey (mech : Option CkMechanism) (templ : List CkAttribute)
  | generateKeyPair (mech : Option CkMechanism) (pubTempl privTempl : List CkAttribute)
  | unwrapKey (mech : Option CkMechanism) (unwrappingKey : CkUlong) (wrapped : CkBuf)
      (templ : List CkAttribute)
  | deriveKey (mech : Option CkMechanism) (baseKey : CkUlong) (templ : List CkAttribute)

namespace Creation

/-- The call, with pointers for all handles. -/
def call : Creation → SessionCall
  | createObject templ => .object (.createObject templ true)
  | copyObject object templ => .object (.copyObject object templ true)
  | generateKey mech templ => .key (.generateKey mech templ true)
  | generateKeyPair mech pubTempl privTempl =>
    .key (.generateKeyPair mech pubTempl privTempl true true)
  | unwrapKey mech unwrappingKey wrapped templ =>
    .key (.unwrapKey mech unwrappingKey wrapped templ true)
  | deriveKey mech baseKey templ => .key (.deriveKey mech baseKey templ true)

/-- The template of the key; of a pair, that of the private key. -/
def templ : Creation → List CkAttribute
  | createObject templ => templ
  | copyObject _ templ => templ
  | generateKey _ templ => templ
  | generateKeyPair _ _ privTempl => privTempl
  | unwrapKey _ _ _ templ => templ
  | deriveKey _ _ templ => templ

end Creation

/-- The template of one key. -/
structure KeyTemplate where
  isPublic : Bool
  templ : List CkAttribute

namespace Creation

/-- The templates of the new keys, in the order of the handles. -/
def templates : Creation → List KeyTemplate
  | generateKeyPair _ pubTempl privTempl => [⟨true, pubTempl⟩, ⟨false, privTempl⟩]
  | c => [⟨false, c.templ⟩]

/-- The call generates a key. -/
def Generates : Creation → Prop
  | generateKey _ _ => True
  | generateKeyPair _ _ _ => True
  | _ => False

/-- Class and flags of the new key; of a pair, those of the private key. -/
def Bare (hsm : Hsm) (h : CkUlong) : Creation → BareObject → Prop
  | createObject templ, b => parseClassAndFlags templ = some b
  | copyObject object _, b => ∃ src, hsm.getObject h object = some src ∧ b = src.bareCopy
  | generateKey _ _, b => b = bareSecretKey
  | generateKeyPair _ _ _, b => b = barePrivateKey
  | unwrapKey _ _ _ _, b => b = bareSecretKey ∨ b = barePrivateKey
  | deriveKey _ _ _, b => b = bareSecretKey

/-- The object that the call builds; of a pair, the private key. -/
def Builds (be : Backend) (hsm : Hsm) (h : CkUlong) : Creation → Built → Prop
  | createObject templ, b =>
    ∃ bare, parseClassAndFlags templ = some bare ∧ b = .ofTemplate bare templ
  | copyObject object templ, b => ∃ src, hsm.getObject h object = some src ∧ b = .copyOf src templ
  | generateKey _ templ, b => ∃ raw, b = .secret templ raw
  | generateKeyPair _ pubTempl privTempl, b =>
    ∃ key isRsa, b = .privateKey be (.publicKey be pubTempl key isRsa) privTempl key isRsa
  | unwrapKey _ _ _ templ, b => ∃ raw, createFromRaw be raw templ = .ok b
  | deriveKey _ _ templ, b => ∃ raw, b = .secret templ raw

theorem Generates.sensitive {c : Creation} {hsm : Hsm} {h : CkUlong} {b : BareObject}
    (hc : c.Generates) (hb : c.Bare hsm h b) : b.sensitive = true := by
  cases c with
  | generateKey => rw [(hb : b = bareSecretKey)]; rfl
  | generateKeyPair => rw [(hb : b = barePrivateKey)]; rfl
  | createObject | copyObject | unwrapKey | deriveKey => exact hc.elim

end Creation

theorem createFromRaw_bare {be : Backend} {raw : Bytes} {templ : List CkAttribute} {b : Built}
    (h : createFromRaw be raw templ = .ok b) :
    b.bare = bareSecretKey ∨ b.bare = barePrivateKey := by
  simp only [createFromRaw] at h
  split at h
  · cases h
    exact .inr rfl
  · split_ifs at h
    cases h
    exact .inl rfl

theorem Creation.Builds.bare {be : Backend} {hsm : Hsm} {h : CkUlong} {c : Creation} {b : Built}
    (hb : c.Builds be hsm h b) : c.Bare hsm h b.bare := by
  cases c with
  | createObject templ =>
    obtain ⟨bare, hbare, rfl⟩ := hb
    exact hbare
  | copyObject object templ =>
    obtain ⟨src, hsrc, rfl⟩ := hb
    exact ⟨src, hsrc, rfl⟩
  | generateKey mech templ | deriveKey mech baseKey templ =>
    obtain ⟨raw, rfl⟩ := hb
    rfl
  | generateKeyPair mech pubTempl privTempl =>
    obtain ⟨key, isRsa, rfl⟩ := hb
    rfl
  | unwrapKey mech unwrappingKey wrapped templ =>
    obtain ⟨raw, hraw⟩ := hb
    exact createFromRaw_bare hraw

namespace Hsm

variable {be : Backend} {env : Env} {hsm : Hsm} {h k : CkUlong} {c : Creation}

theorem exists_effect {r : Except CkRv Effect} (hk : (hsm.finish h r).1.handles.getLast? = some k) :
    ∃ e, r = .ok e ∧ e.answer.handles.getLast? = some k := by
  cases r with
  | error rv => cases hk
  | ok e =>
    rw [finish_answer] at hk
    exact ⟨e, rfl, hk⟩

variable {e : Effect}

theorem getObject_finish {st : ObjectStore} (hst : hsm.store h = some st) :
    (hsm.finish h (.ok e)).2.getObject h k = (st.edit e.edit).getObject k := by
  simp only [getObject, store_finish, if_true, hst, Option.map_some, Option.bind_some]

/-- The object of a call that builds one. -/
theorem getObject_finish_created {st : ObjectStore} {b : Built} (hst : hsm.store h = some st)
    (hedit : e.edit = .build b) (hanswer : e.answer = (Effect.created st b).answer)
    (hk : e.answer.handles.getLast? = some k) :
    (hsm.finish h (.ok e)).2.getObject h k = some b.built := by
  simp only [hanswer, Effect.created] at hk
  split_ifs at hk with hrv
  · cases hk
    rw [getObject_finish hst, hedit, ObjectStore.edit, ObjectStore.build, if_pos hrv]
    exact ObjectStore.getObject_fill
  · cases hk

/-- The private key of a call that builds a pair. -/
theorem getObject_finish_pair {st : ObjectStore} {pub priv : Built}
    (hst : hsm.store h = some st) (hedit : e.edit = .buildPair pub priv ckInvalidHandle)
    (hhandles : e.answer.handles =
      if priv.rv = .ok then [st.newHandle, (st.fill pub).newHandle] else [])
    (hk : e.answer.handles.getLast? = some k) :
    (hsm.finish h (.ok e)).2.getObject h k = some priv.built := by
  rw [hhandles] at hk
  split_ifs at hk with hrv
  · cases hk
    simp only [getObject_finish hst, hedit, ObjectStore.edit, ObjectStore.buildPair, hrv, if_true,
      ne_eq, not_true_eq_false, if_false]
    exact ObjectStore.getObject_fill
  · cases hk

theorem initialized_of_creation (he : hsm.sessionCall be env h c.call = .ok e) :
    hsm.initialized = true := by
  have hcheck : ¬ hsm.initialized = false := by
    cases c <;> exact (refuseIf_bind_eq_ok.mp he).1
  exact Bool.eq_true_of_not_eq_false hcheck

/-- A creating call files one object that it has built, or a pair of keys. -/
theorem effect_of_creation (he : hsm.sessionCall be env h c.call = .ok e) :
    ∃ st, hsm.store h = some st ∧
      ((∃ b, c.templates = [⟨false, c.templ⟩] ∧ c.Builds be hsm h b ∧ e.edit = .build b ∧
          e.answer = (Effect.created st b).answer) ∨
        ∃ pub priv m pubTempl privTempl key isRsa,
          c = .generateKeyPair (some m) pubTempl privTempl ∧
          generatePair be env.seed m pubTempl privTempl = .ok (key, isRsa) ∧
          pub = .publicKey be pubTempl key isRsa ∧ priv = .privateKey be pub privTempl key isRsa ∧
          e.edit = .buildPair pub priv ckInvalidHandle ∧ e.answer.rv = priv.rv ∧
          e.answer.handles =
            if priv.rv = .ok then [st.newHandle, (st.fill pub).newHandle] else []) := by
  cases c <;> simp only [Creation.call, sessionCall, objectCall, keyCall, cCreateObject, cCopyObject,
    cGenerateKey, cGenerateKeyPair, generateAndStoreKeypair, cUnwrapKey, cDeriveKey,
    checkInitialized, checkKeyState, refuseIf_bind_eq_ok, orRefuse_bind_eq_ok] at he
  case createObject templ =>
    obtain ⟨-, -, st, hst, bare, hbare, he⟩ := he
    cases he
    exact ⟨st, hst, .inl ⟨_, rfl, ⟨bare, hbare, rfl⟩, rfl, rfl⟩⟩
  case copyObject object templ =>
    obtain ⟨-, -, st, hst, src, hsrc, -, he⟩ := he
    cases he
    refine ⟨st, hst, .inl ⟨_, rfl, ⟨src, ?_, rfl⟩, rfl, rfl⟩⟩
    rw [getObject, hst, Option.bind_some, hsrc]
  case generateKey mech templ =>
    obtain ⟨-, m, -, -, -, st, hst, -, raw, -, he⟩ := he
    cases he
    exact ⟨st, hst, .inl ⟨_, rfl, ⟨raw, rfl⟩, rfl, rfl⟩⟩
  case generateKeyPair mech pubTempl privTempl =>
    obtain ⟨-, m, rfl, -, st, hst, he⟩ := he
    obtain ⟨⟨key, isRsa⟩, hgen, he⟩ := bind_eq_ok.mp he
    cases he
    exact ⟨st, hst, .inr ⟨_, _, m, pubTempl, privTempl, key, isRsa, rfl, hgen, rfl, rfl, rfl, rfl,
      rfl⟩⟩
  case unwrapKey mech unwrappingKey wrapped templ =>
    obtain ⟨-, m, -, -, st, hst, ukey, -, -, he⟩ := he
    obtain ⟨raw, -, he⟩ := bind_eq_ok.mp he
    obtain ⟨b, hb, he⟩ := bind_eq_ok.mp he
    cases he
    exact ⟨st, hst, .inl ⟨b, rfl, ⟨raw, hb⟩, rfl, rfl⟩⟩
  case deriveKey mech baseKey templ =>
    obtain ⟨-, m, -, -, -, st, hst, bkey, -, priv, -, peer, -, -, he⟩ := he
    cases he
    exact ⟨st, hst, .inl ⟨_, rfl, ⟨_, rfl⟩, rfl, rfl⟩⟩

theorem getObject_of_creation
    (hk : (hsm.api be (.onSession env h c.call)).1.handles.getLast? = some k) :
    ∃ b : Built, (hsm.api be (.onSession env h c.call)).2.getObject h k = some b.built ∧
      c.Bare hsm h b.bare := by
  obtain ⟨e, he, hlast⟩ := exists_effect hk
  simp only [api, he]
  obtain ⟨st, hst, hone | hpair⟩ := effect_of_creation he
  · obtain ⟨b, -, hbuilds, hedit, hanswer⟩ := hone
    exact ⟨b, getObject_finish_created hst hedit hanswer hlast, hbuilds.bare⟩
  · obtain ⟨pub, priv, m, pubTempl, privTempl, key, isRsa, rfl, -, -, rfl, hedit, -, hhandles⟩ :=
      hpair
    exact ⟨_, getObject_finish_pair hst hedit hhandles hlast, rfl⟩

/-- Either the copy is made, or no handle is returned and the source is as it was or gone. -/
theorem api_copyObject_cases (templ : List CkAttribute) :
    (∃ src k', hsm.getObject h k = some src ∧ (Built.copyOf src templ).rv = .ok ∧
      (hsm.api be (.onSession env h (.object (.copyObject k templ true)))).1.handles = [k'] ∧
      (hsm.api be (.onSession env h (.object (.copyObject k templ true)))).2.getObject h k' =
        some (Built.copyOf src templ).built) ∨
    (hsm.api be (.onSession env h (.object (.copyObject k templ true)))).1.handles = [] ∧
      ∀ o', (hsm.api be (.onSession env h (.object (.copyObject k templ true)))).2.getObject h k =
        some o' → hsm.getObject h k = some o' := by
  cases he : hsm.sessionCall be env h (Creation.copyObject k templ).call with
  | error rv =>
    have hrefused : hsm.api be (.onSession env h (.object (.copyObject k templ true))) =
        ({ rv }, hsm) := congrArg (hsm.finish h) he
    rw [hrefused]
    exact .inr ⟨rfl, fun o' ho' => ho'⟩
  | ok e =>
    have hdone : hsm.api be (.onSession env h (.object (.copyObject k templ true))) =
        hsm.finish h (.ok e) := congrArg (hsm.finish h) he
    rw [hdone, finish_answer]
    obtain ⟨st, hst, ⟨b, -, ⟨src, hsrc, rfl⟩, hedit, hanswer⟩ | hpair⟩ := effect_of_creation he
    · by_cases hrv : (Built.copyOf src templ).rv = .ok
      · have hhandles : e.answer.handles = [st.newHandle] := by
          rw [hanswer, Effect.created, if_pos hrv]
        refine .inl ⟨src, st.newHandle, hsrc, hrv, hhandles, ?_⟩
        exact getObject_finish_created hst hedit hanswer (by rw [hhandles]; rfl)
      · refine .inr ⟨by rw [hanswer, Effect.created, if_neg hrv], fun o' ho' => ?_⟩
        have hlives : st.getObject k = some src := by
          rwa [getObject, hst, Option.bind_some] at hsrc
        rw [getObject_finish hst, hedit] at ho'
        rcases ObjectStore.getObject_edit_cases hlives ho' with
          rfl | ⟨-, ⟨pub, priv, hpair⟩, -⟩ | ⟨templ', hwrite, -⟩
        · exact hsrc
        · cases hpair
        · cases hwrite
    · obtain ⟨pub, priv, m, pubTempl, privTempl, key, isRsa, hc, -⟩ := hpair
      cases hc

end Hsm

end VirtualHsm
