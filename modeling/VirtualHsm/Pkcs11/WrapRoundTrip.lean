import VirtualHsm.Pkcs11.Creation

/-!
# Wrapping a key and unwrapping it again

`C_WrapKey` takes the bytes of whatever object it is given, and `C_UnwrapKey` guesses from the bytes
alone what they were: an RSA private key, else an elliptic-curve private key, else a secret key of
an AES length. AES key wrap itself loses nothing, so a key comes back exactly when that guess is
right and a private key is stored in the encoding it came in.
-/

namespace VirtualHsm

/-! ### The guess -/

section Guess

variable (be : Backend)

/-- The private key that bytes encode; RSA is tried first. -/
def parsePrivate (raw : Bytes) : Option be.Pkey :=
  (be.rsaImportPrivateDer raw).or (be.ecImportPrivateDer raw)

/-- The bytes that storing a private key writes. -/
def exportPrivate (k : be.Pkey) : Option Bytes :=
  match be.base k with
  | .rsa => be.i2dRsaPrivateKey k
  | .ec => be.i2dEcPrivateKey k
  | .other => none

/-- Bytes parse as a private key exactly when they are its encoding. -/
structure Backend.ParsesExports : Prop where
  rsa : ∀ raw k, be.rsaImportPrivateDer raw = some k ↔
    be.base k = .rsa ∧ be.i2dRsaPrivateKey k = some raw
  ec : ∀ raw k, be.ecImportPrivateDer raw = some k ↔
    be.base k = .ec ∧ be.i2dEcPrivateKey k = some raw

/-- The bytes of the key are taken for a key of its class, and stored as they were. -/
def HsmObject.Restorable (o : HsmObject) : Prop :=
  ∃ raw, rawKeyBytes o = some raw ∧
    (o.type = .secretKey ∧ parsePrivate be raw = none ∧
        (raw.length = 16 ∨ raw.length = 24 ∨ raw.length = 32) ∨
      o.type = .privateKey ∧ ∃ k, parsePrivate be raw = some k ∧ exportPrivate be k = some raw)

variable {be} {raw : Bytes} {k : be.Pkey}

theorem HsmObject.restorable_of {o : HsmObject} (hraw : rawKeyBytes o = some raw) :
    o.Restorable be ↔
      o.type = .secretKey ∧ parsePrivate be raw = none ∧
          (raw.length = 16 ∨ raw.length = 24 ∨ raw.length = 32) ∨
        o.type = .privateKey ∧
          ∃ k, parsePrivate be raw = some k ∧ exportPrivate be k = some raw := by
  constructor
  · rintro ⟨raw', hraw', hcases⟩
    obtain rfl := Option.mem_unique hraw hraw'
    exact hcases
  · exact fun hcases => ⟨raw, hraw, hcases⟩

theorem Backend.ParsesExports.exportPrivate_of_parse (hder : be.ParsesExports)
    (hk : parsePrivate be raw = some k) : exportPrivate be k = some raw := by
  rcases Option.or_eq_some_iff.mp hk with hrsa | ⟨-, hec⟩
  · obtain ⟨hbase, hexport⟩ := (hder.rsa raw k).mp hrsa
    rw [exportPrivate, hbase]
    exact hexport
  · obtain ⟨hbase, hexport⟩ := (hder.ec raw k).mp hec
    rw [exportPrivate, hbase]
    exact hexport

theorem Backend.ParsesExports.isSome_parse_iff (hder : be.ParsesExports) :
    (parsePrivate be raw).isSome ↔ ∃ k, exportPrivate be k = some raw := by
  constructor
  · intro hsome
    obtain ⟨k, hk⟩ := Option.isSome_iff_exists.mp hsome
    exact ⟨k, hder.exportPrivate_of_parse hk⟩
  · rintro ⟨k, hk⟩
    rw [parsePrivate, Option.isSome_or]
    unfold exportPrivate at hk
    split at hk
    · next hbase => simp [(hder.rsa raw k).mpr ⟨hbase, hk⟩]
    · next hbase => simp [(hder.ec raw k).mpr ⟨hbase, hk⟩]
    · cases hk

/-- When keys parse exactly from their encodings, the keys that come back are the secret keys of an
AES length whose bytes encode no private key, and the private keys whose bytes encode one. -/
theorem restorable_iff (hder : be.ParsesExports) {o : HsmObject} (hraw : rawKeyBytes o = some raw) :
    o.Restorable be ↔
      o.type = .secretKey ∧ (∀ k, exportPrivate be k ≠ some raw) ∧
          (raw.length = 16 ∨ raw.length = 24 ∨ raw.length = 32) ∨
        o.type = .privateKey ∧ ∃ k, exportPrivate be k = some raw := by
  have hnone : parsePrivate be raw = none ↔ ∀ k, exportPrivate be k ≠ some raw := by
    rw [← Option.not_isSome_iff_eq_none, hder.isSome_parse_iff, not_exists]
  have hsome : (∃ k, parsePrivate be raw = some k ∧ exportPrivate be k = some raw) ↔
      ∃ k, exportPrivate be k = some raw := by
    rw [← hder.isSome_parse_iff, Option.isSome_iff_exists]
    exact exists_congr fun k => and_iff_left_of_imp hder.exportPrivate_of_parse
  rw [HsmObject.restorable_of hraw, hnone, hsome]

end Guess

/-! ### The object that unwrapping makes -/

section Unwrapped

variable {be : Backend} {raw : Bytes} {k : be.Pkey} {o : HsmObject} {t : CkUlong} {v : Bytes}

theorem rawKeyBytes_setAttribute (ht : t ∉ rawKeyTypes) :
    rawKeyBytes (o.setAttribute t v) = rawKeyBytes o := by
  have hkey : ∀ t' ∈ rawKeyTypes, (o.setAttribute t v).nonEmpty t' = o.nonEmpty t' := by
    intro t' ht'
    have hne : t' ≠ t := fun h => ht (h ▸ ht')
    rw [HsmObject.nonEmpty, HsmObject.findAttribute_setAttribute_of_ne _ _ _ hne]
    rfl
  unfold rawKeyBytes
  -- Only the agreement on the listed attributes matters, not which they are.
  generalize rawKeyTypes = types at hkey
  induction types with
  | nil => rfl
  | cons x types ih =>
    rw [List.findSome?_cons, List.findSome?_cons, hkey x List.mem_cons_self,
      ih fun t' ht' => hkey t' (List.mem_cons_of_mem x ht')]

theorem rawKeyBytes_only (b : BareObject) (ht : t ∈ rawKeyTypes) :
    rawKeyBytes (b.object.setAttribute t v) = (some v).filter (· ≠ []) := by
  have hself : (b.object.setAttribute t v).nonEmpty t = (some v).filter (· ≠ []) := by
    rw [HsmObject.nonEmpty, HsmObject.findAttribute_setAttribute_self]
  have hother : ∀ t', t' ≠ t → (b.object.setAttribute t v).nonEmpty t' = none := by
    intro t' hne
    rw [HsmObject.nonEmpty, HsmObject.findAttribute_setAttribute_of_ne _ _ _ hne]
    rfl
  unfold rawKeyBytes
  generalize rawKeyTypes = types at ht
  cases hv : (some v).filter (· ≠ []) with
  | none =>
    -- An empty value counts as absent.
    refine List.findSome?_eq_none_iff.mpr fun t' _ => ?_
    by_cases hne : t' = t
    · rw [hne, hself, hv]
    · exact hother t' hne
  | some v' =>
    rw [hv] at hself
    induction types with
    | nil => cases ht
    | cons x types ih =>
      rw [List.findSome?_cons]
      by_cases hx : x = t
      · rw [hx, hself]
      · rw [hother x hx]
        exact ih (List.mem_of_ne_of_mem (Ne.symm hx) ht)

theorem rawKeyBytes_storePart (ht : t ∉ rawKeyTypes) (part : Option Bytes) :
    rawKeyBytes (storePart o t part).2 = rawKeyBytes o := by
  cases part with
  | none => rfl
  | some bs => exact rawKeyBytes_setAttribute ht

theorem rawKeyBytes_thenStore {r : CkRv × HsmObject} {f : HsmObject → CkRv × HsmObject}
    (hf : ∀ o, rawKeyBytes (f o).2 = rawKeyBytes o) :
    rawKeyBytes (thenStore r f).2 = rawKeyBytes r.2 := by
  unfold thenStore
  split_ifs
  · exact hf r.2
  · rfl

theorem rawKeyBytes_thenStorePart {r : CkRv × HsmObject} (ht : t ∉ rawKeyTypes)
    (part : Option Bytes) :
    rawKeyBytes (thenStore r fun o => storePart o t part).2 = rawKeyBytes r.2 :=
  rawKeyBytes_thenStore fun _ => rawKeyBytes_storePart ht part

theorem rawKeyBytes_thenSetKeyType {r : CkRv × HsmObject} (isPrivate : Bool) (kt : CkUlong) :
    rawKeyBytes (thenStore r fun o =>
        (.ok, (setKeyClass o isPrivate).setAttribute ckaKeyType (ulongBytes kt))).2 =
      rawKeyBytes r.2 := by
  refine rawKeyBytes_thenStore fun o => ?_
  rw [rawKeyBytes_setAttribute (by decide), setKeyClass, rawKeyBytes_setAttribute (by decide)]

theorem rawKeyBytes_storePart_only (b : BareObject) (ht : t ∈ rawKeyTypes) (part : Option Bytes) :
    rawKeyBytes (storePart b.object t part).2 = part.filter (· ≠ []) := by
  cases part with
  | none => rfl
  | some bs => exact rawKeyBytes_only b ht

/-- The bytes of an unwrapped private key are those that storing it wrote; whether the rest of the
key could be stored makes no difference. -/
theorem rawKeyBytes_unwrapped :
    rawKeyBytes (Built.unwrapped be [] k).built = (exportPrivate be k).filter (· ≠ []) := by
  change rawKeyBytes (storeKeyEvp be barePrivateKey.object k true).2 = _
  unfold storeKeyEvp exportPrivate
  cases be.base k with
  | rsa =>
    rw [rawKeyBytes_thenSetKeyType, if_pos rfl,
      rawKeyBytes_storePart_only barePrivateKey (by decide)]
  | ec =>
    rw [rawKeyBytes_thenSetKeyType, rawKeyBytes_thenStorePart (by decide),
      rawKeyBytes_thenStorePart (by decide), if_pos rfl,
      rawKeyBytes_storePart_only barePrivateKey (by decide)]
  | other => rfl

theorem rawKeyBytes_secret (hraw : raw ≠ []) :
    rawKeyBytes (Built.secret [] raw).built = some raw := by
  refine (rawKeyBytes_only bareSecretKey (by decide)).trans ?_
  rw [Option.filter_some, if_pos (decide_eq_true hraw)]

/-- The two probes of `create_from_raw`. -/
theorem buildKeyFromAttrs_probe (hraw : raw ≠ []) :
    (buildKeyFromAttrs be (barePrivateKey.object.setAttribute ckaVhsmRsaPriv raw)).or
        (buildKeyFromAttrs be (barePrivateKey.object.setAttribute ckaVhsmEcPriv raw)) =
      parsePrivate be raw := by
  have hself (t : CkUlong) : (barePrivateKey.object.setAttribute t raw).nonEmpty t = some raw := by
    rw [HsmObject.nonEmpty, HsmObject.findAttribute_setAttribute_self, Option.filter_some,
      if_pos (decide_eq_true hraw)]
  have hother : (barePrivateKey.object.setAttribute ckaVhsmEcPriv raw).nonEmpty ckaVhsmRsaPriv =
      none := by
    rw [HsmObject.nonEmpty, HsmObject.findAttribute_setAttribute_of_ne _ _ _ (by decide)]
    rfl
  simp only [buildKeyFromAttrs, hself, hother]
  rfl

/-- Bytes become an object of the class and with the bytes of the key exactly when the key is
restorable. -/
theorem restorable_iff_createFromRaw (hraw : rawKeyBytes o = some raw) (hne : raw ≠ []) :
    o.Restorable be ↔ ∃ b : Built, createFromRaw be raw [] = .ok b ∧ b.bare.type = o.type ∧
      rawKeyBytes b.built = some raw := by
  rw [HsmObject.restorable_of hraw]
  simp only [createFromRaw, buildKeyFromAttrs_probe hne]
  cases hparse : parsePrivate be raw with
  | some k =>
    -- The bytes are taken for a private key, whatever they were.
    have hbytes : rawKeyBytes (Built.unwrapped be [] k).built = some raw ↔
        exportPrivate be k = some raw := by
      rw [rawKeyBytes_unwrapped, Option.filter_eq_some_iff]
      exact and_iff_left (decide_eq_true hne)
    constructor
    · rintro (⟨-, hnone, -⟩ | ⟨htype, k', hk', hexport⟩)
      · cases hnone
      · cases hk'
        exact ⟨_, rfl, htype.symm, hbytes.mpr hexport⟩
    · rintro ⟨b, hb, htype, hsame⟩
      cases hb
      exact .inr ⟨htype.symm, k, rfl, hbytes.mp hsame⟩
  | none =>
    by_cases hlen : raw.length = 16 ∨ raw.length = 24 ∨ raw.length = 32
    · simp only [if_pos hlen]
      constructor
      · rintro (⟨htype, -, -⟩ | ⟨-, k, hk, -⟩)
        · exact ⟨_, rfl, htype.symm, rawKeyBytes_secret hne⟩
        · cases hk
      · rintro ⟨b, hb, htype, -⟩
        cases hb
        exact .inl ⟨htype.symm, trivial, hlen⟩
    · simp only [if_neg hlen]
      constructor
      · rintro (⟨-, -, hlen'⟩ | ⟨-, k, hk, -⟩)
        · exact absurd hlen' hlen
        · cases hk
      · rintro ⟨b, hb, -⟩
        cases hb

end Unwrapped

namespace Hsm

/-! ### The two calls -/

def wrapCall (env : Env) (h : CkUlong) (param : CkMechanismParam) (w k : CkUlong) (buf : CkBuf) :
    ApiCall :=
  .onSession env h (.key (.wrapKey (some ⟨ckmAesKeyWrap, param⟩) w k buf true))

def unwrapCall (env : Env) (h : CkUlong) (param : CkMechanismParam) (w : CkUlong) (blob : Bytes) :
    ApiCall :=
  .onSession env h (.key (.unwrapKey (some ⟨ckmAesKeyWrap, param⟩) w (.data blob) [] true))

/-- The call succeeded and made a new object with the class and the key bytes of `o`. -/
def Restored (h : CkUlong) (o : HsmObject) (hsm : Hsm) (r : Answer × Hsm) : Prop :=
  r.1.rv = .ok ∧ ∃ k o', r.1.handles = [k] ∧ hsm.getObject h k = none ∧
    r.2.getObject h k = some o' ∧ o'.type = o.type ∧ rawKeyBytes o' = rawKeyBytes o

/-- Every blob that wrapping key `k` under key `w` yields unwraps to key `k` again. -/
def RestoresKey (be : Backend) (hsm : Hsm) (h w k : CkUlong) : Prop :=
  ∀ env env' param buf o, hsm.getObject h k = some o → buf.isNull = false →
    (hsm.api be (wrapCall env h param w k buf)).1.rv = .ok →
    Restored h o (hsm.api be (wrapCall env h param w k buf)).2
      ((hsm.api be (wrapCall env h param w k buf)).2.api be
        (unwrapCall env' h param w (hsm.api be (wrapCall env h param w k buf)).1.out))

section Calls

variable {be : Backend} {hsm : Hsm} {env : Env} {h w k : CkUlong} {param : CkMechanismParam}
  {buf : CkBuf} {o wkey : HsmObject} {raw blob : Bytes}

/-- Key `w` can wrap the bytes `raw`, and makes the blob of them. -/
structure Wraps (be : Backend) (hsm : Hsm) (h w : CkUlong) (raw blob : Bytes) : Prop where
  initialized : hsm.initialized = true
  wrapping : ∃ wkey kek, hsm.getObject h w = some wkey ∧
    keyStateError wkey.getKeyState false = .ok ∧ wkey.wrappingKek = some kek ∧
    KeyWrap.wrap be kek raw = some blob

theorem length_of_wrappingKek {kek : Bytes} (hkek : wkey.wrappingKek = some kek) :
    kek.length = 32 := by
  have hfilter := (Option.filter_eq_some_iff.mp hkek).2
  exact of_decide_eq_true hfilter

theorem refused_wrapBytes {seed : Nat}
    (hno : ∀ kek blob, wkey.wrappingKek = some kek → KeyWrap.wrap be kek raw ≠ some blob) :
    Refused (wrapBytes be seed ckmAesKeyWrap wkey raw) := by
  rw [wrapBytes, if_pos rfl]
  cases hkek : wkey.wrappingKek with
  | none => exact (by decide : CkRv.keySizeRange ≠ .ok)
  | some kek =>
    cases hwrap : KeyWrap.wrap be kek raw with
    | none =>
      simp only [hwrap]
      exact (by decide : CkRv.wrappedKeyInvalid ≠ .ok)
    | some blob => exact absurd hwrap (hno kek blob hkek)

theorem exists_wraps (ho : hsm.getObject h k = some o)
    (hrv : (hsm.api be (wrapCall env h param w k buf)).1.rv = .ok) :
    o.extractable = true ∧ ∃ raw blob, rawKeyBytes o = some raw ∧ Wraps be hsm h w raw blob := by
  -- Otherwise one of the checks on the way refuses, down to the wrapping itself.
  by_contra hnone
  obtain ⟨st, hst, hget⟩ := Option.bind_eq_some_iff.mp ho
  refine finish_rv_ne (r := hsm.cWrapKey be env.seed h (some ⟨ckmAesKeyWrap, param⟩) w k buf true)
    ?_ h hrv
  unfold cWrapKey checkInitialized checkKeyState
  refine fails_refuseIf_bind (fun _ => by decide) fun hinit => ?_
  refine fails_orRefuse_bind (by decide) fun m hm => ?_
  cases hm
  refine fails_check (by decide) ?_
  refine fails_orRefuse_some hst ?_
  refine fails_orRefuse_bind (by decide) fun wkey hwkey => ?_
  refine fails_orRefuse_some hget ?_
  refine fails_refuseIf_bind id fun hstate => ?_
  refine fails_refuseIf_bind (fun _ => by decide) fun hext => ?_
  refine fails_orRefuse_bind (by decide) fun raw hraw => ?_
  refine Refused.bind (refused_wrapBytes fun kek blob hkek hwrap => hnone ?_)
  have hw : hsm.getObject h w = some wkey := by rw [getObject, hst, Option.bind_some, hwkey]
  exact ⟨Bool.eq_true_of_not_eq_false hext, raw, blob, hraw, Bool.eq_true_of_not_eq_false hinit,
    wkey, kek, hw, not_not.mp hstate, hkek, hwrap⟩

/-- What a wrapping call that succeeds does: it hands out the blob, and the next call finds the
wrapping key as it was. -/
theorem wrapCall_of_wraps (ho : hsm.getObject h k = some o) (hext : o.extractable = true)
    (hraw : rawKeyBytes o = some raw) (hw : Wraps be hsm h w raw blob) (env : Env)
    (param : CkMechanismParam) (buf : CkBuf) :
    (hsm.api be (wrapCall env h param w k buf)).1 = finishOutput blob buf ∧
      Wraps be (hsm.api be (wrapCall env h param w k buf)).2 h w raw blob := by
  obtain ⟨st, hst, hget⟩ := Option.bind_eq_some_iff.mp ho
  obtain ⟨wkey, kek, hwkey, hstate, hkek, hwrap⟩ := hw.wrapping
  have hwget : st.getObject w = some wkey := by rwa [getObject, hst, Option.bind_some] at hwkey
  have hbytes : wrapBytes be env.seed ckmAesKeyWrap wkey raw = .ok blob := by
    rw [wrapBytes, if_pos rfl, hkek]
    simp only [hwrap, orRefuse]
  obtain ⟨events, hcall⟩ : ∃ events,
      hsm.cWrapKey be env.seed h (some ⟨ckmAesKeyWrap, param⟩) w k buf true =
        .ok { answer := finishOutput blob buf, events } := by
    simp only [cWrapKey, checkInitialized, checkKeyState, refuseIf, orRefuse, hw.initialized, hst,
      hwget, hget, hstate, hext, hraw, hbytes, bind, Except.bind, pure, Except.pure,
      Bool.true_eq_false, ne_eq, not_true_eq_false, if_false]
    exact ⟨_, rfl⟩
  have hapi : hsm.api be (wrapCall env h param w k buf) =
      hsm.finish h (.ok { answer := finishOutput blob buf, events }) :=
    congrArg (hsm.finish h) hcall
  rw [hapi]
  refine ⟨finish_answer _, (initialized_finish h _).trans hw.initialized, wkey, kek, ?_, hstate,
    hkek, hwrap⟩
  rw [getObject_finish hst]
  exact hwget

/-- The blob goes into a buffer that is large enough, and only there the call succeeds. -/
theorem finishOutput_rv_iff {old : Bytes} :
    (finishOutput blob (.data old)).rv = .ok ↔ blob.length ≤ old.length := by
  simp only [finishOutput]
  split_ifs with hfits
  · exact iff_of_false (by decide) (Nat.not_le.mpr hfits)
  · exact iff_of_true rfl (Nat.not_lt.mp hfits)

theorem finishOutput_out {old : Bytes} (hfits : blob.length ≤ old.length) :
    (finishOutput blob (.data old)).out = blob := by
  simp only [finishOutput, if_neg (Nat.not_lt.mpr hfits)]

theorem cUnwrapKey_of_wraps (hbe : be.InvertsBlocks) (hw : Wraps be hsm h w raw blob)
    {st : ObjectStore} (hst : hsm.store h = some st) :
    ∃ events : Built → List P11Event,
      hsm.cUnwrapKey be h (some ⟨ckmAesKeyWrap, param⟩) w (.data blob) [] true =
        createFromRaw be raw [] >>= fun b =>
          .ok { Effect.created st b with events := events b } := by
  obtain ⟨wkey, kek, hwkey, hstate, hkek, hwrap⟩ := hw.wrapping
  have hwget : st.getObject w = some wkey := by rwa [getObject, hst, Option.bind_some] at hwkey
  have hbytes : unwrapBytes be ckmAesKeyWrap wkey blob = .ok raw := by
    rw [unwrapBytes, if_pos rfl, hkek]
    simp only [KeyWrap.unwrap_wrap hbe (length_of_wrappingKek hkek) hwrap, orRefuse]
  simp only [cUnwrapKey, checkInitialized, checkKeyState, refuseIf, orRefuse, hw.initialized, hst,
    hwget, hstate, CkBuf.bytes_data, hbytes, bind, Except.bind, pure, Except.pure,
    Bool.true_eq_false, ne_eq, not_true_eq_false, if_false]
  exact ⟨_, rfl⟩

theorem createFromRaw_rv {b : Built} (hb : createFromRaw be raw [] = .ok b) : b.rv = .ok := by
  simp only [createFromRaw] at hb
  split at hb
  · cases hb
    rfl
  · split_ifs at hb
    cases hb
    rfl

theorem ne_nil_of_wrap {kek : Bytes} (hwrap : KeyWrap.wrap be kek raw = some blob) : raw ≠ [] := by
  rintro rfl
  cases hwrap

/-- Unwrapping the blob of a key makes the key again exactly when it is restorable. -/
theorem restored_iff (hbe : be.InvertsBlocks) (hraw : rawKeyBytes o = some raw)
    (hw : Wraps be hsm h w raw blob) :
    Restored h o hsm (hsm.api be (unwrapCall env h param w blob)) ↔ o.Restorable be := by
  obtain ⟨wkey, kek, hwkey, -, -, hwrap⟩ := hw.wrapping
  obtain ⟨st, hst, -⟩ := Option.bind_eq_some_iff.mp hwkey
  obtain ⟨events, hcall⟩ := @cUnwrapKey_of_wraps be hsm h w param raw blob hbe hw st hst
  rw [restorable_iff_createFromRaw hraw (ne_nil_of_wrap hwrap)]
  change Restored h o hsm (hsm.finish h (hsm.cUnwrapKey be h _ w _ [] true)) ↔ _
  rw [hcall]
  cases hraw' : createFromRaw be raw [] with
  | error rv =>
    -- The bytes are taken for nothing, and no object is made.
    constructor
    · rintro ⟨-, k, o', hhandles, -⟩
      cases hhandles
    · rintro ⟨b, hb, -⟩
      cases hb
  | ok b =>
    -- The object goes into the store under a handle that nothing had.
    have hrv := createFromRaw_rv hraw'
    let e : Effect := { Effect.created st b with events := events b }
    have hanswer : (hsm.finish h (.ok e)).1 = { rv := .ok, handles := [st.newHandle] } := by
      rw [finish_answer]
      simp only [e, Effect.created, hrv, if_true]
    have hobject : (hsm.finish h (.ok e)).2.getObject h st.newHandle = some b.built := by
      refine getObject_finish_created hst rfl rfl ?_
      simp only [e, Effect.created, hrv, if_true, List.getLast?_singleton]
    have hnew : hsm.getObject h st.newHandle = none := by
      rw [getObject, hst, Option.bind_some, ObjectStore.getObject_newHandle]
    change Restored h o hsm (hsm.finish h (.ok e)) ↔ _
    rw [Restored, hanswer]
    constructor
    · rintro ⟨-, k, o', hhandles, -, ho', htype, hbytes⟩
      obtain rfl := List.singleton_inj.mp hhandles
      obtain rfl := Option.mem_unique hobject ho'
      exact ⟨b, rfl, b.sameFields.type.symm.trans htype, hbytes.trans hraw⟩
    · rintro ⟨b', hb', htype, hbytes⟩
      cases hb'
      exact ⟨rfl, st.newHandle, b.built, rfl, hnew, hobject, b.sameFields.type.trans htype,
        hbytes.trans hraw.symm⟩

/-- A key that can be wrapped at all comes back from every blob exactly when it is restorable. -/
theorem restoresKey_iff (hbe : be.InvertsBlocks) (ho : hsm.getObject h k = some o)
    (hrv : (hsm.api be (wrapCall env h param w k buf)).1.rv = .ok) :
    RestoresKey be hsm h w k ↔ o.Restorable be := by
  obtain ⟨hext, raw, blob, hraw, hw⟩ := exists_wraps ho hrv
  have hwrap := wrapCall_of_wraps ho hext hraw hw
  constructor
  · -- A buffer as long as the blob is enough to see it.
    intro hrestores
    let old : Bytes := List.replicate blob.length 0
    have hfits : blob.length ≤ old.length := Nat.le_of_eq List.length_replicate.symm
    obtain ⟨hanswer, hw'⟩ := hwrap env param (.data old)
    have hrestored := hrestores env env param (.data old) o ho rfl
      (hanswer ▸ finishOutput_rv_iff.mpr hfits)
    rw [hanswer, finishOutput_out hfits] at hrestored
    exact (restored_iff hbe hraw hw').mp hrestored
  · intro hrestorable env env' param buf o' ho' hbuf hok
    obtain rfl := Option.mem_unique ho ho'
    obtain ⟨hanswer, hw'⟩ := hwrap env param buf
    cases buf with
    | null n => cases hbuf
    | data old =>
      rw [hanswer, finishOutput_rv_iff] at hok
      rw [hanswer, finishOutput_out hok]
      exact (restored_iff hbe hraw hw').mpr hrestorable

/-! ### Keys that come back and keys that do not -/

/-- The toy library, with encodings of private keys that parse as nothing else. -/
def exactKeys : Backend :=
  { Backend.toy with
    rsaExportPrivateDer := fun _ => some (List.replicate 24 1)
    i2dRsaPrivateKey := fun _ => some (List.replicate 24 1)
    rsaImportPrivateDer := fun raw => if raw = List.replicate 24 1 then some .rsa else none
    ecExportPrivateDer := fun _ => some (List.replicate 24 3)
    i2dEcPrivateKey := fun _ => some (List.replicate 24 3)
    ecImportPrivateDer := fun raw => if raw = List.replicate 24 3 then some .ec else none }

theorem invertsBlocks_exactKeys : exactKeys.InvertsBlocks :=
  ⟨fun _ _ _ hblock => hblock, fun _ _ _ _ => rfl⟩

theorem parsesExports_exactKeys : exactKeys.ParsesExports := by
  have hparse {raw der : Bytes} {k base : KeyBase} :
      (if raw = der then some base else none) = some k ↔ k = base ∧ some der = some raw := by
    by_cases hraw : raw = der <;> simp [hraw, eq_comm]
  exact ⟨fun _ _ => hparse, fun _ _ => hparse⟩

/-- A session with a wrapping key, secret keys of 16 and of 40 bytes, a secret key whose bytes
encode a private key, and an RSA key pair. -/
def withKeys : Hsm :=
  let secret (value : Bytes) : ApiCall := .onSession {} 1 (.object (.createObject
    [⟨ckaClass, .data (ulongBytes ckoSecretKey)⟩, ⟨ckaValue, .data value⟩] true))
  CS.run (api exactKeys) oneSession
    [secret (List.replicate 32 9), secret (List.replicate 16 7), secret (List.replicate 40 7),
      secret (List.replicate 24 1),
      .onSession {} 1
        (.key (.generateKeyPair (some ⟨ckmRsaPkcsKeyPairGen, .absent⟩) [] [] true true))]

/-- Room for every blob. -/
def room : CkBuf := .data (List.replicate 64 0)

/-- A key of this session wrapped, and its blob unwrapped. -/
def wrapped (k : CkUlong) : Answer × Hsm := withKeys.api exactKeys (wrapCall {} 1 .absent 1 k room)

def unwrapped (k : CkUlong) : Answer × Hsm :=
  (wrapped k).2.api exactKeys (unwrapCall {} 1 .absent 1 (wrapped k).1.out)

/-- Class and bytes of a key. -/
def keyMaterial (hsm : Hsm) (k : CkUlong) : Option (ObjectType × Option Bytes) :=
  (hsm.getObject 1 k).map fun o => (o.type, rawKeyBytes o)

theorem exists_of_keyMaterial {hsm : Hsm} {k : CkUlong} {t : ObjectType} {raw : Option Bytes}
    (hk : hsm.keyMaterial k = some (t, raw)) :
    ∃ o, hsm.getObject 1 k = some o ∧ o.type = t ∧ rawKeyBytes o = raw := by
  obtain ⟨o, ho, heq⟩ := Option.map_eq_some_iff.mp hk
  obtain ⟨htype, hraw⟩ := Prod.mk.inj heq
  exact ⟨o, ho, htype, hraw⟩

/-- The secret key of 16 bytes and the private key come back. -/
theorem restoresKey_withKeys :
    RestoresKey exactKeys withKeys 1 1 (composeHandle 1 1) ∧
      RestoresKey exactKeys withKeys 1 1 (composeHandle 5 1) := by
  obtain ⟨secret, hsecret, hclass, hvalue⟩ := @exists_of_keyMaterial withKeys (composeHandle 1 1)
    .secretKey (some (List.replicate 16 7)) (by decide +kernel)
  obtain ⟨priv, hpriv, hclass', hder⟩ := @exists_of_keyMaterial withKeys (composeHandle 5 1)
    .privateKey (some (List.replicate 24 1)) (by decide +kernel)
  have hwrap : (wrapped (composeHandle 1 1)).1.rv = .ok ∧
      (wrapped (composeHandle 5 1)).1.rv = .ok := by
    decide +kernel
  refine ⟨(restoresKey_iff invertsBlocks_exactKeys hsecret hwrap.1).mpr ?_,
    (restoresKey_iff invertsBlocks_exactKeys hpriv hwrap.2).mpr ?_⟩
  · exact ⟨_, hvalue, .inl ⟨hclass, by decide, .inl rfl⟩⟩
  · exact ⟨_, hder, .inr ⟨hclass', .rsa, rfl, rfl⟩⟩

/-- The secret key of 40 bytes is wrapped, but `C_UnwrapKey` refuses the blob; the one whose bytes
encode a private key comes back as that private key. -/
theorem not_restoresKey_withKeys :
    exactKeys.InvertsBlocks ∧ exactKeys.ParsesExports ∧
      ¬ RestoresKey exactKeys withKeys 1 1 (composeHandle 2 1) ∧
      ¬ RestoresKey exactKeys withKeys 1 1 (composeHandle 3 1) := by
  have hwrap : (wrapped (composeHandle 2 1)).1.rv = .ok ∧
      (wrapped (composeHandle 3 1)).1.rv = .ok := by
    decide +kernel
  refine ⟨invertsBlocks_exactKeys, parsesExports_exactKeys, fun hrestores => ?_,
    fun hrestores => ?_⟩
  · -- No AES length.
    obtain ⟨long, hlong, -, -⟩ := @exists_of_keyMaterial withKeys (composeHandle 2 1)
      .secretKey (some (List.replicate 40 7)) (by decide +kernel)
    obtain ⟨hrv, -⟩ := hrestores {} {} .absent room long hlong rfl hwrap.1
    have hrefused : (unwrapped (composeHandle 2 1)).1.rv = .wrappedKeyInvalid := by decide +kernel
    exact absurd (hrefused.symm.trans hrv) (by decide)
  · -- The bytes parse as a private key, and the first guess is taken.
    obtain ⟨twin, htwin, hclass, -⟩ := @exists_of_keyMaterial withKeys (composeHandle 3 1)
      .secretKey (some (List.replicate 24 1)) (by decide +kernel)
    have hrestored : Restored 1 twin (wrapped (composeHandle 3 1)).2
        (unwrapped (composeHandle 3 1)) :=
      hrestores {} {} .absent room twin htwin rfl hwrap.2
    obtain ⟨-, k, o, hhandles, -, ho, htype, -⟩ := hrestored
    have hnew : (unwrapped (composeHandle 3 1)).1.handles = [composeHandle 6 1] := by decide +kernel
    obtain rfl := List.singleton_inj.mp (hhandles.symm.trans hnew)
    obtain ⟨o', ho', hpriv, -⟩ := @exists_of_keyMaterial (unwrapped (composeHandle 3 1)).2
      (composeHandle 6 1) .privateKey (some (List.replicate 24 1)) (by decide +kernel)
    obtain rfl := Option.mem_unique ho ho'
    rw [hpriv, hclass] at htype
    cases htype

end Calls

end Hsm

end VirtualHsm
