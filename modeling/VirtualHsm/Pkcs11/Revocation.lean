import VirtualHsm.Pkcs11.Api

/-!
# Use of revoked keys

The uses of a key's material, by entry point and mechanism, and which of them look at the
life-cycle state before they use it.
-/

namespace VirtualHsm

/-- The ways to use a key, with the mechanism. -/
inductive KeyUse
  | sign (m : CkUlong)
  | verify (m : CkUlong)
  | encrypt (m : CkUlong)
  | decrypt (m : CkUlong)
  | digestKey
  | wrapping (m : CkUlong)
  | wrapped (m : CkUlong)
  | unwrap (m : CkUlong)
  | derive (m : CkUlong)

/-- The operation of the session has this mechanism and this key. -/
def Hsm.OpKey (hsm : Hsm) (h m k : CkUlong) : Prop :=
  ∃ s, hsm.getSession h = some s ∧ s.activeMech = m ∧ s.signKey = k

namespace KeyUse

/-- The call on session `h` uses the key `k` in this way. -/
def Uses (hsm : Hsm) (h k : CkUlong) : KeyUse → SessionCall → Prop
  | sign m, c => hsm.OpKey h m k ∧
      ((∃ data out, c = .crypto (.sign data out)) ∨ ∃ out, c = .crypto (.signFinal out))
  | verify m, c => hsm.OpKey h m k ∧
      ((∃ data sig, c = .crypto (.verify data sig)) ∨ ∃ sig, c = .crypto (.verifyFinal sig))
  | encrypt m, c => hsm.OpKey h m k ∧
      ((∃ data out, c = .crypto (.encrypt data out)) ∨ ∃ out, c = .crypto (.encryptFinal out))
  | decrypt m, c => hsm.OpKey h m k ∧
      ((∃ data out, c = .crypto (.decrypt data out)) ∨ ∃ out, c = .crypto (.decryptFinal out))
  | digestKey, c => c = .crypto (.digestKey k)
  | wrapping m, c => ∃ p key buf pul, c = .key (.wrapKey (some ⟨m, p⟩) k key buf pul)
  | wrapped m, c => ∃ p wrappingKey buf pul, c = .key (.wrapKey (some ⟨m, p⟩) wrappingKey k buf pul)
  | unwrap m, c => ∃ p buf templ ph, c = .key (.unwrapKey (some ⟨m, p⟩) k buf templ ph)
  | derive m, c => ∃ p templ ph, c = .key (.deriveKey (some ⟨m, p⟩) k templ ph)

/-- The uses that look at the state of the key, or whose mechanism is not supported: not
decryption with AES-GCM, not `C_DigestKey`, not the key being wrapped, and not the base key of a
derivation. -/
def Guarded : KeyUse → Prop
  | decrypt m => m ≠ ckmAesGcm
  | digestKey => False
  | wrapped m => m ∉ [ckmAesKeyWrap, ckmRsaPkcs, ckmRsaPkcsOaep]
  | derive m => m ≠ ckmEcdh1Derive
  | _ => True

end KeyUse

/-- In every reachable state, a call that uses a revoked key in this way does not return
`CKR_OK`. -/
def RefusesRevoked (use : KeyUse) : Prop :=
  ∀ (be : Backend) (hsm : Hsm), CS.Reachable (Hsm.api be) {} hsm →
    ∀ (env : Env) (h k : CkUlong) (o : HsmObject) (c : SessionCall), hsm.getObject h k = some o →
      o.getKeyState = .revoked → use.Uses hsm h k c →
      (hsm.api be (.onSession env h c)).1.rv ≠ .ok

/-! ### Operations with a revoked key -/

namespace Session

variable {be : Backend} {env : Env} {s : Session} {o : HsmObject}

section

variable (ho : s.opObject = some o) (hrev : o.getKeyState = .revoked)
include ho hrev

theorem refused_doSign (data : Bytes) : Refused (s.doSign be env data) := by
  unfold doSign
  rw [ho]
  apply fails_check (by simp)
  exact (refused_checkKeyState hrev true).bind

theorem refused_doVerify (data sig : Bytes) : Refused (s.doVerify be data sig) := by
  unfold doVerify
  rw [ho]
  exact (refused_checkKeyState hrev false).bind

theorem refused_doEncrypt (input : Bytes) : Refused (s.doEncrypt be env input) := by
  unfold doEncrypt
  rw [ho]
  apply fails_check (by simp)
  exact (refused_checkKeyState hrev false).bind

theorem refused_doDecrypt
    (hmech : s.activeMech ≠ ckmAesGcm) (input : Bytes) : Refused (s.doDecrypt be input) := by
  unfold doDecrypt
  simp only [ho, orRefuse, if_neg hmech]
  apply fails_orRefuse_bind (by simp)
  intro k _
  exact (refused_checkKeyState hrev false).bind

end

end Session

namespace Hsm

variable {be : Backend} {env : Env} {hsm : Hsm} {h k m : CkUlong} {o : HsmObject} {s : Session}

theorem OpKey.opObject (hop : hsm.OpKey h m k) (ho : hsm.getObject h k = some o)
    (hs : hsm.getSession h = some s) : s.opObject = some o ∧ s.activeMech = m := by
  obtain ⟨s', hs', hmech, hkey⟩ := hop
  obtain rfl : s = s' := Option.mem_unique hs hs'
  rw [getObject, store, hs] at ho
  rw [Session.opObject, hkey]
  exact ⟨ho, hmech⟩

theorem fails_opSession_bind {f : Session → Except CkRv Effect} {bad : Effect → Prop}
    (hf : ∀ s, hsm.getSession h = some s → s.activeMech ≠ 0 → Fails bad (f s)) :
    Fails bad (hsm.opSession h >>= f) := by
  refine fails_orRefuse_bind (by decide) fun s hs => ?_
  obtain ⟨hget, hcheck⟩ := Option.filter_eq_some_iff.mp hs
  refine hf s hget fun hzero => ?_
  simp [Session.opCheck, hzero] at hcheck

theorem cipherEnd_rv_ne {r : Except CkRv Bytes} (hr : Refused r) (opName : String)
    (type : EventType) (data : Bytes) (out : Option CkBuf) :
    (hsm.cipherEnd be env s opName type data r out).answer.rv ≠ .ok := by
  cases r with
  | error rv => exact hr
  | ok bytes => exact hr.elim

theorem signEnd_rv_ne {data : Bytes} (hr : Refused (s.doSign be env data)) (out : Option CkBuf) :
    (hsm.signEnd be env s data out).answer.rv ≠ .ok := by
  unfold signEnd
  generalize s.doSign be env data = r at hr ⊢
  cases r with
  | error rv => exact hr
  | ok sig => exact hr.elim

theorem verifyEnd_rv_ne {data sig : Bytes} (hr : Refused (s.doVerify be data sig)) :
    (hsm.verifyEnd be env s data sig).answer.rv ≠ .ok := by
  change verifyCode be s data sig ≠ .ok
  unfold verifyCode
  generalize s.doVerify be data sig = r at hr ⊢
  cases r with
  | error rv => exact hr
  | ok _ => exact hr.elim

/-! ### Operations whose work is refused

Such an operation is not finished, in one call or as the last of several. -/

section Work

variable {c : SessionCall}

theorem fails_encrypt
    (hc : (∃ data out, c = .crypto (.encrypt data out)) ∨ ∃ out, c = .crypto (.encryptFinal out))
    (hwork : ∀ s, hsm.getSession h = some s → s.activeMech ≠ 0 →
      ∀ input, Refused (s.doEncrypt be env input)) :
    Fails (fun e => e.answer.rv ≠ .ok) (hsm.sessionCall be env h c) := by
  rcases hc with ⟨data, out, rfl⟩ | ⟨out, rfl⟩
  all_goals refine fails_opSession_bind fun s hs hop => ?_
  · exact fails_check (by decide) (cipherEnd_rv_ne (hwork s hs hop _) _ _ _ out)
  · exact cipherEnd_rv_ne (hwork s hs hop _) _ _ _ out

theorem fails_decrypt
    (hc : (∃ data out, c = .crypto (.decrypt data out)) ∨ ∃ out, c = .crypto (.decryptFinal out))
    (hwork : ∀ s, hsm.getSession h = some s → s.activeMech ≠ 0 →
      ∀ input, Refused (s.doDecrypt be input)) :
    Fails (fun e => e.answer.rv ≠ .ok) (hsm.sessionCall be env h c) := by
  rcases hc with ⟨data, out, rfl⟩ | ⟨out, rfl⟩
  all_goals refine fails_opSession_bind fun s hs hop => ?_
  · exact fails_check (by decide) (cipherEnd_rv_ne (hwork s hs hop _) _ _ _ out)
  · exact cipherEnd_rv_ne (hwork s hs hop _) _ _ _ out

theorem fails_sign
    (hc : (∃ data out, c = .crypto (.sign data out)) ∨ ∃ out, c = .crypto (.signFinal out))
    (hwork : ∀ s, hsm.getSession h = some s → s.activeMech ≠ 0 →
      ∀ data, Refused (s.doSign be env data)) :
    Fails (fun e => e.answer.rv ≠ .ok) (hsm.sessionCall be env h c) := by
  rcases hc with ⟨data, out, rfl⟩ | ⟨out, rfl⟩
  all_goals refine fails_opSession_bind fun s hs hop => ?_
  · exact fails_check (by decide) (signEnd_rv_ne (hwork s hs hop _) out)
  · exact signEnd_rv_ne (hwork s hs hop _) out

theorem fails_verify
    (hc : (∃ data sig, c = .crypto (.verify data sig)) ∨ ∃ sig, c = .crypto (.verifyFinal sig))
    (hwork : ∀ s, hsm.getSession h = some s → s.activeMech ≠ 0 →
      ∀ data sig, Refused (s.doVerify be data sig)) :
    Fails (fun e => e.answer.rv ≠ .ok) (hsm.sessionCall be env h c) := by
  rcases hc with ⟨data, sig, rfl⟩ | ⟨sig, rfl⟩
  all_goals
    refine fails_opSession_bind fun s hs hop => ?_
    refine fails_check (by decide) ?_
  · exact fails_check (by decide) (verifyEnd_rv_ne (hwork s hs hop _ _))
  · exact verifyEnd_rv_ne (hwork s hs hop _ _)

end Work

/-! ### Wrapping, unwrapping and derivation with a revoked key -/

section Wrapping

variable {st : ObjectStore} (hst : hsm.store h = some st) (ho : st.getObject k = some o)
include hst ho

theorem fails_cWrapKey_wrapping (hrev : o.getKeyState = .revoked) (seed : Nat)
    (mech : Option CkMechanism) (key : CkUlong) (buf : CkBuf) (pul : Bool) :
    Fails (fun e => e.answer.rv ≠ .ok) (hsm.cWrapKey be seed h mech k key buf pul) := by
  unfold cWrapKey checkInitialized
  refine fails_check (by simp) ?_
  refine fails_orRefuse_bind (by simp) fun m _ => ?_
  refine fails_check (by simp) ?_
  refine fails_orRefuse_some hst ?_
  refine fails_orRefuse_some ho ?_
  refine fails_orRefuse_bind (by simp) fun tkey _ => ?_
  exact (refused_checkKeyState hrev false).bind

omit hst ho in
/-- An unsupported mechanism is refused after all other checks. -/
theorem fails_cWrapKey_mechanism (hmech : m ∉ [ckmAesKeyWrap, ckmRsaPkcs, ckmRsaPkcsOaep])
    (seed : Nat) (p : CkMechanismParam) (wrappingKey key : CkUlong) (buf : CkBuf) (pul : Bool) :
    Fails (fun e => e.answer.rv ≠ .ok)
      (hsm.cWrapKey be seed h (some ⟨m, p⟩) wrappingKey key buf pul) := by
  have hbytes (wkey : HsmObject) (raw : Bytes) : Refused (wrapBytes be seed m wkey raw) := by
    simp only [List.mem_cons, List.not_mem_nil, or_false, not_or] at hmech
    simp [wrapBytes, hmech, Refused, Fails]
  unfold cWrapKey checkInitialized checkKeyState
  refine fails_check (by simp) ?_
  refine fails_check (by simp) ?_
  refine fails_orRefuse_bind (by simp) fun st' _ => ?_
  refine fails_orRefuse_bind (by simp) fun wkey _ => ?_
  refine fails_orRefuse_bind (by simp) fun tkey _ => ?_
  refine fails_refuseIf_bind (fun herror => herror) fun _ => ?_
  refine fails_check (by simp) ?_
  refine fails_orRefuse_bind (by simp) fun raw _ => ?_
  exact (hbytes wkey raw).bind

theorem fails_cUnwrapKey (hrev : o.getKeyState = .revoked) (mech : Option CkMechanism)
    (buf : CkBuf) (templ : List CkAttribute) (ph : Bool) :
    Fails (fun e => e.answer.rv ≠ .ok) (hsm.cUnwrapKey be h mech k buf templ ph) := by
  unfold cUnwrapKey checkInitialized
  refine fails_check (by simp) ?_
  refine fails_orRefuse_bind (by simp) fun m _ => ?_
  refine fails_check (by simp) ?_
  refine fails_orRefuse_some hst ?_
  refine fails_orRefuse_some ho ?_
  exact (refused_checkKeyState hrev false).bind

end Wrapping

theorem fails_cDeriveKey (hmech : m ≠ ckmEcdh1Derive) (p : CkMechanismParam) (baseKey : CkUlong)
    (templ : List CkAttribute) (ph : Bool) :
    Fails (fun e => e.answer.rv ≠ .ok) (hsm.cDeriveKey be h (some ⟨m, p⟩) baseKey templ ph) := by
  unfold cDeriveKey checkInitialized
  refine fails_check (by simp) ?_
  refine fails_check (by simp) ?_
  exact fails_refuseIf_bind (fun _ => by simp) fun hsupported => absurd hmech hsupported

/-! ### Guarded uses -/

/-- A guarded use of a revoked key fails, in every state. -/
theorem fails_of_guarded {use : KeyUse} {c : SessionCall} (hguard : use.Guarded)
    (ho : hsm.getObject h k = some o) (hrev : o.getKeyState = .revoked)
    (huse : use.Uses hsm h k c) :
    Fails (fun e => e.answer.rv ≠ .ok) (hsm.sessionCall be env h c) := by
  obtain ⟨st, hst, hget⟩ := Option.bind_eq_some_iff.mp ho
  cases use with
  | sign m =>
    obtain ⟨hop, hc⟩ := huse
    exact fails_sign hc fun s hs _ => Session.refused_doSign (hop.opObject ho hs).1 hrev
  | verify m =>
    obtain ⟨hop, hc⟩ := huse
    exact fails_verify hc fun s hs _ => Session.refused_doVerify (hop.opObject ho hs).1 hrev
  | encrypt m =>
    obtain ⟨hop, hc⟩ := huse
    exact fails_encrypt hc fun s hs _ => Session.refused_doEncrypt (hop.opObject ho hs).1 hrev
  | decrypt m =>
    -- The RSA branch: with another mechanism than AES-GCM the key is built and then checked.
    obtain ⟨hop, hc⟩ := huse
    refine fails_decrypt hc fun s hs _ => ?_
    obtain ⟨hkey, hmech⟩ := hop.opObject ho hs
    exact Session.refused_doDecrypt hkey hrev (hmech ▸ hguard)
  | digestKey => exact hguard.elim
  | wrapping m =>
    obtain ⟨p, key, buf, pul, rfl⟩ := huse
    exact fails_cWrapKey_wrapping hst hget hrev env.seed _ key buf pul
  | wrapped m =>
    obtain ⟨p, wrappingKey, buf, pul, rfl⟩ := huse
    exact fails_cWrapKey_mechanism hguard env.seed p wrappingKey k buf pul
  | unwrap m =>
    obtain ⟨p, buf, templ, ph, rfl⟩ := huse
    exact fails_cUnwrapKey hst hget hrev _ buf templ ph
  | derive m =>
    obtain ⟨p, templ, ph, rfl⟩ := huse
    exact fails_cDeriveKey hguard p k templ ph

/-! ### Unguarded uses -/

/-- The calls that set up a session with a revoked key 1, which has a value and an elliptic-curve
private key, and an active key in the second slot, which has a value and an RSA private key. -/
def revokedSetup : List ApiCall :=
  [.initModule (some ⟨fun i => if i = 0 then some none else none, none, false⟩) false,
   .openSession 0 ckfSerialSession,
   .onSession {} 1 (.object (.createObject
     [⟨ckaClass, .data (ulongBytes ckoPrivateKey)⟩, ⟨ckaValue, .data (List.replicate 32 1)⟩,
      ⟨ckaVhsmEcPriv, .data [3]⟩, ⟨ckaVhsmKeyState, .data [2]⟩] true)),
   .onSession {} 1 (.object (.createObject
     [⟨ckaClass, .data (ulongBytes ckoPrivateKey)⟩, ⟨ckaValue, .data (List.replicate 32 1)⟩,
      ⟨ckaVhsmRsaPriv, .data [1]⟩] true))]

/-- Starting an operation with key 1, if the use needs one. -/
def revokedInit : KeyUse → List ApiCall
  | .decrypt m =>
    [.onSession {} 1 (.crypto (.decryptInit (some ⟨m, .gcm (.data [0]) (.null 0)⟩) 1))]
  | .digestKey => [.onSession {} 1 (.crypto (.digestInit (some ⟨ckmSha256, .absent⟩)))]
  | _ => []

/-- The state in which key 1 is used. -/
def revokedState (use : KeyUse) : Hsm := CS.run (api .toy) {} (revokedSetup ++ revokedInit use)

theorem not_refusesRevoked (use : KeyUse) (c : SessionCall) {o : HsmObject}
    (ho : (revokedState use).getObject 1 1 = some o) (hrev : o.getKeyState = .revoked)
    (huse : use.Uses (revokedState use) 1 1 c)
    (hok : ((revokedState use).api .toy (.onSession {} 1 c)).1.rv = .ok) :
    ¬ RefusesRevoked use := by
  intro hrefuses
  exact hrefuses .toy (revokedState use) ⟨_, rfl⟩ {} 1 1 o c ho hrev huse hok

theorem not_refusesRevoked_wrapped {m : CkUlong}
    (hmech : m ∈ [ckmAesKeyWrap, ckmRsaPkcs, ckmRsaPkcsOaep]) : ¬ RefusesRevoked (.wrapped m) := by
  refine not_refusesRevoked (.wrapped m) (.key (.wrapKey (some ⟨m, .absent⟩) (composeHandle 1 1) 1
    (.data (List.replicate 40 0)) true)) rfl rfl ⟨_, _, _, _, rfl⟩ ?_
  simp only [List.mem_cons, List.not_mem_nil, or_false] at hmech
  rcases hmech with rfl | rfl | rfl
  · decide +kernel
  · decide +kernel
  · decide +kernel

end Hsm

/-- A use refuses revoked keys in all reachable states exactly when it is guarded. -/
theorem refusesRevoked_iff (use : KeyUse) : RefusesRevoked use ↔ use.Guarded := by
  constructor
  · intro hrefuses
    by_contra hopen
    cases use with
    | sign | verify | encrypt | wrapping | unwrap => exact hopen trivial
    | decrypt m =>
      obtain rfl : m = ckmAesGcm := not_not.mp hopen
      refine Hsm.not_refusesRevoked (.decrypt ckmAesGcm)
        (.crypto (.decrypt (.data (List.replicate 16 0)) (some (.data [])))) rfl rfl
        ⟨⟨_, rfl, rfl, rfl⟩, .inl ⟨_, _, rfl⟩⟩ ?_ hrefuses
      decide +kernel
    | digestKey =>
      refine Hsm.not_refusesRevoked .digestKey (.crypto (.digestKey 1)) rfl rfl rfl ?_ hrefuses
      decide +kernel
    | wrapped m => exact Hsm.not_refusesRevoked_wrapped (not_not.mp hopen) hrefuses
    | derive m =>
      obtain rfl : m = ckmEcdh1Derive := not_not.mp hopen
      refine Hsm.not_refusesRevoked (.derive ckmEcdh1Derive)
        (.key (.deriveKey (some ⟨ckmEcdh1Derive, .ecdh1 0 (.null 0) (.data [1])⟩) 1 [] true))
        rfl rfl ⟨_, _, _, rfl⟩ ?_ hrefuses
      decide +kernel
  · intro hguard be hsm _ env h k o c ho hrev huse
    exact Hsm.finish_rv_ne (Hsm.fails_of_guarded hguard ho hrev huse) h

/-- `C_DigestKey` takes the value of a revoked key. -/
theorem not_refusesRevoked_digestKey : ¬ RefusesRevoked .digestKey :=
  Hsm.not_refusesRevoked .digestKey (.crypto (.digestKey 1)) rfl rfl rfl (by decide +kernel)

end VirtualHsm
