import VirtualHsm.Pkcs11.OperationKind
import VirtualHsm.Pkcs11.Revocation

/-!
# FIPS mode

With `VHSM_FIPS` set only approved algorithms are meant to be used: ECDSA and RSA-PSS with SHA-2,
SHA-2 digests and AES, and neither RSA with PKCS#1 v1.5 padding nor SHA-1. The mechanism is looked
at in `do_sign` and `do_encrypt` only, against a list of numbers that is kept apart from the
mechanisms the module defines.

So two things can go wrong for a way to use the module: it is not looked at, or it is looked at and
not on the list. And since the calls that finish an operation do not ask what it was begun for, a
signature with an approved mechanism can be finished by an encryption, which is then RSA with PKCS#1
v1.5 padding.

The calls that begin an operation or collect its data compute nothing and are not counted here; they
accept every mechanism. SHA-1 occurs in RSA-OAEP only, which is not approved anyway.
-/

namespace VirtualHsm

/-! ### Uses -/

/-- The mechanisms that sign with PKCS#1 v1.5 padding. -/
def pkcs1Mechs : List CkUlong := [ckmRsaPkcs, ckmSha256RsaPkcs, ckmSha384RsaPkcs, ckmSha512RsaPkcs]

/-- RSA-PSS: without a digest of its own the mechanism has SHA-256 here. -/
def sha2PssMechs : List CkUlong := ckmRsaPkcsPss :: pssMechs

def ecdsaMechs : List CkUlong := [ckmEcdsa, ckmEcdsaSha256, ckmEcdsaSha384, ckmEcdsaSha512]

/-- Everything that `C_SignInit` accepts. -/
def signMechs : List CkUlong :=
  ckmRsaX509 :: ckmRsaPkcsOaep :: (pkcs1Mechs ++ sha2PssMechs ++ ecdsaMechs)

/-- The approved families, as mechanisms of the module. -/
def approvedMechs : List CkUlong :=
  ecdsaMechs ++ sha2PssMechs ++
    [ckmSha256, ckmSha384, ckmSha512, ckmAesEcb, ckmAesGcm, ckmAesKeyWrap]

/-- A call that computes something: it finishes an operation, in one call or as the last of several,
or it wraps, unwraps or derives a key. -/
inductive CryptoUse
  | operation (kind : OpKind) (m : CkUlong)
  | wrap (m : CkUlong)
  | unwrap (m : CkUlong)
  | derive (m : CkUlong)

namespace CryptoUse

def mech : CryptoUse → CkUlong
  | operation _ m | wrap m | unwrap m | derive m => m

/-- The use is RSA with PKCS#1 v1.5 padding. -/
def pkcs1 : CryptoUse → Bool
  -- Encryption falls back on this padding for mechanisms that it does not know.
  | operation .encrypt m | operation .decrypt m => m ∉ [ckmAesGcm, ckmRsaX509, ckmRsaPkcsOaep]
  | operation .sign m | operation .verify m => m ∈ pkcs1Mechs
  | operation .digest _ => false
  | wrap m | unwrap m => m = ckmRsaPkcs
  | derive _ => false

def Approved (u : CryptoUse) : Prop := u.mech ∈ approvedMechs ∧ u.pkcs1 = false

instance (u : CryptoUse) : Decidable u.Approved := inferInstanceAs (Decidable (_ ∧ _))

/-- The call on session `h` is such a use. -/
def Makes (hsm : Hsm) (h : CkUlong) : CryptoUse → SessionCall → Prop
  | operation kind m, c => (∃ s, hsm.getSession h = some s ∧ s.activeMech = m) ∧
      ∃ data out sig,
        c = .crypto (kind.wholeCall data out sig) ∨ c = .crypto (kind.finalCall out sig)
  | wrap m, c => ∃ p w k buf pul, c = .key (.wrapKey (some ⟨m, p⟩) w k buf pul)
  | unwrap m, c => ∃ p w buf templ ph, c = .key (.unwrapKey (some ⟨m, p⟩) w buf templ ph)
  | derive m, c => ∃ p k templ ph, c = .key (.deriveKey (some ⟨m, p⟩) k templ ph)

/-- The uses that must not be refused for their mechanism. -/
def Required : CryptoUse → Prop
  | operation .sign m | operation .verify m => m ∈ sha2PssMechs
  | operation .digest m => isDigestMech m = true
  | _ => False

end CryptoUse

/-- The call is made with `VHSM_FIPS` set. -/
def FipsOn (c : ApiCall) : Prop := ∀ env h call, c = .onSession env h call → env.fips = true

/-- In no run with `VHSM_FIPS` set throughout does the use return `CKR_OK`. -/
def RefusedInFips (u : CryptoUse) : Prop :=
  ∀ (be : Backend) (calls : List ApiCall), (∀ c ∈ calls, FipsOn c) →
    ∀ (env : Env) (h : CkUlong) (c : SessionCall), env.fips = true →
      u.Makes (CS.run (Hsm.api be) {} calls) h c →
      ((CS.run (Hsm.api be) {} calls).api be (.onSession env h c)).1.rv ≠ .ok

/-- In every such run the use is refused for its mechanism only if it would be without `VHSM_FIPS`
as well. -/
def AdmittedInFips (u : CryptoUse) : Prop :=
  ∀ (be : Backend) (calls : List ApiCall), (∀ c ∈ calls, FipsOn c) →
    ∀ (env : Env) (h : CkUlong) (c : SessionCall),
      u.Makes (CS.run (Hsm.api be) {} calls) h c →
      ((CS.run (Hsm.api be) {} calls).api be (.onSession { env with fips := true } h c)).1.rv =
        .mechanismInvalid →
      ((CS.run (Hsm.api be) {} calls).api be (.onSession { env with fips := false } h c)).1.rv =
        .mechanismInvalid

structure ConformsToFips (u : CryptoUse) : Prop where
  refused : ¬ u.Approved → RefusedInFips u
  admitted : u.Required → AdmittedInFips u

namespace CryptoUse

/-- The uses that conform. Signing refuses two mechanisms that it should not; what else is listed
here is not looked at, or comes from an operation that was begun as a signature. -/
def Conforming : CryptoUse → Prop
  | operation .sign m => m ∉ [ckmRsaPkcsPss, ckmSha512RsaPkcsPss]
  | operation .verify m => m ∉ ckmRsaX509 :: pkcs1Mechs
  | operation .encrypt m => m ∉ [ckmSha256RsaPkcsPss, ckmSha384RsaPkcsPss]
  | operation .decrypt m => m ∉ signMechs
  | operation .digest m => m ∉ ckmRsaX509 :: ckmRsaPkcsOaep :: pkcs1Mechs
  | wrap m | unwrap m => m ∉ [ckmRsaPkcs, ckmRsaPkcsOaep]
  | derive m => m ≠ ckmEcdh1Derive

/-- Not a digest that is finished by an encryption or a decryption. There is no key for that, as
long as no object has the handle zero. -/
def Keyed : CryptoUse → Prop
  | operation .encrypt m | operation .decrypt m => isDigestMech m = false
  | _ => True

end CryptoUse

/-! ### Padding -/

section Padding

variable {be : Backend} {s : Session} {m : CkUlong} {data : Bytes}

theorem mem_signMechs : m ∈ signMechs ↔ isRsaMech m = true ∨ isEcMech m = true := by
  simp only [signMechs, sha2PssMechs, pkcs1Mechs, ecdsaMechs, isRsaMech, isEcMech, pssMechs,
    List.mem_cons, List.mem_append, List.not_mem_nil, or_false, decide_eq_true_eq]
  grind

/-- What `pkcs1` says of encryption and decryption is what the code resolves. -/
theorem resolveRsaEncdec_pkcs1 (hm : s.activeMech ≠ ckmAesGcm) (kind : OpKind)
    (hkind : kind = .encrypt ∨ kind = .decrypt) :
    s.resolveRsaEncdec.1 = .pkcs1 ↔ (CryptoUse.operation kind s.activeMech).pkcs1 = true := by
  have hpkcs1 : (CryptoUse.operation kind s.activeMech).pkcs1 = true ↔
      s.activeMech ∉ [ckmAesGcm, ckmRsaX509, ckmRsaPkcsOaep] := by
    rcases hkind with rfl | rfl <;> exact decide_eq_true_iff
  rw [hpkcs1, Session.resolveRsaEncdec]
  simp only [List.mem_cons, List.not_mem_nil, or_false, hm, false_or, not_or]
  split_ifs with hx hoaep
  · simp [hx]
  · simp [hoaep]
  · simp [hx, hoaep]

/-- And of signatures. -/
theorem resolveRsaMech_pkcs1 (hm : isRsaMech m = true) :
    (Session.resolveRsaMech be m data).map (·.1) = some .pkcs1 ↔ m ∈ pkcs1Mechs := by
  unfold Session.resolveRsaMech
  split_ifs with hpkcs hx509 hpss hoaep hhash
  · exact iff_of_true rfl (by rw [hpkcs]; decide)
  · exact iff_of_false (by simp) (by rw [hx509]; decide)
  · exact iff_of_false (by simp) (by rw [hpss]; decide)
  · exact iff_of_false (by simp) (by rw [hoaep]; decide)
  · have hnot : ∀ m ∈ pssMechs, m ∉ pkcs1Mechs := forall_mem_of_all (by decide)
    exact iff_of_false (by simp) (hnot m hhash)
  · -- What is left of the RSA mechanisms hashes and has this padding.
    refine iff_of_true (by simp) ?_
    simp only [isRsaMech, List.mem_append, hhash, or_false, decide_eq_true_eq, List.mem_cons,
      List.not_mem_nil, hpkcs, hx509, hpss, hoaep, false_or] at hm
    simp only [pkcs1Mechs, List.mem_cons, List.not_mem_nil, hpkcs, false_or, or_false]
    exact hm

end Padding

/-! ### Refused work -/

namespace Session

variable {be : Backend} {env : Env} {s : Session} {o : HsmObject}

theorem policyGate_error {rv : CkRv} (h : policyGate env s o = .error rv) :
    rv = .actionProhibited := by
  unfold policyGate at h
  split at h
  · cases h
  · split at h
    · cases h
      rfl
    · unfold refuseIf at h
      split_ifs at h
      cases h
      rfl

/-- The gate of `do_sign`. -/
theorem refused_doSign_gate (henv : env.fips = true) (hm : mechanismApproved s.activeMech = false)
    (data : Bytes) : Refused (s.doSign be env data) := by
  unfold doSign
  rw [refuseIf, if_pos ⟨henv, hm⟩]
  exact (by decide : CkRv.mechanismInvalid ≠ .ok)

/-- The gate of `do_encrypt`. -/
theorem refused_doEncrypt_gate (henv : env.fips = true)
    (hm : mechanismApproved s.activeMech = false) (data : Bytes) :
    Refused (s.doEncrypt be env data) := by
  unfold doEncrypt
  rw [refuseIf, if_pos ⟨henv, hm⟩]
  exact (by decide : CkRv.mechanismInvalid ≠ .ok)

theorem refused_doSign_mech (hm : s.activeMech ∉ signMechs) (data : Bytes) :
    Refused (s.doSign be env data) := by
  rw [mem_signMechs, not_or, Bool.not_eq_true, Bool.not_eq_true] at hm
  unfold doSign checkKeyState
  refine fails_check (by decide) ?_
  refine fails_orRefuse_bind (by decide) fun o _ => ?_
  refine fails_refuseIf_bind id fun _ => ?_
  refine fails_bind (fun rv hrv => by rw [policyGate_error hrv]; decide) fun _ => ?_
  refine fails_orRefuse_bind (by decide) fun k _ => ?_
  refine fails_check (by decide) ?_
  rw [hm.1, hm.2]
  exact (by decide : CkRv.mechanismInvalid ≠ .ok)

theorem refused_doVerify_mech (hm : s.activeMech ∉ signMechs ∨ s.activeMech = ckmRsaPkcsOaep)
    (data sig : Bytes) : Refused (s.doVerify be data sig) := by
  unfold doVerify checkKeyState
  refine fails_orRefuse_bind (by decide) fun o _ => ?_
  refine fails_refuseIf_bind id fun _ => ?_
  refine fails_orRefuse_bind (by decide) fun k _ => ?_
  refine fails_check (by decide) ?_
  rcases hm with hm | hm
  · rw [mem_signMechs, not_or, Bool.not_eq_true, Bool.not_eq_true] at hm
    simp only [hm.1, hm.2, Bool.false_eq_true, if_false]
    exact (by decide : CkRv.mechanismInvalid ≠ .ok)
  · simp only [hm]
    exact (by decide : CkRv.mechanismInvalid ≠ .ok)

theorem doSign_fips (hm : mechanismApproved s.activeMech = true) (b : Bool) (data : Bytes) :
    s.doSign be { env with fips := b } data = s.doSign be env data := by
  have hgate (env : Env) : ¬ (env.fips = true ∧ mechanismApproved s.activeMech = false) := by
    rw [hm]
    exact fun h => absurd h.2 (by decide)
  unfold doSign
  rw [refuseIf, if_neg (hgate _), refuseIf, if_neg (hgate _)]
  rfl

end Session

/-! ### Mechanisms of operations -/

namespace Hsm

variable {be : Backend} {env : Env} {hsm : Hsm} {h : CkUlong} {s : Session} {m : CkUlong}

/-- An operation has a mechanism that the start of some kind of operation accepts. -/
def Offered (s : Session) : Prop :=
  s.activeMech ≠ 0 → ∃ kind, OpKind.accepts kind s.activeMech = true

theorem offered_after {call : SessionCall} {e : Effect} (hs : hsm.getSession h = some s)
    (hcall : hsm.sessionCall be env h call = .ok e) (hoffered : Offered s) :
    Offered (e.after s) := by
  intro hop
  rcases activeMech_cases hs hcall hop with ⟨kind, m, key, -, hbegun⟩ | ⟨hsame, -⟩
  · -- A start takes only mechanisms of its own kind.
    exact ⟨kind, hbegun.activeMech ▸ hbegun.accepts⟩
  · rw [hsame] at hop ⊢
    exact hoffered hop

theorem offered_run (be : Backend) (calls : List ApiCall)
    (hs : (CS.run (api be) {} calls).getSession h = some s) : Offered s := by
  refine session_invariant (P := Offered) (fun _ _ _ hop => absurd rfl hop) ?_
    (fun _ _ hop => absurd rfl hop) (fun _ _ _ _ _ _ => offered_after) calls hs
  intro s userType hoffered hop
  rw [s.login_activeMech userType] at hop ⊢
  exact hoffered hop

/-! ### Refusals -/

/-- The work of the operation is refused, whatever the data. -/
def RefusesWork (be : Backend) (env : Env) (s : Session) : OpKind → Prop
  | .encrypt => ∀ data, Refused (s.doEncrypt be env data)
  | .decrypt => ∀ data, Refused (s.doDecrypt be data)
  | .digest => False
  | .sign => ∀ data, Refused (s.doSign be env data)
  | .verify => ∀ data sig, Refused (s.doVerify be data sig)

/-- An operation whose work is refused is not finished, in one call or several. -/
theorem fails_of_refusesWork {kind : OpKind} {data sig : CkBuf} {out : Option CkBuf}
    {c : SessionCall}
    (hc : c = .crypto (kind.wholeCall data out sig) ∨ c = .crypto (kind.finalCall out sig))
    (hwork : ∀ s, hsm.getSession h = some s → s.activeMech ≠ 0 → RefusesWork be env s kind) :
    Fails (fun e => e.answer.rv ≠ .ok) (hsm.sessionCall be env h c) := by
  cases kind with
  | encrypt => exact fails_encrypt (hc.imp (fun h => ⟨_, _, h⟩) fun h => ⟨_, h⟩) hwork
  | decrypt => exact fails_decrypt (hc.imp (fun h => ⟨_, _, h⟩) fun h => ⟨_, h⟩) hwork
  | digest =>
    rcases hc with rfl | rfl
    all_goals exact fails_opSession_bind fun s hs hop => (hwork s hs hop).elim
  | sign => exact fails_sign (hc.imp (fun h => ⟨_, _, h⟩) fun h => ⟨_, h⟩) hwork
  | verify => exact fails_verify (hc.imp (fun h => ⟨_, _, h⟩) fun h => ⟨_, h⟩) hwork

theorem fails_cUnwrapKey_mechanism (hm : m ∉ [ckmAesKeyWrap, ckmRsaPkcs, ckmRsaPkcsOaep])
    (p : CkMechanismParam) (w : CkUlong) (buf : CkBuf) (templ : List CkAttribute) (ph : Bool) :
    Fails (fun e => e.answer.rv ≠ .ok) (hsm.cUnwrapKey be h (some ⟨m, p⟩) w buf templ ph) := by
  have hbytes (ukey : HsmObject) : Refused (unwrapBytes be m ukey buf.bytes) := by
    simp only [List.mem_cons, List.not_mem_nil, or_false, not_or] at hm
    simp [unwrapBytes, hm, Refused, Fails]
  unfold cUnwrapKey checkInitialized checkKeyState
  refine fails_check (by decide) ?_
  refine fails_check (by decide) ?_
  refine fails_orRefuse_bind (by decide) fun st _ => ?_
  refine fails_orRefuse_bind (by decide) fun ukey _ => ?_
  refine fails_refuseIf_bind id fun _ => ?_
  exact (hbytes ukey).bind

/-- Signing with an approved mechanism does not depend on the switch. -/
theorem sessionCall_sign_fips (hs : hsm.getSession h = some s)
    (hm : mechanismApproved s.activeMech = true) (b : Bool) {data sig : CkBuf}
    {out : Option CkBuf} {c : SessionCall}
    (hc : c = .crypto (OpKind.wholeCall .sign data out sig) ∨
      c = .crypto (OpKind.finalCall .sign out sig)) :
    hsm.sessionCall be { env with fips := b } h c = hsm.sessionCall be env h c := by
  have hend (x : Bytes) :
      hsm.signEnd be { env with fips := b } s x out = hsm.signEnd be env s x out := by
    unfold signEnd
    rw [Session.doSign_fips hm b x]
    rfl
  -- The operation is that of the session, or there is none.
  have hbind {f g : Session → Except CkRv Effect} (hfg : f s = g s) :
      (hsm.opSession h >>= f) = hsm.opSession h >>= g := by
    rw [opSession, hs]
    by_cases hcheck : s.opCheck = .ok
    · simp only [orRefuse, Option.filter, hcheck, decide_true, if_true]
      exact hfg
    · simp only [orRefuse, Option.filter, hcheck, decide_false, Bool.false_eq_true, if_false]
      rfl
  rcases hc with rfl | rfl
  all_goals
    refine hbind ?_
    simp only [hend]

end Hsm

/-! ### Uses that conform -/

section Conforming

variable {kind : OpKind} {m : CkUlong}

theorem offered_cases (hm : ∃ kind, OpKind.accepts kind m = true) :
    m ∈ signMechs ∨ isDigestMech m = true ∨ m = ckmAesGcm := by
  have hcipher (henc : isEncMech m = true) :
      m ∈ signMechs ∨ isDigestMech m = true ∨ m = ckmAesGcm := by
    have hmechs : ∀ m ∈ [ckmRsaPkcs, ckmRsaX509, ckmRsaPkcsOaep, ckmAesGcm],
        m ∈ signMechs ∨ isDigestMech m = true ∨ m = ckmAesGcm := forall_mem_of_all (by decide)
    exact hmechs m (of_decide_eq_true henc)
  obtain ⟨kind, hkind⟩ := hm
  cases kind with
  | encrypt | decrypt => exact hcipher hkind
  | digest => exact .inr (.inl hkind)
  | sign | verify => exact .inl (mem_signMechs.mpr (Bool.or_eq_true _ _ ▸ hkind))

theorem mechanismApproved_cases (hm : mechanismApproved m = true) :
    m ∈ [ckmSha256RsaPkcsPss, ckmSha384RsaPkcsPss, ckmSha256, ckmAesGcm] ∨
      m ∉ signMechs ∧ isDigestMech m = false ∧ m ≠ ckmAesGcm := by
  have hcodes : ∀ m ∈ ([0x1041, 0x1047, 0x1048, 0x1049, 0x250, 0x251, 0x252, 0xE, 0xF, 0x10, 0x1087,
      0x1085, 0x1086] : List CkUlong),
      m ∈ [ckmSha256RsaPkcsPss, ckmSha384RsaPkcsPss, ckmSha256, ckmAesGcm] ∨
        m ∉ signMechs ∧ isDigestMech m = false ∧ m ≠ ckmAesGcm := forall_mem_of_all (by decide)
  exact hcodes m (of_decide_eq_true hm)

theorem mem_of_isDigestMech (hm : isDigestMech m = true) : m ∈ [ckmSha256, ckmSha384, ckmSha512] :=
  of_decide_eq_true hm

/-- It is enough to look at the work, for mechanisms that an operation can have. -/
theorem refusedInFips_operation
    (hwork : ∀ (be : Backend) (env : Env) (s : Session), env.fips = true → s.activeMech = m →
      (m ∈ signMechs ∨ isDigestMech m = true ∨ m = ckmAesGcm) → Hsm.RefusesWork be env s kind) :
    RefusedInFips (.operation kind m) := by
  rintro be calls - env h c henv ⟨⟨s, hs, hm⟩, data, out, sig, hc⟩
  have hrefused : ∀ s', (CS.run (Hsm.api be) {} calls).getSession h = some s' → s'.activeMech ≠ 0 →
      Hsm.RefusesWork be env s' kind := by
    intro s' hs' hop
    obtain rfl := Option.mem_unique hs hs'
    have hoffered := offered_cases (Hsm.offered_run be calls hs hop)
    rw [hm] at hoffered
    exact hwork be env s henv hm hoffered
  exact Hsm.finish_rv_ne (Hsm.fails_of_refusesWork hc hrefused) h

theorem refusedInFips_sign (hbad : ¬ (CryptoUse.operation .sign m).Approved) :
    RefusedInFips (.operation .sign m) := by
  refine refusedInFips_operation fun be env s henv hm _ data => ?_
  cases hgate : mechanismApproved m with
  | false => exact Session.refused_doSign_gate henv (hm ▸ hgate) data
  | true =>
    rcases mechanismApproved_cases hgate with hfour | ⟨hnot, -, -⟩
    · have happroved : ∀ m ∈ [ckmSha256RsaPkcsPss, ckmSha384RsaPkcsPss, ckmSha256, ckmAesGcm],
          (CryptoUse.operation .sign m).Approved := forall_mem_of_all (by decide)
      exact absurd (happroved m hfour) hbad
    · exact Session.refused_doSign_mech (hm ▸ hnot) data

theorem refusedInFips_verify (hbad : ¬ (CryptoUse.operation .verify m).Approved)
    (hm : m ∉ ckmRsaX509 :: pkcs1Mechs) : RefusedInFips (.operation .verify m) := by
  refine refusedInFips_operation fun be env s henv hmech _ data sig => ?_
  refine Session.refused_doVerify_mech ?_ data sig
  rw [hmech]
  by_cases hsign : m ∈ signMechs
  · have hcases : ∀ m ∈ signMechs, m ∈ ckmRsaX509 :: pkcs1Mechs ∨
        (CryptoUse.operation .verify m).Approved ∨ m = ckmRsaPkcsOaep :=
      forall_mem_of_all (by decide)
    exact .inr (((hcases m hsign).resolve_left hm).resolve_left hbad)
  · exact .inl hsign

theorem refusedInFips_encrypt (hbad : ¬ (CryptoUse.operation .encrypt m).Approved)
    (hkey : isDigestMech m = false) (hm : m ∉ [ckmSha256RsaPkcsPss, ckmSha384RsaPkcsPss]) :
    RefusedInFips (.operation .encrypt m) := by
  refine refusedInFips_operation fun be env s henv hmech hoffered data => ?_
  cases hgate : mechanismApproved m with
  | false => exact Session.refused_doEncrypt_gate henv (hmech ▸ hgate) data
  | true =>
    rcases mechanismApproved_cases hgate with hfour | ⟨hsign, hdigest, hgcm⟩
    · have hcases : ∀ m ∈ [ckmSha256RsaPkcsPss, ckmSha384RsaPkcsPss, ckmSha256, ckmAesGcm],
          m ∈ [ckmSha256RsaPkcsPss, ckmSha384RsaPkcsPss] ∨ isDigestMech m = true ∨
            (CryptoUse.operation .encrypt m).Approved := forall_mem_of_all (by decide)
      have hrest := ((hcases m hfour).resolve_left hm).resolve_left (hkey ▸ Bool.false_ne_true)
      exact absurd hrest hbad
    · -- Other numbers of the list never become the mechanism of an operation.
      rw [hdigest] at hoffered
      exact absurd hoffered (not_or.mpr ⟨hsign, not_or.mpr ⟨Bool.false_ne_true, hgcm⟩⟩)

theorem refusedInFips_decrypt (hbad : ¬ (CryptoUse.operation .decrypt m).Approved)
    (hkey : isDigestMech m = false) (hm : m ∉ signMechs) :
    RefusedInFips (.operation .decrypt m) := by
  refine refusedInFips_operation fun be env s henv hmech hoffered data => ?_
  rw [hkey] at hoffered
  have hgcm : m = ckmAesGcm := (hoffered.resolve_left hm).resolve_left Bool.false_ne_true
  exact absurd (hgcm ▸ by decide) hbad

theorem refusedInFips_digest (hbad : ¬ (CryptoUse.operation .digest m).Approved)
    (hm : m ∉ ckmRsaX509 :: ckmRsaPkcsOaep :: pkcs1Mechs) :
    RefusedInFips (.operation .digest m) := by
  refine refusedInFips_operation fun be env s henv hmech hoffered => hbad ?_
  rcases hoffered with hsign | hdigest | rfl
  · have hcases : ∀ m ∈ signMechs, m ∈ ckmRsaX509 :: ckmRsaPkcsOaep :: pkcs1Mechs ∨
        (CryptoUse.operation .digest m).Approved := forall_mem_of_all (by decide)
    exact (hcases m hsign).resolve_left hm
  · have hdigests : ∀ m ∈ [ckmSha256, ckmSha384, ckmSha512],
        (CryptoUse.operation .digest m).Approved := forall_mem_of_all (by decide)
    exact hdigests m (mem_of_isDigestMech hdigest)
  · decide

theorem notMem_of_not_approved (hm : m ∉ [ckmRsaPkcs, ckmRsaPkcsOaep])
    (hbad : ¬ (CryptoUse.wrap m).Approved) : m ∉ [ckmAesKeyWrap, ckmRsaPkcs, ckmRsaPkcsOaep] := by
  intro hmem
  rcases List.mem_cons.mp hmem with rfl | hrest
  · exact hbad (by decide)
  · exact hm hrest

theorem refusedInFips_of_conforming {u : CryptoUse} (hkey : u.Keyed) (hu : u.Conforming)
    (hbad : ¬ u.Approved) : RefusedInFips u := by
  cases u with
  | operation kind m =>
    cases kind with
    | encrypt => exact refusedInFips_encrypt hbad hkey hu
    | decrypt => exact refusedInFips_decrypt hbad hkey hu
    | digest => exact refusedInFips_digest hbad hu
    -- What signing gets wrong is in the other direction.
    | sign => exact refusedInFips_sign hbad
    | verify => exact refusedInFips_verify hbad hu
  | wrap m =>
    rintro be calls - env h c - ⟨p, w, k, buf, pul, rfl⟩
    exact Hsm.finish_rv_ne
      (Hsm.fails_cWrapKey_mechanism (notMem_of_not_approved hu hbad) env.seed p w k buf pul) h
  | unwrap m =>
    rintro be calls - env h c - ⟨p, w, buf, templ, ph, rfl⟩
    exact Hsm.finish_rv_ne
      (Hsm.fails_cUnwrapKey_mechanism (notMem_of_not_approved hu hbad) p w buf templ ph) h
  | derive m =>
    rintro be calls - env h c - ⟨p, k, templ, ph, rfl⟩
    exact Hsm.finish_rv_ne (Hsm.fails_cDeriveKey hu p k templ ph) h

theorem admittedInFips_of_conforming {u : CryptoUse} (hu : u.Conforming) (hreq : u.Required) :
    AdmittedInFips u := by
  cases u with
  | operation kind m =>
    rintro be calls - env h c ⟨⟨s, hs, rfl⟩, data, out, sig, hc⟩ hrv
    cases kind with
    | encrypt | decrypt => exact hreq.elim
    -- Neither a digest nor a verification looks at the switch.
    | digest | verify => rcases hc with rfl | rfl <;> exact hrv
    | sign =>
      have hcases : ∀ m ∈ sha2PssMechs, m ∈ [ckmRsaPkcsPss, ckmSha512RsaPkcsPss] ∨
          mechanismApproved m = true := forall_mem_of_all (by decide)
      have hgate := (hcases _ hreq).resolve_left hu
      have hsame := @Hsm.sessionCall_sign_fips be env _ h s hs hgate
      rw [Hsm.api, hsame true hc] at hrv
      rw [Hsm.api, hsame false hc]
      exact hrv
  | wrap m | unwrap m | derive m => exact hreq.elim

end Conforming

/-! ### Uses that do not -/

section Nonconforming

variable {u : CryptoUse} {start kind : OpKind} {m : CkUlong} {c : SessionCall}

def fipsEnv : Env := { fips := true }

/-- A session with an RSA key that has a value too. -/
def fipsSetup : List ApiCall :=
  openOne ++ [.onSession fipsEnv 1 (.object (.createObject
    [⟨ckaClass, .data (ulongBytes ckoPrivateKey)⟩, ⟨ckaValue, .data (List.replicate 32 1)⟩,
      ⟨ckaVhsmRsaPriv, .data [1]⟩] true))]

/-- An operation with the mechanism is begun. -/
def fipsBegin (start : OpKind) (m : CkUlong) : List ApiCall :=
  fipsSetup ++ [.onSession fipsEnv 1 (.crypto (start.initCall (some ⟨m, .absent⟩) 1))]

/-- The call that finishes it, perhaps as one of another kind. -/
def fipsFinish (kind : OpKind) : SessionCall :=
  .crypto (kind.wholeCall (.data [7]) (some (.data [0])) (.data [7]))

theorem fipsOn_begin (start : OpKind) (m : CkUlong) : ∀ c ∈ fipsBegin start m, FipsOn c := by
  intro c hc env h call hcall
  simp only [fipsBegin, fipsSetup, openOne, List.cons_append, List.nil_append, List.mem_cons,
    List.not_mem_nil, or_false] at hc
  rcases hc with rfl | rfl | rfl | rfl <;> cases hcall <;> rfl

theorem fipsOn_setup : ∀ c ∈ fipsSetup, FipsOn c := fun c hc =>
  fipsOn_begin .sign 0 c (List.mem_append_left _ hc)

/-- The operation that was begun has the mechanism. -/
def Begun (start : OpKind) (m : CkUlong) : Prop :=
  ((CS.run (Hsm.api .toy) {} (fipsBegin start m)).getSession 1).map (·.activeMech) = some m

instance (start : OpKind) (m : CkUlong) : Decidable (Begun start m) :=
  inferInstanceAs (Decidable (_ = _))

theorem makes_fipsFinish (hbegun : Begun start m) (kind : OpKind) :
    (CryptoUse.operation kind m).Makes
      (CS.run (Hsm.api .toy) {} (fipsBegin start m)) 1 (fipsFinish kind) := by
  obtain ⟨s, hs, hmech⟩ := Option.map_eq_some_iff.mp hbegun
  exact ⟨⟨s, hs, hmech⟩, _, _, _, .inl rfl⟩

/-- An operation with a mechanism that is not approved for it is begun and finished. -/
def Bypasses (start kind : OpKind) (m : CkUlong) : Prop :=
  Begun start m ∧ ¬ (CryptoUse.operation kind m).Approved ∧
    ((CS.run (Hsm.api .toy) {} (fipsBegin start m)).api .toy
      (.onSession fipsEnv 1 (fipsFinish kind))).1.rv = .ok

instance (start kind : OpKind) (m : CkUlong) : Decidable (Bypasses start kind m) :=
  inferInstanceAs (Decidable (_ ∧ _ ∧ _))

theorem not_conformsToFips_operation (h : Bypasses start kind m) :
    ¬ ConformsToFips (.operation kind m) := by
  obtain ⟨hbegun, hbad, hok⟩ := h
  intro hconforms
  exact hconforms.refused hbad .toy (fipsBegin start m) (fipsOn_begin start m) fipsEnv 1 _ rfl
    (makes_fipsFinish hbegun kind) hok

theorem not_conformsToFips_key (hbad : ¬ u.Approved)
    (hmakes : u.Makes (CS.run (Hsm.api .toy) {} fipsSetup) 1 c)
    (hok : ((CS.run (Hsm.api .toy) {} fipsSetup).api .toy (.onSession fipsEnv 1 c)).1.rv = .ok) :
    ¬ ConformsToFips u := fun h =>
  h.refused hbad .toy fipsSetup fipsOn_setup fipsEnv 1 c rfl hmakes hok

theorem not_conformsToFips_verify (hm : m ∈ ckmRsaX509 :: pkcs1Mechs) :
    ¬ ConformsToFips (.operation .verify m) := by
  have hmechs : ∀ m ∈ ckmRsaX509 :: pkcs1Mechs, Bypasses .verify .verify m :=
    forall_mem_of_all (by decide +kernel)
  exact not_conformsToFips_operation (hmechs m hm)

/-- A signature with RSA-PSS that was begun is finished by an encryption, which looks at the
mechanism of the signature and has PKCS#1 v1.5 padding. -/
theorem not_conformsToFips_encrypt (hm : m ∈ [ckmSha256RsaPkcsPss, ckmSha384RsaPkcsPss]) :
    ¬ ConformsToFips (.operation .encrypt m) := by
  have hmechs : ∀ m ∈ [ckmSha256RsaPkcsPss, ckmSha384RsaPkcsPss], Bypasses .sign .encrypt m :=
    forall_mem_of_all (by decide +kernel)
  exact not_conformsToFips_operation (hmechs m hm)

theorem not_conformsToFips_decrypt (hm : m ∈ signMechs) :
    ¬ ConformsToFips (.operation .decrypt m) := by
  have hmechs : ∀ m ∈ signMechs, Bypasses .sign .decrypt m :=
    forall_mem_of_all (by decide +kernel)
  exact not_conformsToFips_operation (hmechs m hm)

theorem not_conformsToFips_digest (hm : m ∈ ckmRsaX509 :: ckmRsaPkcsOaep :: pkcs1Mechs) :
    ¬ ConformsToFips (.operation .digest m) := by
  have hmechs : ∀ m ∈ ckmRsaX509 :: ckmRsaPkcsOaep :: pkcs1Mechs, Bypasses .sign .digest m :=
    forall_mem_of_all (by decide +kernel)
  exact not_conformsToFips_operation (hmechs m hm)

theorem not_conformsToFips_sign (hm : m ∈ [ckmRsaPkcsPss, ckmSha512RsaPkcsPss]) :
    ¬ ConformsToFips (.operation .sign m) := by
  have hmechs : ∀ m ∈ [ckmRsaPkcsPss, ckmSha512RsaPkcsPss], Begun .sign m ∧ m ∈ sha2PssMechs ∧
      ((CS.run (Hsm.api .toy) {} (fipsBegin .sign m)).api .toy
        (.onSession { fipsEnv with fips := true } 1 (fipsFinish .sign))).1.rv = .mechanismInvalid ∧
      ((CS.run (Hsm.api .toy) {} (fipsBegin .sign m)).api .toy
        (.onSession { fipsEnv with fips := false } 1 (fipsFinish .sign))).1.rv = .ok :=
    forall_mem_of_all (by decide +kernel)
  obtain ⟨hbegun, hpss, hrefused, hok⟩ := hmechs m hm
  intro h
  have hwithout := h.admitted hpss .toy (fipsBegin .sign m) (fipsOn_begin .sign m) fipsEnv 1 _
    (makes_fipsFinish hbegun .sign) hrefused
  exact absurd (hok.symm.trans hwithout) (by decide)

theorem not_conformsToFips_wrap (hm : m ∈ [ckmRsaPkcs, ckmRsaPkcsOaep]) :
    ¬ ConformsToFips (.wrap m) ∧ ¬ ConformsToFips (.unwrap m) := by
  have hmechs : ∀ m ∈ [ckmRsaPkcs, ckmRsaPkcsOaep],
      ¬ (CryptoUse.wrap m).Approved ∧ ¬ (CryptoUse.unwrap m).Approved ∧
      ((CS.run (Hsm.api .toy) {} fipsSetup).api .toy (.onSession fipsEnv 1
        (.key (.wrapKey (some ⟨m, .absent⟩) 1 1 (.data (List.replicate 32 0)) true)))).1.rv = .ok ∧
      ((CS.run (Hsm.api .toy) {} fipsSetup).api .toy (.onSession fipsEnv 1
        (.key (.unwrapKey (some ⟨m, .absent⟩) 1 (.data [1]) [] true)))).1.rv = .ok :=
    forall_mem_of_all (by decide +kernel)
  obtain ⟨hbad, hbad', hok, hok'⟩ := hmechs m hm
  exact ⟨not_conformsToFips_key hbad ⟨_, _, _, _, _, rfl⟩ hok,
    not_conformsToFips_key hbad' ⟨_, _, _, _, _, rfl⟩ hok'⟩

theorem not_conformsToFips_derive : ¬ ConformsToFips (.derive ckmEcdh1Derive) := by
  refine not_conformsToFips_key (c := .key (.deriveKey
    (some ⟨ckmEcdh1Derive, .ecdh1 0 (.null 0) (.data [1])⟩) 1 [] true)) (by decide)
    ⟨_, _, _, _, rfl⟩ ?_
  decide +kernel

end Nonconforming

/-- A use conforms exactly when it is one of those above. -/
theorem conformsToFips_iff {u : CryptoUse} (hkey : u.Keyed) : ConformsToFips u ↔ u.Conforming := by
  constructor
  · intro h
    by_contra hnot
    cases u with
    | operation kind m =>
      cases kind with
      | encrypt => exact not_conformsToFips_encrypt (not_not.mp hnot) h
      | decrypt => exact not_conformsToFips_decrypt (not_not.mp hnot) h
      | digest => exact not_conformsToFips_digest (not_not.mp hnot) h
      | sign => exact not_conformsToFips_sign (not_not.mp hnot) h
      | verify => exact not_conformsToFips_verify (not_not.mp hnot) h
    | wrap m => exact (not_conformsToFips_wrap (not_not.mp hnot)).1 h
    | unwrap m => exact (not_conformsToFips_wrap (not_not.mp hnot)).2 h
    | derive m =>
      obtain rfl : m = ckmEcdh1Derive := not_not.mp hnot
      exact not_conformsToFips_derive h
  · intro hu
    exact ⟨refusedInFips_of_conforming hkey hu, admittedInFips_of_conforming hu⟩

/-- Signing with RSA and PKCS#1 v1.5 padding is refused, and encryption with it. -/
theorem conformsToFips_pkcs1 :
    ConformsToFips (.operation .sign ckmRsaPkcs) ∧
      ConformsToFips (.operation .encrypt ckmRsaPkcs) :=
  ⟨(@conformsToFips_iff (.operation .sign ckmRsaPkcs) trivial).mpr
      (by decide : ckmRsaPkcs ∉ [ckmRsaPkcsPss, ckmSha512RsaPkcsPss]),
    (@conformsToFips_iff (.operation .encrypt ckmRsaPkcs)
      (by decide : isDigestMech ckmRsaPkcs = false)).mpr
      (by decide : ckmRsaPkcs ∉ [ckmSha256RsaPkcsPss, ckmSha384RsaPkcsPss])⟩

/-- Verification and wrapping with it are not refused, nor is encryption when it finishes a
signature with RSA-PSS; and signing with RSA-PSS and SHA-512 is refused. -/
theorem not_conformsToFips_uses :
    ¬ ConformsToFips (.operation .verify ckmRsaPkcs) ∧ ¬ ConformsToFips (.wrap ckmRsaPkcs) ∧
      ¬ ConformsToFips (.operation .encrypt ckmSha256RsaPkcsPss) ∧
      ¬ ConformsToFips (.operation .sign ckmSha512RsaPkcsPss) :=
  ⟨not_conformsToFips_verify (by decide), (not_conformsToFips_wrap (by decide)).1,
    not_conformsToFips_encrypt (by decide), not_conformsToFips_sign (by decide)⟩

end VirtualHsm
