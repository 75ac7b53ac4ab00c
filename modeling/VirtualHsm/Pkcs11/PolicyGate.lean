import VirtualHsm.CS.Decimal
import VirtualHsm.Ledger.LedgerClient
import VirtualHsm.Pkcs11.Operation

/-!
# The policy gate in front of signing

A key may carry a policy document. Without a quorum, or without a ledger client, `do_sign`
evaluates the document. With both, it asks the ledger and does not look at the document any
further; the ledger evaluates what was published there, and admits everything when nothing was.
-/

namespace VirtualHsm

/-! ### What signing needs -/

/-- The object has an attribute that a key can be built from. -/
def HsmObject.HasKey (o : HsmObject) : Prop :=
  (∃ t ∈ [ckaVhsmRsaPriv, ckaVhsmEcPriv, ckaVhsmRsaPub, ckaVhsmEcPub],
    (o.nonEmpty t).isSome = true) ∨
  (o.nonEmpty ckaEcParams).isSome = true ∧ (o.nonEmpty ckaEcPoint).isSome = true

/-- The mechanism signs. -/
def SignMech (m : CkUlong) : Prop :=
  isRsaMech m = true ∧ m ≠ ckmRsaPkcsOaep ∨ isEcMech m = true

/-- Everything but the policy that a signature needs from the call and the key. -/
structure Signable (env : Env) (s : Session) (o : HsmObject) : Prop where
  approved : ¬ (env.fips = true ∧ mechanismApproved s.activeMech = false)
  active : o.getKeyState = .active
  hasKey : o.HasKey
  mechanism : SignMech s.activeMech

theorem hasKey_of_buildKeyFromAttrs {be : Backend} {o : HsmObject} {k : be.Pkey}
    (hk : buildKeyFromAttrs be o = some k) : o.HasKey := by
  have hpresent (t : CkUlong) (ht : t ∈ [ckaVhsmRsaPriv, ckaVhsmEcPriv, ckaVhsmRsaPub, ckaVhsmEcPub])
      (v : Bytes) (hv : o.nonEmpty t = some v) : o.HasKey :=
    .inl ⟨t, ht, by rw [hv]; rfl⟩
  unfold buildKeyFromAttrs at hk
  -- The attributes are tried in this order; the first one that is there decides.
  cases hrsa : o.nonEmpty ckaVhsmRsaPriv with
  | some v => exact hpresent _ (by simp) v hrsa
  | none =>
  cases hec : o.nonEmpty ckaVhsmEcPriv with
  | some v => exact hpresent _ (by simp) v hec
  | none =>
  cases hpub : o.nonEmpty ckaVhsmRsaPub with
  | some v => exact hpresent _ (by simp) v hpub
  | none =>
  cases hpoint : o.nonEmpty ckaVhsmEcPub with
  | some v => exact hpresent _ (by simp) v hpoint
  | none =>
    cases hshim : be.shim with
    | false => simp [hrsa, hec, hpub, hpoint, hshim] at hk
    | true =>
      simp only [hrsa, hec, hpub, hshim, if_true, buildFromParamsPoint] at hk
      cases hparams : o.nonEmpty ckaEcParams with
      | none => simp [hparams] at hk
      | some params =>
        cases hpt : o.nonEmpty ckaEcPoint with
        | none => simp [hparams, hpt] at hk
        | some point => exact .inr ⟨by rw [hparams]; rfl, by rw [hpt]; rfl⟩

/-- A library in which every key is of one family. -/
def Backend.family (b : KeyBase) (shim : Bool) : Backend :=
  { Backend.toy with shim := shim, base := fun _ => b }

theorem exists_buildKeyFromAttrs {o : HsmObject} (ho : o.HasKey) (b : KeyBase) :
    ∃ shim k, buildKeyFromAttrs (.family b shim) o = some k := by
  unfold buildKeyFromAttrs
  cases hrsa : o.nonEmpty ckaVhsmRsaPriv with
  | some v => exact ⟨true, _, rfl⟩
  | none =>
  cases hec : o.nonEmpty ckaVhsmEcPriv with
  | some v => exact ⟨true, _, rfl⟩
  | none =>
  cases hpub : o.nonEmpty ckaVhsmRsaPub with
  | some v => exact ⟨true, _, rfl⟩
  | none =>
  cases hpoint : o.nonEmpty ckaVhsmEcPub with
  | some v =>
    refine ⟨false, .ec, ?_⟩
    simp only [buildFromParamsPoint]
    cases o.nonEmpty ckaEcParams <;> cases o.nonEmpty ckaEcPoint <;> rfl
  | none =>
    -- None of the four attributes is there, so it is the pair of parameters and point.
    rcases ho with ⟨t, ht, hsome⟩ | ⟨hparams, hpt⟩
    · simp only [List.mem_cons, List.not_mem_nil, or_false] at ht
      rcases ht with rfl | rfl | rfl | rfl <;> simp_all
    · obtain ⟨params, hparams⟩ := Option.isSome_iff_exists.mp hparams
      obtain ⟨point, hpt⟩ := Option.isSome_iff_exists.mp hpt
      refine ⟨true, .ec, ?_⟩
      simp only [buildFromParamsPoint, hparams, hpt]
      rfl

theorem isEcMech_of_isRsaMech {m : CkUlong} (hm : isRsaMech m = true) : isEcMech m = false := by
  have hdisjoint : ∀ m ∈ [ckmRsaPkcs, ckmRsaX509, ckmSha256RsaPkcs, ckmSha384RsaPkcs,
      ckmSha512RsaPkcs, ckmRsaPkcsOaep, ckmRsaPkcsPss] ++ pssMechs, isEcMech m = false :=
    forall_mem_of_all (by decide)
  exact hdisjoint m (of_decide_eq_true hm)

namespace Session

variable {be : Backend} {env : Env} {s : Session} {o : HsmObject} {data sig : Bytes}

theorem resolveRsaMech_eq_none {m : CkUlong} (h : resolveRsaMech be m data = none) :
    m = ckmRsaPkcsOaep := by
  simp only [resolveRsaMech] at h
  split_ifs at h with _ _ _ hoaep
  exact hoaep

theorem resolveRsaMech_oaep : resolveRsaMech be ckmRsaPkcsOaep data = none := rfl

theorem active_of_keyStateError {st : KeyState} (h : keyStateError st true = .ok) :
    st = .active := by
  unfold keyStateError at h
  split_ifs at h with hrevoked hactive
  by_contra hne
  exact hactive ⟨rfl, hne⟩

theorem doSign_eq_ok (ho : s.opObject = some o) (h : s.doSign be env data = .ok sig) :
    Signable env s o ∧ policyGate env s o = .ok () := by
  obtain ⟨happroved, o', ho', hstate, h⟩ := by
    simpa only [doSign, checkKeyState, refuseIf_bind_eq_ok, orRefuse_bind_eq_ok] using h
  obtain rfl : o = o' := Option.mem_unique ho ho'
  obtain ⟨_, hgate, h⟩ := bind_eq_ok.mp h
  obtain ⟨k, hk, -, h⟩ := by
    simpa only [refuseIf_bind_eq_ok, orRefuse_bind_eq_ok] using h
  refine ⟨⟨happroved, active_of_keyStateError (not_not.mp hstate),
    hasKey_of_buildKeyFromAttrs hk, ?_⟩, hgate⟩
  by_cases hrsa : isRsaMech s.activeMech = true
  · rw [if_pos hrsa] at h
    obtain ⟨p, hp, -⟩ := orRefuse_bind_eq_ok.mp h
    refine .inl ⟨hrsa, fun hoaep => ?_⟩
    rw [hoaep, resolveRsaMech_oaep] at hp
    cases hp
  · rw [if_neg hrsa] at h
    by_cases hec : isEcMech s.activeMech = true
    · exact .inr hec
    · rw [if_neg hec] at h
      cases h

theorem exists_doSign (ho : s.opObject = some o) (hsign : Signable env s o)
    (hgate : policyGate env s o = .ok ()) : ∃ be sig, s.doSign be env [] = .ok sig := by
  have hstate : keyStateError o.getKeyState true = .ok := by
    rw [hsign.active]
    rfl
  rcases hsign.mechanism with ⟨hrsa, hoaep⟩ | hec
  · obtain ⟨shim, k, hk⟩ := exists_buildKeyFromAttrs hsign.hasKey .rsa
    have hfits : ¬ keyMismatch (.family .rsa shim) s.activeMech k := by
      rintro (⟨-, hbase⟩ | ⟨hec, -⟩)
      · exact hbase rfl
      · rw [isEcMech_of_isRsaMech hrsa] at hec
        cases hec
    cases hresolve : resolveRsaMech (.family .rsa shim) s.activeMech [] with
    | none => exact absurd (resolveRsaMech_eq_none hresolve) hoaep
    | some p =>
      refine ⟨.family .rsa shim, p.2.2.2, ?_⟩
      simp only [doSign, refuseIf, checkKeyState, orRefuse, ho, hk, hgate, hstate, hresolve,
        if_neg hsign.approved, if_neg hfits, if_pos hrsa, bind, Except.bind, ne_eq,
        not_true_eq_false, if_false]
      rfl
  · obtain ⟨shim, k, hk⟩ := exists_buildKeyFromAttrs hsign.hasKey .ec
    have hrsa : ¬ isRsaMech s.activeMech = true := by
      intro hrsa
      rw [isEcMech_of_isRsaMech hrsa] at hec
      cases hec
    have hfits : ¬ keyMismatch (.family .ec shim) s.activeMech k := by
      rintro (⟨hrsa', -⟩ | ⟨-, hbase⟩)
      · exact hrsa hrsa'
      · exact hbase rfl
    refine ⟨.family .ec shim, resolveEcMech (.family .ec shim) s.activeMech [], ?_⟩
    simp only [doSign, refuseIf, checkKeyState, orRefuse, ho, hk, hgate, hstate,
      if_neg hsign.approved, if_neg hfits, if_neg hrsa, if_pos hec, bind, Except.bind, ne_eq,
      not_true_eq_false, if_false]
    rfl

end Session

/-! ### The two sources of a decision -/

/-- The surroundings with a ledger client that answers with what the contract returns. -/
def Env.withClient (env : Env) (client : Option LedgerClient) : Env :=
  { env with
    ledger := client.map fun c keyId actor mech nowMs => (c.verifyPolicy keyId actor mech nowMs).ok }

section Gate

variable (env : Env) (client : Option LedgerClient) (s : Session) (o : HsmObject) (doc : Bytes)

/-- The name of the operation's key on the ledger. -/
def gateKeyId : String := o.keyId (env.address s.signKey)

/-- The attestations of the chosen source: the registry on the ledger for a quorum when there is
a client, the attribute of the key otherwise. -/
def attestationCount (policy : KeyPolicy) : Nat :=
  match if 0 < policy.minAttestations then client else none with
  | some c =>
    match c.world with
    | .ok st => (SignatureLedger.attestationsOf st (gateKeyId env s o)).length
    | .error _ => 0
  | none => Session.localAttestations o

/-- The document parses and admits actor, mechanism and time, with enough attestations. -/
def PolicyHolds : Prop :=
  ∃ policy, (env.parseJson doc).bind KeyPolicy.fromJson = some policy ∧
    policy.Admits s.actor (mechToStr s.activeMech) env.nowMs
      (attestationCount env client s o policy)

/-- Whatever the library and the data, a signature is only made when the document admits it. -/
def FailsClosed : Prop :=
  ∀ (be : Backend) (data sig : Bytes), s.doSign be (env.withClient client) data = .ok sig →
    PolicyHolds env client s o doc

/-- Where the document asks for a quorum, a signature is possible and the ledger's answer is
positive, the document admits the signature as well. -/
def LedgerAgrees : Prop :=
  ∀ policy c st, (env.parseJson doc).bind KeyPolicy.fromJson = some policy →
    0 < policy.minAttestations → client = some c → c.world = .ok st →
    SignatureLedger.Verified st (gateKeyId env s o) s.actor (mechToStr s.activeMech) env.nowMs →
    Signable env s o →
    policy.Admits s.actor (mechToStr s.activeMech) env.nowMs
      (SignatureLedger.attestationsOf st (gateKeyId env s o)).length

end Gate

variable {env : Env} {client : Option LedgerClient} {s : Session} {o : HsmObject} {doc : Bytes}

theorem policyGate_eq_ok (hdoc : o.nonEmpty ckaVhsmPolicy = some doc) :
    Session.policyGate env s o = .ok () ↔
      ∃ policy, (env.parseJson doc).bind KeyPolicy.fromJson = some policy ∧
        Session.policyAdmits env s o policy = true := by
  unfold Session.policyGate
  rw [hdoc]
  cases hparse : (env.parseJson doc).bind KeyPolicy.fromJson with
  | none => simp [hparse]
  | some policy => simp [hparse, refuseIf]

theorem policyAdmits_ledger {policy : KeyPolicy} {c : LedgerClient}
    (hquorum : 0 < policy.minAttestations) :
    Session.policyAdmits (env.withClient (some c)) s o policy = true ↔
      ∃ st, c.world = .ok st ∧ SignatureLedger.Verified st (gateKeyId env s o) s.actor
        (mechToStr s.activeMech) env.nowMs := by
  rw [← LedgerClient.verifyPolicy_ok_iff]
  simp only [Session.policyAdmits, Env.withClient, hquorum, if_true, Option.map_some]
  rfl

/-- Without a quorum or a client the document is evaluated. -/
theorem policyAdmits_local {policy : KeyPolicy}
    (hlocal : (if 0 < policy.minAttestations then client else none) = none)
    (h : Session.policyAdmits (env.withClient client) s o policy = true) :
    policy.Admits s.actor (mechToStr s.activeMech) env.nowMs
      (attestationCount env client s o policy) := by
  have hledger : (if 0 < policy.minAttestations then (env.withClient client).ledger else none) =
      none := by
    by_cases hquorum : 0 < policy.minAttestations
    · rw [if_pos hquorum] at hlocal
      rw [if_pos hquorum, Env.withClient, hlocal]
      rfl
    · rw [if_neg hquorum]
  simp only [Session.policyAdmits, hledger] at h
  simp only [attestationCount, hlocal]
  apply KeyPolicy.evaluate_eq_ok
  cases heval : policy.evaluate s.actor (mechToStr s.activeMech) env.nowMs
      (Session.localAttestations o) with
  | ok u => rfl
  | error reason =>
    have herror : (policy.evaluate s.actor (mechToStr s.activeMech) (env.withClient client).nowMs
        (Session.localAttestations o)) = .error reason := heval
    rw [herror] at h
    cases h

/-! ### The gate -/

/-- The gate in front of a key with a document fails closed exactly when the ledger agrees with
the document. -/
theorem failsClosed_iff (ho : s.opObject = some o) (hdoc : o.nonEmpty ckaVhsmPolicy = some doc) :
    FailsClosed env client s o doc ↔ LedgerAgrees env client s o doc := by
  constructor
  · intro hclosed policy c st hparse hquorum hclient hworld hverified hsign
    subst hclient
    have hgate : Session.policyGate (env.withClient (some c)) s o = .ok () :=
      (policyGate_eq_ok hdoc).mpr
        ⟨policy, hparse, (policyAdmits_ledger hquorum).mpr ⟨st, hworld, hverified⟩⟩
    -- The surroundings differ in the ledger only, which nothing else looks at.
    have hsign' : Signable (env.withClient (some c)) s o :=
      ⟨hsign.approved, hsign.active, hsign.hasKey, hsign.mechanism⟩
    obtain ⟨be, sig, hsig⟩ := Session.exists_doSign ho hsign' hgate
    obtain ⟨policy', hparse', hadmits⟩ := hclosed be [] sig hsig
    obtain rfl : policy = policy' := Option.mem_unique hparse hparse'
    simpa only [attestationCount, if_pos hquorum, hworld] using hadmits
  · intro hagrees be data sig hsig
    obtain ⟨hsign, hgate⟩ := Session.doSign_eq_ok ho hsig
    obtain ⟨policy, hparse, hadmits⟩ := (policyGate_eq_ok hdoc).mp hgate
    refine ⟨policy, hparse, ?_⟩
    cases hsource : (if 0 < policy.minAttestations then client else none) with
    | none => exact policyAdmits_local hsource hadmits
    | some c =>
      have hquorum : 0 < policy.minAttestations := by
        by_contra hnone
        rw [if_neg hnone] at hsource
        cases hsource
      rw [if_pos hquorum] at hsource
      subst hsource
      obtain ⟨st, hworld, hverified⟩ := (policyAdmits_ledger hquorum).mp hadmits
      have hcount := hagrees policy c st hparse hquorum rfl hworld hverified
        ⟨hsign.approved, hsign.active, hsign.hasKey, hsign.mechanism⟩
      simpa only [attestationCount, if_pos hquorum, hworld] using hcount

/-! ### A key whose time is over -/

/-- A key with an RSA private key and a document. -/
def expiredKey : HsmObject :=
  (({ type := .privateKey } : HsmObject).setAttribute ckaVhsmRsaPriv [1]).setAttribute ckaVhsmPolicy
    [0]

/-- A session that is about to sign with it. -/
def expiredSession : Session :=
  { Session.opened 1 0 ckfSerialSession with
    objectStore := (({} : ObjectStore).createObject expiredKey).2
    activeMech := ckmRsaPkcs, signKey := 1 }

/-- The document asks for one attestation and ended at 1; it is 2 now. -/
def expiredEnv : Env :=
  { nowMs := 2
    parseJson := fun _ => some (.obj [("not_after_ms", .int 1), ("min_attestations", .int 1)]) }

/-- Without a client the document is enforced. -/
theorem failsClosed_expired : FailsClosed expiredEnv none expiredSession expiredKey [0] := by
  refine (failsClosed_iff rfl rfl).mpr ?_
  intro policy c st _ _ hclient
  cases hclient

/-- With a client and nothing published on the ledger, a signature is made. -/
theorem not_failsClosed_expired :
    ¬ FailsClosed expiredEnv (some ⟨.ok fun _ => none⟩) expiredSession expiredKey [0] := by
  intro hclosed
  obtain ⟨policy, hparse, hadmits⟩ := hclosed .toy [] [] (by decide +kernel)
  cases hparse
  exact hadmits.window.2 (by decide)

/-! ### The local attestation count -/

/-- How an application may store the count in `CKA_VHSM_ATTESTATION_COUNT`. -/
inductive CountForm
  | decimal
  | raw
  deriving DecidableEq, Repr

def CountForm.bytes (count : Nat) : CountForm → Bytes
  | .decimal => CS.toDecimal count
  | .raw => CS.toLe 8 count

/-- For every policy with a quorum that is satisfied otherwise, the gate compares the count. The
quorum is an `int`. -/
def CountsRight (form : CountForm) (count : Nat) : Prop :=
  ∀ (p : KeyPolicy) (actor mechanism : String) (nowMs : Int), 1 ≤ p.minAttestations →
    p.minAttestations < 2 ^ 31 → p.WindowOk nowMs → p.MechanismOk mechanism → p.SignerOk actor →
    (p.evaluate actor mechanism nowMs (parseAttrCount (form.bytes count)) = .ok () ↔
      p.minAttestations ≤ count)

theorem evaluate_eq_ok_iff_quorum {p : KeyPolicy} {actor mechanism : String} {nowMs : Int} {n : Nat}
    (hwindow : p.WindowOk nowMs) (hmech : p.MechanismOk mechanism) (hsigner : p.SignerOk actor) :
    p.evaluate actor mechanism nowMs n = .ok () ↔ p.minAttestations ≤ (n : Int).bmod (2 ^ 32) := by
  rw [KeyPolicy.evaluate, if_neg hwindow.1, if_neg hwindow.2, if_neg (not_not.mpr hmech),
    if_neg (not_not.mpr hsigner)]
  split_ifs with hquorum
  · exact iff_of_false (by simp) (Int.not_le.mpr hquorum)
  · exact iff_of_true rfl (Int.not_lt.mp hquorum)

theorem countsRight_iff_forall {form : CountForm} {count : Nat} :
    CountsRight form count ↔ ∀ n : Int, 1 ≤ n → n < 2 ^ 31 →
      (n ≤ (parseAttrCount (form.bytes count) : Int).bmod (2 ^ 32) ↔ n ≤ count) := by
  constructor
  · intro h n hpos hlt
    have hwindow : ({ minAttestations := n } : KeyPolicy).WindowOk 0 := by simp [KeyPolicy.WindowOk]
    have hn := h { minAttestations := n } "" "" 0 hpos hlt hwindow (.inl rfl) (.inl rfl)
    rwa [evaluate_eq_ok_iff_quorum hwindow (.inl rfl) (.inl rfl)] at hn
  · intro h p actor mechanism nowMs hpos hlt hwindow hmech hsigner
    rw [evaluate_eq_ok_iff_quorum hwindow hmech hsigner]
    exact h _ hpos hlt

theorem isDigit_iff {b : UInt8} :
    (decide (48 ≤ b) && decide (b ≤ 57)) = true ↔ 48 ≤ b.toNat ∧ b.toNat ≤ 57 := by
  rw [Bool.and_eq_true, decide_eq_true_eq, decide_eq_true_eq, UInt8.le_iff_toNat_le,
    UInt8.le_iff_toNat_le]
  rfl

theorem parseAttrCount_toDecimal {count : Nat} (hcount : count < 2 ^ 64) :
    parseAttrCount (CS.toDecimal count) = count := by
  have hdigits : ((CS.toDecimal count).all fun b => 48 ≤ b && b ≤ 57) = true :=
    List.all_eq_true.mpr fun b hb => isDigit_iff.mpr (CS.mem_toDecimal hb)
  have hvalue := CS.digitsValue_toDecimal count
  rw [CS.digitsValue] at hvalue
  rw [parseAttrCount, if_pos hdigits, hvalue, if_pos hcount]

theorem foldl_digits_lt (v : Bytes) (n : Nat) (hv : ∀ b ∈ v, b.toNat ≤ 57) :
    v.foldl (fun n b => 10 * n + (b.toNat - 48)) n < (n + 1) * 10 ^ v.length := by
  induction v generalizing n with
  | nil => simp
  | cons b v ih =>
    obtain ⟨hb, hv⟩ := List.forall_mem_cons.mp hv
    have hle : 10 * n + (b.toNat - 48) + 1 ≤ (n + 1) * 10 := by omega
    calc _ < (10 * n + (b.toNat - 48) + 1) * 10 ^ v.length := ih _ hv
      _ ≤ (n + 1) * 10 * 10 ^ v.length := Nat.mul_le_mul_right _ hle
      _ = _ := by rw [List.length_cons, Nat.pow_succ', Nat.mul_assoc]

/-- Eight raw bytes are read as what they are, unless they are all digits; then the first is not 255
and the last not zero. -/
theorem parseAttrCount_toLe {count : Nat} (hcount : count < 2 ^ 64) :
    parseAttrCount (CS.toLe 8 count) = count ∨
      parseAttrCount (CS.toLe 8 count) < 10 ^ 8 ∧ 2 ^ 31 ≤ count ∧ count % 2 ^ 32 ≠ 2 ^ 31 - 1 := by
  rw [parseAttrCount]
  by_cases hdigits : ((CS.toLe 8 count).all fun b => 48 ≤ b && b ≤ 57) = true
  · have hall : ∀ b ∈ CS.toLe 8 count, 48 ≤ b.toNat ∧ b.toNat ≤ 57 := fun b hb =>
      isDigit_iff.mp (List.all_eq_true.mp hdigits b hb)
    have hvalue := foldl_digits_lt (CS.toLe 8 count) 0 fun b hb => (hall b hb).2
    rw [CS.length_toLe] at hvalue
    have hfirst := (hall (UInt8.ofNat (count % 256)) List.mem_cons_self).2
    have hlast := (hall (UInt8.ofNat (count / 256 / 256 / 256 / 256 / 256 / 256 / 256 % 256))
      (by simp [CS.toLe])).1
    have hbyte (n : Nat) : (UInt8.ofNat (n % 256)).toNat = n % 256 := by simp
    rw [hbyte] at hfirst hlast
    rw [if_pos hdigits, if_pos (Nat.lt_trans hvalue (by decide))]
    exact .inr ⟨hvalue, by omega, by omega⟩
  · rw [if_neg hdigits, List.take_of_length_le (CS.length_toLe 8 count).le,
      CS.ofLe_toLe_of_lt (by simpa using hcount)]
    exact .inl rfl

theorem parseAttrCount_bytes {count : Nat} (hcount : count < 2 ^ 64) (form : CountForm) :
    parseAttrCount (form.bytes count) = count ∨
      parseAttrCount (form.bytes count) < 10 ^ 8 ∧ 2 ^ 31 ≤ count ∧
        count % 2 ^ 32 ≠ 2 ^ 31 - 1 := by
  cases form with
  | decimal => exact .inl (parseAttrCount_toDecimal hcount)
  | raw => exact parseAttrCount_toLe hcount

/-- **The local attestation count** is compared as it should be up to the largest `int`, and beyond
that only where the cast yields the largest `int`. -/
theorem countsRight_iff {count : Nat} (hcount : count < 2 ^ 64) (form : CountForm) :
    CountsRight form count ↔ count < 2 ^ 31 ∨ count % 2 ^ 32 = 2 ^ 31 - 1 := by
  rw [countsRight_iff_forall]
  rcases parseAttrCount_bytes hcount form with hparse | ⟨hparse, hge, hmod⟩
  · rw [hparse, Int.bmod_def]
    constructor
    · -- The largest quorum tells.
      intro h
      have hmax := h (2 ^ 31 - 1) (by decide) (by decide)
      split_ifs at hmax with hhalf
      all_goals omega
    · intro h n hpos hlt
      split_ifs with hhalf
      all_goals omega
  · refine iff_of_false (fun h => ?_) (by omega)
    have hmax := h (2 ^ 31 - 1) (by decide) (by decide)
    rw [Int.bmod_eq_of_le (by omega) (by omega)] at hmax
    omega

theorem countsRight_raw_three : CountsRight .raw 3 :=
  (countsRight_iff (by decide) .raw).mpr (by decide)

/-- A quorum of one is not reached with 2 ^ 31 attestations, nor with a number whose eight bytes are
zeros in ASCII. -/
theorem not_countsRight_large :
    ¬ CountsRight .decimal (2 ^ 31) ∧ ¬ CountsRight .raw 0x3030303030303030 := by
  constructor
  · intro h
    have hone := countsRight_iff_forall.mp h 1 (by decide) (by decide)
    rw [CountForm.bytes, parseAttrCount_toDecimal (by decide)] at hone
    exact absurd (hone.mpr (by decide)) (by decide)
  · intro h
    have hone := countsRight_iff_forall.mp h 1 (by decide) (by decide)
    exact absurd (hone.mpr (by decide)) (by decide +kernel)

end VirtualHsm
