import VirtualHsm.Domain.KeyPolicy
import VirtualHsm.Pkcs11.Objects
import VirtualHsm.SignatureStore.Record

/-!
# Cryptographic operations on a session

What a session does with the key and the mechanism of its active operation: `do_encrypt`,
`do_decrypt`, `do_sign` and `do_verify`, with the policy gate in front of signing.
-/

namespace VirtualHsm

/-! ### Mechanism tables -/

def mechToHash (m : CkUlong) : HashAlgorithm :=
  if m ∈ [ckmSha384, ckmSha384RsaPkcs, ckmEcdsaSha384, ckmSha384Hmac] then .sha384
  else if m ∈ [ckmSha512, ckmSha512RsaPkcs, ckmEcdsaSha512, ckmSha512Hmac] then .sha512
  else .sha256

def digestName : HashAlgorithm → String
  | .sha256 => "SHA256"
  | .sha384 => "SHA384"
  | .sha512 => "SHA512"

/-- The signing mechanisms with hashing and PSS padding. -/
def pssMechs : List CkUlong := [ckmSha256RsaPkcsPss, ckmSha384RsaPkcsPss, ckmSha512RsaPkcsPss]

def isRsaMech (m : CkUlong) : Bool :=
  m ∈ [ckmRsaPkcs, ckmRsaX509, ckmSha256RsaPkcs, ckmSha384RsaPkcs, ckmSha512RsaPkcs,
    ckmRsaPkcsOaep, ckmRsaPkcsPss] ++ pssMechs

def isEcMech (m : CkUlong) : Bool :=
  m ∈ [ckmEcdsa, ckmEcdsaSha256, ckmEcdsaSha384, ckmEcdsaSha512]

def isDigestMech (m : CkUlong) : Bool := m ∈ [ckmSha256, ckmSha384, ckmSha512]

/-- The mechanisms of encryption and decryption. -/
def isEncMech (m : CkUlong) : Bool := m ∈ [ckmRsaPkcs, ckmRsaX509, ckmRsaPkcsOaep, ckmAesGcm]

/-- `mechanism_approved`: the list has the numbers of the PKCS#11 standard, several of which
differ from the module's own constants. -/
def mechanismApproved (m : CkUlong) : Bool :=
  m ∈ ([0x1041, 0x1047, 0x1048, 0x1049, 0x250, 0x251, 0x252, 0xE, 0xF, 0x10, 0x1087, 0x1085,
    0x1086] : List CkUlong)

def mechNames : List (CkUlong × String) :=
  [(ckmRsaPkcs, "CKM_RSA_PKCS"), (ckmRsaX509, "CKM_RSA_X_509"),
   (ckmRsaPkcsPss, "CKM_RSA_PKCS_PSS"), (ckmRsaPkcsOaep, "CKM_RSA_PKCS_OAEP"),
   (ckmSha256RsaPkcs, "CKM_SHA256_RSA_PKCS"), (ckmSha384RsaPkcs, "CKM_SHA384_RSA_PKCS"),
   (ckmSha512RsaPkcs, "CKM_SHA512_RSA_PKCS"), (ckmSha256RsaPkcsPss, "CKM_SHA256_RSA_PKCS_PSS"),
   (ckmSha384RsaPkcsPss, "CKM_SHA384_RSA_PKCS_PSS"),
   (ckmSha512RsaPkcsPss, "CKM_SHA512_RSA_PKCS_PSS"), (ckmEcdsa, "CKM_ECDSA"),
   (ckmEcdsaSha256, "CKM_ECDSA_SHA256"), (ckmEcdsaSha384, "CKM_ECDSA_SHA384"),
   (ckmEcdsaSha512, "CKM_ECDSA_SHA512"), (ckmAesGcm, "CKM_AES_GCM"), (ckmAesEcb, "CKM_AES_ECB")]

def mechToStr (m : CkUlong) : String := (mechNames.lookup m).getD "CKM_VENDOR_DEFINED"

def digestToStr (m : CkUlong) : String :=
  if m ∈ [ckmSha384, ckmSha384RsaPkcs, ckmEcdsaSha384, ckmSha384Hmac, ckmSha384RsaPkcsPss] then
    "SHA-384"
  else if m ∈ [ckmSha512, ckmSha512RsaPkcs, ckmEcdsaSha512, ckmSha512Hmac, ckmSha512RsaPkcsPss] then
    "SHA-512"
  else "SHA-256"

def oaepMdName (m : CkUlong) : String :=
  if m = ckmSha1 then "SHA-1"
  else if m = ckmSha384 then "SHA-384"
  else if m = ckmSha512 then "SHA-512"
  else "SHA-256"

/-! ### The surroundings of a call -/

/-- What a cryptographic call finds around it. -/
structure Env where
  seed : Nat := 0
  nowMs : Int := 0
  fips : Bool := false
  /-- The address of an object, which names a key without identifier. -/
  address : CkUlong → Nat := fun _ => 0
  /-- The ledger client's answer for a key, an actor, a mechanism and a time, when there is a
  client. -/
  ledger : Option (String → String → String → Int → Bool) := none
  /-- Whether the dispatcher has stored a signature, when there is a dispatcher. -/
  dispatch : Option (SignatureDispatchInput → Bool) := none
  /-- The JSON library's parser. -/
  parseJson : Bytes → Option Json := fun _ => none

/-- `p11_key_id`. -/
def HsmObject.keyId (o : HsmObject) (address : Nat) : String :=
  match o.nonEmpty ckaId with
  | some v => hexText v
  | none => "key-" ++ toString address

/-- `parse_attr_count`: ASCII digits are a decimal number, anything else up to eight bytes of a
little-endian one. -/
def parseAttrCount (v : Bytes) : Nat :=
  if v.all fun b => 48 ≤ b && b ≤ 57 then
    -- A number that does not fit counts as none at all.
    let n := v.foldl (fun n b => 10 * n + (b.toNat - 48)) 0
    if n < 2 ^ 64 then n else 0
  else CS.ofLe (v.take 8)

/-- `p11_key_fingerprint`: empty when the public part cannot be exported. -/
def Backend.keyFingerprint (be : Backend) (k : be.Pkey) : String :=
  let der :=
    match be.base k with
    | .rsa => if be.shim then be.rsaExportPublicDer k else be.i2dRsaPublicKey k
    | .ec => if be.shim then be.ecExportPublicPoint k else be.i2oEcPublicKey k
    | .other => none
  match der with
  | some (b :: bs) => hexText (be.hash .sha256 (b :: bs))
  | _ => ""

/-- The label of the user who is logged in to the session. -/
def Session.userLabel (s : Session) : Option String :=
  if s.userType = ckuInvalid then none else some ("user-" ++ toString (slotInt s.userType))

/-- The actor of the policy. -/
def Session.actor (s : Session) : String := s.userLabel.getD "UNKNOWN"

namespace Session

variable (be : Backend) (env : Env) (s : Session)

/-- The key object of the active operation. -/
def opObject : Option HsmObject := s.objectStore.getObject s.signKey

/-! ### Encryption -/

/-- `resolve_rsa_encdec`: padding, label and digest name. -/
def resolveRsaEncdec : RsaPadding × Bytes × String :=
  if s.activeMech = ckmRsaX509 then (.none, [], "")
  else if s.activeMech = ckmRsaPkcsOaep then (.oaep, s.oaepLabel, s.oaepMgf1)
  else (.pkcs1, [], "")

def doEncrypt (input : Bytes) : Except CkRv Bytes := do
  refuseIf (env.fips = true ∧ mechanismApproved s.activeMech = false) .mechanismInvalid
  let o ← orRefuse s.opObject .keyHandleInvalid
  checkKeyState o false
  if s.activeMech = ckmAesGcm then
    let key ← orRefuse (o.nonEmpty ckaValue) .keyHandleInvalid
    -- The tag follows the ciphertext.
    let r ← be.aesGcmEncrypt key s.gcmIv s.gcmAad input
    return r.1 ++ r.2
  else
    let k ← orRefuse (buildKeyFromAttrs be o) .keyHandleInvalid
    let p := s.resolveRsaEncdec
    be.rsaEncrypt env.seed k p.1 p.2.1 p.2.2 input

/-- `do_decrypt`: with AES-GCM the life-cycle state of the key is not looked at. -/
def doDecrypt (input : Bytes) : Except CkRv Bytes := do
  let o ← orRefuse s.opObject .keyHandleInvalid
  if s.activeMech = ckmAesGcm then
    let key ← orRefuse (o.nonEmpty ckaValue) .keyHandleInvalid
    -- The last 16 bytes are the tag.
    refuseIf (input.length < 16) .encryptedDataLenRange
    let n := input.length - 16
    be.aesGcmDecrypt key s.gcmIv s.gcmAad (input.take n) (input.drop n)
  else
    let k ← orRefuse (buildKeyFromAttrs be o) .keyHandleInvalid
    checkKeyState o false
    let p := s.resolveRsaEncdec
    be.rsaDecrypt k p.1 p.2.1 p.2.2 input

/-! ### Signing -/

/-- `resolve_rsa_mech`: padding, digest name, mask digest name, and the bytes to sign. -/
def resolveRsaMech (mech : CkUlong) (data : Bytes) : Option (RsaPadding × String × String × Bytes) :=
  if mech = ckmRsaPkcs then some (.pkcs1, "", "", data)
  else if mech = ckmRsaX509 then some (.none, "", "", data)
  else if mech = ckmRsaPkcsPss then some (.pss, "SHA256", "SHA256", be.hash .sha256 data)
  -- It is among the RSA mechanisms, but signs nothing.
  else if mech = ckmRsaPkcsOaep then none
  else
    let ha := mechToHash mech
    let md := digestName ha
    -- The mask has the digest of the message.
    if mech ∈ pssMechs then some (.pss, md, md, be.hash ha data)
    else some (.pkcs1, md, "", be.hash ha data)

def resolveEcMech (mech : CkUlong) (data : Bytes) : Bytes :=
  if mech = ckmEcdsa then data else be.hash (mechToHash mech) data

/-- The key is of another family than the mechanism. -/
def keyMismatch (mech : CkUlong) (k : be.Pkey) : Prop :=
  isRsaMech mech = true ∧ be.base k ≠ .rsa ∨ isEcMech mech = true ∧ be.base k ≠ .ec

instance (mech : CkUlong) (k : be.Pkey) : Decidable (keyMismatch be mech k) :=
  inferInstanceAs (Decidable (_ ∨ _))

/-- The attestations that the key object itself records. -/
def localAttestations (o : HsmObject) : Nat :=
  ((o.findAttribute ckaVhsmAttestationCount).map parseAttrCount).getD 0

/-- The policy of `do_sign` once the document is read: with a quorum and a ledger client the
ledger's answer decides alone, otherwise the document does. -/
def policyAdmits (o : HsmObject) (policy : KeyPolicy) : Bool :=
  let mech := mechToStr s.activeMech
  -- Window and lists of the document are not looked at when the ledger is asked.
  match if 0 < policy.minAttestations then env.ledger else none with
  | some verify => verify (o.keyId (env.address s.signKey)) s.actor mech env.nowMs
  | none => (policy.evaluate s.actor mech env.nowMs (localAttestations o)).isOk

/-- The policy gate of `do_sign`: a key without document passes, an unreadable document does
not. -/
def policyGate (o : HsmObject) : Except CkRv Unit :=
  match o.nonEmpty ckaVhsmPolicy with
  | none => .ok ()
  | some doc =>
    match (env.parseJson doc).bind KeyPolicy.fromJson with
    | none => .error .actionProhibited
    | some policy => refuseIf (policyAdmits env s o policy = false) .actionProhibited

def doSign (data : Bytes) : Except CkRv Bytes := do
  refuseIf (env.fips = true ∧ mechanismApproved s.activeMech = false) .mechanismInvalid
  let o ← orRefuse s.opObject .keyHandleInvalid
  checkKeyState o true
  policyGate env s o
  let k ← orRefuse (buildKeyFromAttrs be o) .keyHandleInvalid
  refuseIf (keyMismatch be s.activeMech k) .keyTypeInconsistent
  if isRsaMech s.activeMech then
    let p ← orRefuse (resolveRsaMech be s.activeMech data) .mechanismInvalid
    be.rsaSign env.seed k p.1 p.2.1 p.2.2.1 p.2.2.2
  else if isEcMech s.activeMech then
    be.ecdsaSign env.seed k (resolveEcMech be s.activeMech data)
  else .error .mechanismInvalid

def doVerify (data sig : Bytes) : Except CkRv Unit := do
  let o ← orRefuse s.opObject .keyHandleInvalid
  checkKeyState o false
  let k ← orRefuse (buildKeyFromAttrs be o) .keyHandleInvalid
  refuseIf (keyMismatch be s.activeMech k) .keyTypeInconsistent
  let rv ←
    if isRsaMech s.activeMech then
      let p ← orRefuse (resolveRsaMech be s.activeMech data) .mechanismInvalid
      pure (be.rsaVerify k p.1 p.2.1 p.2.2.1 p.2.2.2 sig)
    else if isEcMech s.activeMech then
      pure (be.ecdsaVerify k (resolveEcMech be s.activeMech data) sig)
    else .error .mechanismInvalid
  refuseIf (rv ≠ .ok) rv

end Session

end VirtualHsm
