import VirtualHsm.Keystore.KeyWrap
import VirtualHsm.Pkcs11.Keygen

/-!
# Wrapping, unwrapping and derivation

Keys leave a token wrapped under another key, come back as the object that the unwrapped bytes
become, or are derived from one that is there.
-/

namespace VirtualHsm

def mechLabel (m : CkUlong) : String :=
  if m = ckmAesKeyWrap then "CKM_AES_KEY_WRAP"
  else if m = ckmRsaPkcs then "CKM_RSA_PKCS"
  else if m = ckmRsaPkcsOaep then "CKM_RSA_PKCS_OAEP"
  else if m = ckmEcdh1Derive then "CKM_ECDH1_DERIVE"
  else "CKM_VENDOR_DEFINED"

/-- Padding and digest of the two RSA wrapping mechanisms. -/
def rsaWrapParams (m : CkUlong) : RsaPadding × String :=
  if m = ckmRsaPkcsOaep then (.oaep, "SHA-256") else (.pkcs1, "")

/-- The 32-byte key-encryption key of an object. -/
def HsmObject.wrappingKek (o : HsmObject) : Option Bytes :=
  (o.findAttribute ckaValue).filter (·.length = 32)

/-- A private key that was unwrapped: the template, then the material. The code of storing the
material is not looked at. -/
def Built.unwrapped (be : Backend) (templ : List CkAttribute) (k : be.Pkey) : Built where
  bare := barePrivateKey
  built := (thenStore (applyTemplate barePrivateKey.object templ) (storeKeyEvp be · k true)).2
  rv := (applyTemplate barePrivateKey.object templ).1
  sameFields :=
    thenStore_sameFields (applyTemplate_sameFields _ templ) fun o => storeKeyEvp_sameFields o k true

/-- `create_from_raw`: an RSA key, else an elliptic-curve key, else a secret key of an AES
length. -/
def createFromRaw (be : Backend) (raw : Bytes) (templ : List CkAttribute) : Except CkRv Built :=
  let probe (t : CkUlong) := buildKeyFromAttrs be (barePrivateKey.object.setAttribute t raw)
  match (probe ckaVhsmRsaPriv).or (probe ckaVhsmEcPriv) with
  | some k => .ok (Built.unwrapped be templ k)
  | none =>
    -- What parses as no private key is taken for a secret key.
    if raw.length = 16 ∨ raw.length = 24 ∨ raw.length = 32 then .ok (Built.secret templ raw)
    else .error .wrappedKeyInvalid

namespace Hsm

variable (be : Backend) (hsm : Hsm)

/-- The event of a completed wrap, unwrap or derivation; `keyId` names the key that was used. -/
def keyEvent (session : CkUlong) (type : EventType) (keyId : Bytes) (summary detail audit : String) :
    P11Event where
  type := type
  severity := .info
  slotId := ((hsm.getSession session).map fun s => slotInt s.slotId).getD 0
  tokenLabel := hsm.tokenLabel session
  keyId := keyId
  summary := summary
  detailJson := detail
  userLabel := none
  auditEventType := audit

/-- Label of a key, or its handle when the label is empty. -/
def keyInfo (o : HsmObject) (handle : CkUlong) : Bytes :=
  (o.nonEmpty ckaLabel).getD (decimal handle).toUTF8.toList

/-- The bytes that a wrapping mechanism produces. -/
def wrapBytes (seed : Nat) (m : CkUlong) (wkey : HsmObject) (raw : Bytes) : Except CkRv Bytes :=
  if m = ckmAesKeyWrap then
    match wkey.wrappingKek with
    | none => .error .keySizeRange
    | some kek => orRefuse (KeyWrap.wrap be kek raw) .wrappedKeyInvalid
  else if m = ckmRsaPkcs ∨ m = ckmRsaPkcsOaep then
    match buildKeyFromAttrs be wkey with
    | none => .error .wrappingKeyHandleInvalid
    | some k => be.rsaEncrypt seed k (rsaWrapParams m).1 [] (rsaWrapParams m).2 raw
  else .error .mechanismInvalid

def cWrapKey (seed : Nat) (session : CkUlong) (mech : Option CkMechanism)
    (wrappingKey key : CkUlong) (wrapped : CkBuf) (pulWrappedKeyLen : Bool) :
    Except CkRv Effect := do
  hsm.checkInitialized
  let m ← orRefuse mech .argumentsBad
  refuseIf (pulWrappedKeyLen = false) .argumentsBad
  let st ← orRefuse (hsm.store session) .sessionHandleInvalid
  let wkey ← orRefuse (st.getObject wrappingKey) .keyHandleInvalid
  let tkey ← orRefuse (st.getObject key) .keyHandleInvalid
  -- The life-cycle state is checked for the wrapping key only.
  checkKeyState wkey false
  -- The field decides, whatever the attribute map says.
  refuseIf (tkey.extractable = false) .keyUnextractable
  let raw ← orRefuse (rawKeyBytes tkey) .keyHandleInvalid
  let out ← wrapBytes be seed m.mechanism wkey raw
  let answer := finishOutput out wrapped
  let info := keyInfo wkey wrappingKey
  return { answer
           events :=
             -- A length query is not announced.
             if wrapped.isNull = false ∧ answer.rv = .ok then
               [hsm.keyEvent session .wrapKeyCompleted info
                 ("C_WrapKey completed using key " ++ bytesText info)
                 ("\x7b\"mechanism\":\"" ++ mechLabel m.mechanism ++ "\",\"wrapped_key_len\":" ++
                   toString out.length ++ "\x7d") "C_WrapKey"]
             else [] }

/-- The bytes that an unwrapping mechanism recovers. -/
def unwrapBytes (m : CkUlong) (ukey : HsmObject) (wrapped : Bytes) : Except CkRv Bytes :=
  if m = ckmAesKeyWrap then
    match ukey.wrappingKek with
    | none => .error .keySizeRange
    | some kek => orRefuse (KeyWrap.unwrap be kek wrapped) .wrappedKeyInvalid
  else if m = ckmRsaPkcs ∨ m = ckmRsaPkcsOaep then
    match buildKeyFromAttrs be ukey with
    | none => .error .unwrappingKeyHandleInvalid
    | some k => be.rsaDecrypt k (rsaWrapParams m).1 [] (rsaWrapParams m).2 wrapped
  else .error .mechanismInvalid

def cUnwrapKey (session : CkUlong) (mech : Option CkMechanism) (unwrappingKey : CkUlong)
    (wrapped : CkBuf) (templ : List CkAttribute) (phKey : Bool) : Except CkRv Effect := do
  hsm.checkInitialized
  let m ← orRefuse mech .argumentsBad
  refuseIf (wrapped.isNull = true ∨ phKey = false) .argumentsBad
  let st ← orRefuse (hsm.store session) .sessionHandleInvalid
  let ukey ← orRefuse (st.getObject unwrappingKey) .unwrappingKeyHandleInvalid
  checkKeyState ukey false
  let raw ← unwrapBytes be m.mechanism ukey wrapped.bytes
  let b ← createFromRaw be raw templ
  let info := keyInfo ukey unwrappingKey
  return { Effect.created st b with
    events :=
      if b.rv = .ok then
        [hsm.keyEvent session .unwrapKeyCompleted info
          ("C_UnwrapKey completed using key " ++ bytesText info)
          ("\x7b\"mechanism\":\"" ++ mechLabel m.mechanism ++ "\",\"new_key_handle\":" ++
            decimal st.newHandle ++ "\x7d") "C_UnwrapKey"]
      else [] }

/-- The peer's public key in the parameter of a derivation. -/
def peerKey (m : CkMechanism) : Option be.Pkey :=
  match m.parameter with
  | .ecdh1 _ _ (.data (b :: bs)) => be.d2iPubkey (b :: bs)
  | _ => none

/-- `C_DeriveKey`: the life-cycle state of the base key is not looked at. -/
def cDeriveKey (session : CkUlong) (mech : Option CkMechanism) (baseKey : CkUlong)
    (templ : List CkAttribute) (phKey : Bool) : Except CkRv Effect := do
  hsm.checkInitialized
  let m ← orRefuse mech .argumentsBad
  refuseIf (phKey = false) .argumentsBad
  refuseIf (m.mechanism ≠ ckmEcdh1Derive) .mechanismInvalid
  let st ← orRefuse (hsm.store session) .sessionHandleInvalid
  let bkey ← orRefuse (st.getObject baseKey) .keyHandleInvalid
  let priv ← orRefuse (buildKeyFromAttrs be bkey) .keyHandleInvalid
  let peer ← orRefuse (peerKey be m) .mechanismParamInvalid
  let secret := be.ecdhDerive priv peer
  refuseIf (secret = []) .generalError
  let b := Built.secret templ secret
  return { Effect.created st b with
    events :=
      if b.rv = .ok then
        [hsm.keyEvent session .keyRotated (decimal baseKey).toUTF8.toList
          ("C_DeriveKey (ECDH1) completed from base key " ++ decimal baseKey)
          ("\x7b\"mechanism\":\"CKM_ECDH1_DERIVE\",\"new_key_handle\":" ++
            decimal st.newHandle ++ "\x7d") "C_DeriveKey"]
      else [] }

end Hsm

end VirtualHsm
