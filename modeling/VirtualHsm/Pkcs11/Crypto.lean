import VirtualHsm.Pkcs11.Operation

/-!
# The cryptographic entry points

`C_EncryptInit` to `C_VerifyFinal`. A call with data to process runs the operation of the
session, hands its output back and ends it; the multi-part calls collect the data first.
-/

namespace VirtualHsm

/-- A null pointer with a length. -/
def CkBuf.missing (buf : CkBuf) : Prop := buf.isNull = true ∧ 0 < buf.len

instance (buf : CkBuf) : Decidable buf.missing := inferInstanceAs (Decidable (_ ∧ _))

/-- `finish_output` with the pointer to the length, which may be null itself. -/
def finishOut (out : Bytes) : Option CkBuf → Answer
  | none => { rv := .argumentsBad }
  | some buf => finishOutput out buf

namespace Hsm

variable (be : Backend) (env : Env) (hsm : Hsm)

/-! ### Starting an operation -/

/-- `op_begin`. -/
def opBegin (session mech key : CkUlong) (needKey : Bool) : Except CkRv SessionUpdate := do
  hsm.checkInitialized
  refuseIf (needKey = true ∧ key = ckInvalidHandle) .keyHandleInvalid
  -- Neither the login nor what the key handle names is looked at.
  let s ← orRefuse (hsm.getSession session) .sessionHandleInvalid
  let rv := (s.opBegin mech key).1
  refuseIf (rv ≠ .ok) rv
  return .opBegin mech key

/-- The parameters that `C_EncryptInit` and `C_DecryptInit` keep in the session. -/
def cipherParams (m : CkMechanism) : Option SessionUpdate :=
  if m.mechanism = ckmAesGcm then
    match m.parameter with
    -- There is no default for the initialisation vector.
    | .gcm (.data (b :: bs)) aad => some (.setGcmParams (b :: bs) aad.bytes)
    | _ => none
  else if m.mechanism = ckmRsaPkcsOaep then
    match m.parameter with
    | .oaep hashAlg _ source sourceData =>
      some (.setOaepParams (oaepMdName hashAlg)
        (if source = ckzDataSpecified then sourceData.bytes else []))
    -- Other parameters are replaced by the default, not refused.
    | _ => some (.setOaepParams "SHA-256" [])
  else some .none

/-- `C_EncryptInit` and `C_DecryptInit`: the operation has begun when the parameters turn out to
be invalid. -/
def cipherInit (session : CkUlong) (mech : Option CkMechanism) (key : CkUlong) :
    Except CkRv Effect := do
  let m ← orRefuse mech .argumentsBad
  refuseIf (isEncMech m.mechanism = false) .mechanismInvalid
  let begun ← hsm.opBegin session m.mechanism key true
  match cipherParams m with
  | some params => return { answer := { rv := .ok }, update := begun.andThen params }
  | none => return { answer := { rv := .mechanismParamInvalid }, update := begun }

/-- An operation whose mechanism has no parameters here. -/
def plainInit (supported : CkUlong → Bool) (session : CkUlong) (mech : Option CkMechanism)
    (key : CkUlong) (needKey : Bool) : Except CkRv Effect := do
  let m ← orRefuse mech .argumentsBad
  refuseIf (supported m.mechanism = false) .mechanismInvalid
  let begun ← hsm.opBegin session m.mechanism key needKey
  return { answer := { rv := .ok }, update := begun }

def cEncryptInit (session : CkUlong) (mech : Option CkMechanism) (key : CkUlong) :
    Except CkRv Effect := hsm.cipherInit session mech key

def cDecryptInit (session : CkUlong) (mech : Option CkMechanism) (key : CkUlong) :
    Except CkRv Effect := hsm.cipherInit session mech key

def cSignInit (session : CkUlong) (mech : Option CkMechanism) (key : CkUlong) :
    Except CkRv Effect :=
  hsm.plainInit (fun m => isRsaMech m || isEcMech m) session mech key true

def cVerifyInit (session : CkUlong) (mech : Option CkMechanism) (key : CkUlong) :
    Except CkRv Effect :=
  hsm.plainInit (fun m => isRsaMech m || isEcMech m) session mech key true

def cDigestInit (session : CkUlong) (mech : Option CkMechanism) : Except CkRv Effect :=
  hsm.plainInit isDigestMech session mech ckInvalidHandle false

/-- `op_check`: a missing session reads like a missing operation. -/
def opSession (session : CkUlong) : Except CkRv Session :=
  orRefuse ((hsm.getSession session).filter fun s => s.opCheck = .ok) .operationNotInitialized

/-! ### Collecting data -/

/-- The update calls; `pulPartLen` says whether there is a length to set to zero. -/
def opUpdate (session : CkUlong) (part : CkBuf) (pulPartLen : Bool) : Except CkRv Effect := do
  let _ ← hsm.opSession session
  refuseIf part.missing .argumentsBad
  return { answer := { rv := .ok, len := if pulPartLen then some 0 else none }
           update := .opUpdate part }

def cEncryptUpdate (session : CkUlong) (part : CkBuf) (pulEncryptedPartLen : Bool) :
    Except CkRv Effect := hsm.opUpdate session part pulEncryptedPartLen

def cDecryptUpdate (session : CkUlong) (encryptedPart : CkBuf) (pulPartLen : Bool) :
    Except CkRv Effect := hsm.opUpdate session encryptedPart pulPartLen

def cDigestUpdate (session : CkUlong) (part : CkBuf) : Except CkRv Effect :=
  hsm.opUpdate session part false

def cSignUpdate (session : CkUlong) (part : CkBuf) : Except CkRv Effect :=
  hsm.opUpdate session part false

def cVerifyUpdate (session : CkUlong) (part : CkBuf) : Except CkRv Effect :=
  hsm.opUpdate session part false

/-- `C_DigestKey`: the life-cycle state of the key is not looked at. -/
def cDigestKey (session key : CkUlong) : Except CkRv Effect := do
  let s ← hsm.opSession session
  let value ← orRefuse ((s.objectStore.getObject key).bind (·.nonEmpty ckaValue)) .keyIndigestible
  return { answer := { rv := .ok }, update := .opUpdate (.data value) }

/-! ### Events -/

/-- Identifier and fingerprint of the operation's key in an event. -/
def keyTexts (s : Session) : String × String :=
  (s.opObject.elim "unknown" (·.keyId (env.address s.signKey)),
    (s.opObject.bind (buildKeyFromAttrs be)).elim "unknown" be.keyFingerprint)

/-- `publish_crypto_op_event`. -/
def cryptoOpEvent (s : Session) (opName : String) (type : EventType) (data : Bytes) : P11Event :=
  let mech := mechToStr s.activeMech
  let (keyId, keyFp) := keyTexts be env s
  { type, severity := .info, slotId := slotInt s.slotId
    tokenLabel := hsm.tokenLabel s.handle
    keyId := keyId.toUTF8.toList
    summary := opName ++ " completed for key " ++ keyId ++ " using " ++ mech
    detailJson := "\x7b\"operation\":\"" ++ opName ++ "\",\"mechanism\":\"" ++ mech ++
      "\",\"key_fingerprint\":\"" ++ keyFp ++ "\",\"payload_digest\":\"" ++
      hexText (be.hash .sha256 data) ++ "\"\x7d"
    userLabel := s.userLabel
    auditEventType := opName }

/-- `publish_verify_event`. -/
def verifyEvent (s : Session) (valid : Bool) (data : Bytes) : P11Event :=
  let mech := mechToStr s.activeMech
  let (keyId, keyFp) := keyTexts be env s
  { type := if valid then .verifyCompleted else .verifyFailed
    severity := if valid then .info else .warning
    slotId := slotInt s.slotId
    tokenLabel := hsm.tokenLabel s.handle
    keyId := keyId.toUTF8.toList
    summary := "Signature verification " ++ (if valid then "succeeded" else "failed") ++
      " for key " ++ keyId ++ " using " ++ mech
    detailJson := "\x7b\"mechanism\":\"" ++ mech ++ "\",\"digest_algorithm\":\"" ++
      digestToStr s.activeMech ++ "\",\"key_fingerprint\":\"" ++ keyFp ++
      "\",\"payload_digest\":\"" ++ hexText (be.hash .sha256 data) ++ "\",\"result\":\"" ++
      (if valid then "valid" else "invalid") ++ "\"\x7d"
    userLabel := s.userLabel
    auditEventType := if valid then "C_VERIFY_OK" else "C_VERIFY_FAILED" }

/-! ### Encryption, decryption and digests -/

/-- The end of an encryption or a decryption: the operation is over, also after a refusal, a
length query or a short buffer. -/
def cipherEnd (s : Session) (opName : String) (type : EventType) (data : Bytes)
    (r : Except CkRv Bytes) (out : Option CkBuf) : Effect :=
  match r with
  | .error rv => { answer := { rv }, update := .opEnd }
  | .ok bytes =>
    let answer := finishOut bytes out
    { answer, update := .opEnd
      events := if answer.rv = .ok then [hsm.cryptoOpEvent be env s opName type data] else [] }

def cEncrypt (session : CkUlong) (data : CkBuf) (out : Option CkBuf) : Except CkRv Effect := do
  let s ← hsm.opSession session
  refuseIf data.missing .argumentsBad
  return hsm.cipherEnd be env s "C_Encrypt" .encryptCompleted data.bytes
    (s.doEncrypt be env data.bytes) out

def cEncryptFinal (session : CkUlong) (out : Option CkBuf) : Except CkRv Effect := do
  let s ← hsm.opSession session
  return hsm.cipherEnd be env s "C_EncryptFinal" .encryptCompleted s.opBuf
    (s.doEncrypt be env s.opBuf) out

def cDecrypt (session : CkUlong) (encryptedData : CkBuf) (out : Option CkBuf) :
    Except CkRv Effect := do
  let s ← hsm.opSession session
  refuseIf encryptedData.missing .argumentsBad
  return hsm.cipherEnd be env s "C_Decrypt" .decryptCompleted encryptedData.bytes
    (s.doDecrypt be encryptedData.bytes) out

def cDecryptFinal (session : CkUlong) (out : Option CkBuf) : Except CkRv Effect := do
  let s ← hsm.opSession session
  return hsm.cipherEnd be env s "C_DecryptFinal" .decryptCompleted s.opBuf
    (s.doDecrypt be s.opBuf) out

def cDigest (session : CkUlong) (data : CkBuf) (out : Option CkBuf) : Except CkRv Effect := do
  let s ← hsm.opSession session
  refuseIf data.missing .argumentsBad
  return { answer := finishOut (be.hash (mechToHash s.activeMech) data.bytes) out
           update := .opEnd }

def cDigestFinal (session : CkUlong) (out : Option CkBuf) : Except CkRv Effect := do
  let s ← hsm.opSession session
  return { answer := finishOut (be.hash (mechToHash s.activeMech) s.opBuf) out, update := .opEnd }

/-! ### Signing and verification -/

/-- What a signature over the data hands to the dispatcher. -/
def dispatchInput (s : Session) (k : be.Pkey) (data sig : Bytes) : SignatureDispatchInput where
  signResult :=
    { signature := sig
      mechanismStr := mechToStr s.activeMech
      digestAlg := digestToStr s.activeMech
      payloadDigest := hexText (be.hash .sha256 data)
      payloadSize := (data.length : Int).bmod (2 ^ 32) }
  createdAt := env.nowMs
  slotId := slotInt s.slotId
  tokenLabel := hsm.tokenLabel s.handle
  keyId := s.opObject.elim "unknown" (·.keyId (env.address s.signKey))
  keyFingerprint := be.keyFingerprint k
  mechanism := mechToStr s.activeMech
  digestAlgorithm := digestToStr s.activeMech
  sessionHandle := decimal s.handle
  userLabel := s.userLabel

/-- `dispatch_sign_result`: without a dispatcher or a key to name, nothing is stored. -/
def dispatchSignResult (s : Session) (data sig : Bytes) : CkRv :=
  match env.dispatch, s.opObject.bind (buildKeyFromAttrs be) with
  | some dispatch, some k =>
    if dispatch (hsm.dispatchInput be env s k data sig) then .ok else .deviceError
  | _, _ => .ok

/-- The end of a signature; the code of the dispatcher comes after the output. -/
def signEnd (s : Session) (data : Bytes) (out : Option CkBuf) : Effect :=
  match s.doSign be env data with
  | .error rv => { answer := { rv }, update := .opEnd }
  | .ok sig =>
    let answer := finishOut sig out
    { answer :=
        -- The signature is in the buffer already when storing it fails.
        if answer.rv = .ok then { answer with rv := hsm.dispatchSignResult be env s data sig }
        else answer
      update := .opEnd }

def cSign (session : CkUlong) (data : CkBuf) (out : Option CkBuf) : Except CkRv Effect := do
  let s ← hsm.opSession session
  refuseIf data.missing .argumentsBad
  return hsm.signEnd be env s data.bytes out

def cSignFinal (session : CkUlong) (out : Option CkBuf) : Except CkRv Effect := do
  let s ← hsm.opSession session
  return hsm.signEnd be env s s.opBuf out

/-- The code of a verification. -/
def verifyCode (s : Session) (data sig : Bytes) : CkRv :=
  match s.doVerify be data sig with
  | .ok _ => .ok
  | .error rv => rv

def verifyEnd (s : Session) (data sig : Bytes) : Effect :=
  let rv := verifyCode be s data sig
  { answer := { rv }, update := .opEnd
    events :=
      -- A verification that could not be made is not announced.
      if rv = .ok ∨ rv = .signatureInvalid then
        [hsm.verifyEvent be env s (decide (rv = .ok)) data]
      else [] }

def cVerify (session : CkUlong) (data sig : CkBuf) : Except CkRv Effect := do
  let s ← hsm.opSession session
  refuseIf data.missing .argumentsBad
  refuseIf sig.missing .argumentsBad
  return hsm.verifyEnd be env s data.bytes sig.bytes

def cVerifyFinal (session : CkUlong) (sig : CkBuf) : Except CkRv Effect := do
  let s ← hsm.opSession session
  refuseIf sig.missing .argumentsBad
  return hsm.verifyEnd be env s s.opBuf sig.bytes

end Hsm

end VirtualHsm
