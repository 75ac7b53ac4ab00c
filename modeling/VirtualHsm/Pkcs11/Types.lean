import Mathlib.Algebra.Group.Nat.Defs
import Mathlib.Logic.Basic

/-!
# PKCS#11 types and constants

The C types of the token's application interface: return codes, attribute types, object
classes, mechanisms, and the buffers that calls pass. A numeric constant keeps the value the
headers give it, because several of them coincide and the code compares the numbers.
-/

namespace VirtualHsm

/-- A byte string (`std::vector<u8>`, `std::string`). -/
abbrev Bytes := List UInt8

/-- The fixed-width `CK_ULONG` of the 64-bit builds. -/
abbrev CkUlong := UInt64

theorem forall_mem_of_all {xs : List CkUlong} {p : CkUlong → Prop} [DecidablePred p]
    (h : xs.all (fun x => p x) = true) : ∀ x ∈ xs, p x :=
  fun x hx => of_decide_eq_true (List.all_eq_true.mp h x hx)

/-- The return codes `CKR_*` the modelled calls produce. -/
inductive CkRv
  | ok
  | hostMemory
  | slotIdInvalid
  | generalError
  | functionFailed
  | argumentsBad
  | bufferTooSmall
  | attributeReadOnly
  | attributeSensitive
  | attributeTypeInvalid
  | attributeValueInvalid
  | dataInvalid
  | dataLenRange
  | deviceError
  | encryptedDataInvalid
  | encryptedDataLenRange
  | mechanismInvalid
  | mechanismParamInvalid
  | objectHandleInvalid
  | operationActive
  | operationNotInitialized
  | pinIncorrect
  | pinInvalid
  | pinLenRange
  | pinLocked
  | sessionHandleInvalid
  | templateIncomplete
  | userAlreadyLoggedIn
  | userNotLoggedIn
  | userPinNotInitialized
  | userPinAlreadyInitialized
  | userTypeInvalid
  | soPinNotInitialized
  | soPinAlreadyInitialized
  | wrappedKeyInvalid
  | wrappingKeyHandleInvalid
  | unwrappingKeyHandleInvalid
  | keyHandleInvalid
  | keyIndigestible
  | keyFunctionNotPermitted
  | keyTypeInconsistent
  | keySizeRange
  | keyUnextractable
  | actionProhibited
  | cryptokiNotInitialized
  | cryptokiAlreadyInitialized
  | signatureInvalid
  | signatureLenRange
  | functionNotSupported
  deriving DecidableEq, Repr

/-! ### Numeric constants -/

def ckTrue : UInt8 := 1
def ckFalse : UInt8 := 0

/-- `CK_UNAVAILABLE_INFORMATION`, the length reported for a value that is not available. -/
def ckUnavailableInformation : Nat := 2 ^ 64 - 1

def ckoData : CkUlong := 0x00000000
def ckoCertificate : CkUlong := 0x00000001
def ckoPublicKey : CkUlong := 0x00000002
def ckoPrivateKey : CkUlong := 0x00000003
def ckoSecretKey : CkUlong := 0x00000004
def ckoHwFeature : CkUlong := 0x00000005
def ckoDomainParameters : CkUlong := 0x00000006
def ckoOther : CkUlong := 0x00000010

def ckaClass : CkUlong := 0x00000000
def ckaToken : CkUlong := 0x00000001
def ckaPrivate : CkUlong := 0x00000002
def ckaLabel : CkUlong := 0x00000003
def ckaValue : CkUlong := 0x00000011
def ckaKeyType : CkUlong := 0x00000100
def ckaId : CkUlong := 0x00000102
def ckaSensitive : CkUlong := 0x00000103
def ckaModulusBits : CkUlong := 0x00000121
def ckaValueLen : CkUlong := 0x00000161
def ckaExtractable : CkUlong := 0x00000162
def ckaEcParams : CkUlong := 0x00000180
def ckaEcPoint : CkUlong := 0x00000181
def ckaVhsmRsaPriv : CkUlong := 0x81000001
def ckaVhsmRsaPub : CkUlong := 0x81000002
def ckaVhsmEcPriv : CkUlong := 0x81000003
def ckaVhsmEcPub : CkUlong := 0x81000004
/-- The life-cycle state shares its number with `ckaVhsmEcPub`. -/
def ckaVhsmKeyState : CkUlong := 0x81000004
def ckaVhsmPolicy : CkUlong := 0x81000005
def ckaVhsmAttestationCount : CkUlong := 0x81000006

/-- The bit that marks an attribute whose value is itself a template. -/
def ckfArrayAttribute : CkUlong := 0x40000000

def ckkRsa : CkUlong := 0x00000000
def ckkEc : CkUlong := 0x00000003

def ckInvalidHandle : CkUlong := 0

def ckmRsaPkcsKeyPairGen : CkUlong := 0x00000000
def ckmRsaPkcs : CkUlong := 0x00000001
def ckmRsaX509 : CkUlong := 0x00000003
def ckmRsaPkcsOaep : CkUlong := 0x00000009
def ckmRsaPkcsPss : CkUlong := 0x0000000D
def ckmSha256RsaPkcsPss : CkUlong := 0x0000000F
def ckmSha384RsaPkcsPss : CkUlong := 0x00000010
def ckmSha512RsaPkcsPss : CkUlong := 0x00000011
def ckmEcdh1Derive : CkUlong := 0x00000030
def ckmEcdsaKeyPairGen : CkUlong := 0x00000040
def ckmEcdsa : CkUlong := 0x00000041
def ckmSha1 : CkUlong := 0x00000220
def ckmSha256RsaPkcs : CkUlong := 0x00000241
def ckmSha384RsaPkcs : CkUlong := 0x00000242
def ckmSha512RsaPkcs : CkUlong := 0x00000243
def ckmSha256 : CkUlong := 0x00000250
def ckmSha384 : CkUlong := 0x00000260
def ckmSha512 : CkUlong := 0x00000270
def ckmSha256Hmac : CkUlong := 0x00000290
def ckmSha384Hmac : CkUlong := 0x00000291
def ckmSha512Hmac : CkUlong := 0x00000292
def ckmEcKeyPairGen : CkUlong := 0x00001040
def ckmEcdsaSha256 : CkUlong := 0x00001043
def ckmEcdsaSha384 : CkUlong := 0x00001044
def ckmEcdsaSha512 : CkUlong := 0x00001045
def ckmAesKeyGen : CkUlong := 0x00001080
def ckmAesEcb : CkUlong := 0x00001081
def ckmAesGcm : CkUlong := 0x00001087
def ckmAesKeyWrap : CkUlong := 0x00002109

def ckzDataSpecified : CkUlong := 0x00000001

/-! ### Buffers and templates -/

/-- A pointer with a length: null, or the bytes it points to. -/
inductive CkBuf
  | null (len : Nat)
  | data (bytes : Bytes)
  deriving DecidableEq, Repr

namespace CkBuf

/-- The length the caller passed with the pointer. -/
def len : CkBuf → Nat
  | null n => n
  | data bs => bs.length

/-- The bytes a callee may read; none through a null pointer. -/
def bytes : CkBuf → Bytes
  | null _ => []
  | data bs => bs

/-- The null pointer. -/
def isNull : CkBuf → Bool
  | null _ => true
  | data _ => false

@[simp] theorem len_null (n : Nat) : (null n).len = n := rfl
@[simp] theorem len_data (bs : Bytes) : (data bs).len = bs.length := rfl
@[simp] theorem bytes_null (n : Nat) : (null n).bytes = [] := rfl
@[simp] theorem bytes_data (bs : Bytes) : (data bs).bytes = bs := rfl
@[simp] theorem isNull_null (n : Nat) : (null n).isNull = true := rfl
@[simp] theorem isNull_data (bs : Bytes) : (data bs).isNull = false := rfl

end CkBuf

/-- A template entry `CK_ATTRIBUTE`. -/
structure CkAttribute where
  type : CkUlong
  value : CkBuf
  deriving DecidableEq, Repr

/-- The entry is flagged as an array attribute, which the template code skips. -/
def CkAttribute.isArray (a : CkAttribute) : Bool := a.type &&& ckfArrayAttribute ≠ 0

/-- What the parameter pointer of a mechanism leads to. A call casts the pointer to the
structure its mechanism asks for once the length suffices; `absent` stands for a null pointer or
a shorter block. -/
inductive CkMechanismParam
  | absent
  | gcm (iv aad : CkBuf)
  | oaep (hashAlg mgf source : CkUlong) (sourceData : CkBuf)
  | ecdh1 (kdf : CkUlong) (sharedData publicData : CkBuf)
  deriving DecidableEq, Repr

/-- A mechanism `CK_MECHANISM`. -/
structure CkMechanism where
  mechanism : CkUlong
  parameter : CkMechanismParam := .absent
  deriving DecidableEq, Repr

end VirtualHsm
