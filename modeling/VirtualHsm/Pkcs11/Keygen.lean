import VirtualHsm.Pkcs11.Objects

/-!
# Key generation

`C_GenerateKey`, `C_GenerateKeyPair` and the rotation of a private key.
-/

namespace VirtualHsm

/-! ### Objects for generated keys -/

/-- A secret key as every path creates it: sensitive and extractable, whatever the template
says. -/
def bareSecretKey : BareObject := { type := .secretKey, sensitive := true }

def barePublicKey : BareObject := { type := .publicKey }

def barePrivateKey : BareObject := { type := .privateKey, sensitive := true, priv := true }

/-- The template, then the key bytes. -/
def fillSecret (templ : List CkAttribute) (raw : Bytes) : CkRv × HsmObject :=
  thenStore (applyTemplate bareSecretKey.object templ) fun o => (.ok, storeSecret o raw)

/-- Template and key material for one key of a pair. -/
def fillKey (be : Backend) (bare : BareObject) (templ : List CkAttribute) (k : be.Pkey)
    (isRsa isPrivate : Bool) : CkRv × HsmObject :=
  thenStore (applyTemplate bare.object templ) fun o =>
    if isRsa then storeKeyRsa be o k isPrivate else storeKeyEc be o k isPrivate

theorem fillSecret_sameFields (templ : List CkAttribute) (raw : Bytes) :
    SameFields bareSecretKey.object (fillSecret templ raw).2 :=
  thenStore_sameFields (applyTemplate_sameFields _ templ) fun o => .setAttribute o _ _

theorem fillKey_sameFields {be : Backend} (bare : BareObject) (templ : List CkAttribute)
    (k : be.Pkey) (isRsa isPrivate : Bool) :
    SameFields bare.object (fillKey be bare templ k isRsa isPrivate).2 := by
  refine thenStore_sameFields (applyTemplate_sameFields bare.object templ) fun o => ?_
  cases isRsa with
  | true => exact storeKeyRsa_sameFields o k isPrivate
  | false => exact storeKeyEc_sameFields o k isPrivate

def Built.secret (templ : List CkAttribute) (raw : Bytes) : Built where
  bare := bareSecretKey
  built := (fillSecret templ raw).2
  rv := (fillSecret templ raw).1
  sameFields := fillSecret_sameFields templ raw

def Built.publicKey (be : Backend) (templ : List CkAttribute) (k : be.Pkey) (isRsa : Bool) :
    Built where
  bare := barePublicKey
  built := (fillKey be barePublicKey templ k isRsa false).2
  rv := (fillKey be barePublicKey templ k isRsa false).1
  sameFields := fillKey_sameFields _ _ _ _ _

/-- The private key is created even when the public key could not be filled, and then stays as
it was created. -/
def Built.privateKey (be : Backend) (pub : Built) (templ : List CkAttribute) (k : be.Pkey)
    (isRsa : Bool) : Built where
  bare := barePrivateKey
  built :=
    if pub.rv = .ok then (fillKey be barePrivateKey templ k isRsa true).2
    else barePrivateKey.object
  rv := if pub.rv = .ok then (fillKey be barePrivateKey templ k isRsa true).1 else pub.rv
  sameFields := by
    split_ifs
    · exact fillKey_sameFields _ _ _ _ _
    · exact .refl _

/-! ### Parameters from the templates -/

/-- `label_from_template`: the first label that is not empty. -/
def labelFromTemplate (templ : List CkAttribute) : Bytes :=
  ((templ.find? fun a => a.type = ckaLabel && 0 < a.value.bytes.length).map (·.value.bytes)).getD []

/-- The text occurs in the bytes. -/
def mentions (bs : Bytes) (text : String) : Bool :=
  bs.tails.any fun t => text.toUTF8.toList.isPrefixOf t

/-- `curve_from_params`: the curve that the parameters of the public template name. -/
def curveFromParams (pub : HsmObject) : Curve :=
  match pub.nonEmpty ckaEcParams with
  | none => .p256
  | some v =>
    if mentions v "P-384" || mentions v "secp384r1" then .p384
    else if mentions v "P-521" || mentions v "secp521r1" then .p521
    else .p256

/-- `rsa_bits_from_template`. -/
def rsaBitsFromTemplate (priv : HsmObject) : Int :=
  match priv.findAttribute ckaModulusBits with
  | some v =>
    if v.length = 8 ∧ 2048 ≤ bytesUlong v then (bytesUlong v).toUInt32.toBitVec.toInt else 2048
  | none => 2048

/-- The length that the template asks for; without an entry, 32. -/
def keyLenFromTemplate (templ : List CkAttribute) : CkUlong :=
  templ.foldl (fun n a =>
    if a.type = ckaValueLen ∧ a.value.len = 8 then bytesUlong a.value.bytes else n) 32

/-- `RSAUtil::generate_key`. -/
def rsaGenerateKey (be : Backend) (seed : Nat) (bits : Int) : Except CkRv be.Pkey :=
  if bits < 2048 then .error .argumentsBad else orRefuse (be.rsaGenerate seed bits) .generalError

/-! ### Entry points -/

namespace Hsm

variable (be : Backend) (hsm : Hsm)

/-- `publish_rotation_event`: a key whose label an earlier object already carries. -/
def rotationEvents (session : CkUlong) (st : ObjectStore) (label : Bytes)
    (newHandles : List CkUlong) : List P11Event :=
  if label = [] then []
  else
    match st.findObjectIf fun o => o.type ≠ .data && o.nonEmpty ckaLabel = some label with
    | none => []
    | some (old, _) =>
      -- The search also finds the new key itself.
      if old ∈ newHandles then []
      else
        [{ type := .keyRotated
           severity := .warning
           slotId := ((hsm.getSession session).map fun s => slotInt s.slotId).getD 0
           tokenLabel := hsm.tokenLabel session
           keyId := label
           summary := "Key rotation: label '" ++ bytesText label ++ "' replaced handle " ++ decimal old
           detailJson := "\x7b\"old_handle\":" ++ decimal old ++ ",\"new_handle\":" ++
             decimal (newHandles.getLastD 0) ++ ",\"label\":\"" ++ bytesText label ++ "\"\x7d"
           userLabel := none
           auditEventType := "C_GenerateKeyPair/C_GenerateKey" }]

def cGenerateKey (seed : Nat) (session : CkUlong) (mech : Option CkMechanism)
    (templ : List CkAttribute) (phKey : Bool) : Except CkRv Effect := do
  hsm.checkInitialized
  let m ← orRefuse mech .argumentsBad
  refuseIf (phKey = false) .argumentsBad
  refuseIf (m.mechanism ≠ ckmAesKeyGen) .mechanismInvalid
  let st ← orRefuse (hsm.store session) .sessionHandleInvalid
  let keyLen := keyLenFromTemplate templ
  refuseIf (keyLen ≠ 16 ∧ keyLen ≠ 24 ∧ keyLen ≠ 32) .keySizeRange
  let raw ← orRefuse (be.randomBytes seed keyLen.toNat) .generalError
  let b := Built.secret templ raw
  return { Effect.created st b with
    events :=
      if b.rv = .ok then
        hsm.rotationEvents session (st.build b) (labelFromTemplate templ) [st.newHandle]
      else [] }

/-- Generate the key that the mechanism asks for; the flag tells an RSA key. -/
def generatePair (seed : Nat) (m : CkMechanism) (pubTempl privTempl : List CkAttribute) :
    Except CkRv (be.Pkey × Bool) :=
  if m.mechanism = ckmRsaPkcsKeyPairGen ∨ m.mechanism = ckmRsaX509 then do
    let bits := rsaBitsFromTemplate (applyTemplate barePrivateKey.object privTempl).2
    return (← rsaGenerateKey be seed bits, true)
  else if m.mechanism = ckmEcKeyPairGen ∨ m.mechanism = ckmEcdsaKeyPairGen then do
    let curve := curveFromParams (applyTemplate barePublicKey.object pubTempl).2
    return (← orRefuse (be.ecGenerate seed curve) .generalError, false)
  else .error .mechanismInvalid

/-- `p11_generate_and_store_keypair`; `old` is the private key that the new one supersedes. -/
def generateAndStoreKeypair (seed : Nat) (session : CkUlong) (m : CkMechanism)
    (pubTempl privTempl : List CkAttribute) (old : CkUlong) : Except CkRv Effect := do
  let st ← orRefuse (hsm.store session) .sessionHandleInvalid
  let (k, isRsa) ← generatePair be seed m pubTempl privTempl
  let pub := Built.publicKey be pubTempl k isRsa
  let priv := Built.privateKey be pub privTempl k isRsa
  let handles := [st.newHandle, (st.fill pub).newHandle]
  -- The label that a rotation is announced under.
  let label :=
    if labelFromTemplate privTempl = [] then labelFromTemplate pubTempl
    else labelFromTemplate privTempl
  return { answer := { rv := priv.rv, handles := if priv.rv = .ok then handles else [] }
           edit := .buildPair pub priv old
           events :=
             if priv.rv = .ok then
               hsm.rotationEvents session (st.buildPair pub priv old) label handles
             else [] }

def cGenerateKeyPair (seed : Nat) (session : CkUlong) (mech : Option CkMechanism)
    (pubTempl privTempl : List CkAttribute) (phPublicKey phPrivateKey : Bool) :
    Except CkRv Effect := do
  hsm.checkInitialized
  let m ← orRefuse mech .argumentsBad
  refuseIf (phPublicKey = false ∨ phPrivateKey = false) .argumentsBad
  generateAndStoreKeypair be hsm seed session m pubTempl privTempl ckInvalidHandle

/-- Take over an attribute of the old key unless the template has an entry of its type. -/
def ensureAttr (old : HsmObject) (templ : List CkAttribute) (t : CkUlong) : List CkAttribute :=
  if templ.any (·.type = t) then templ
  else
    match old.nonEmpty t with
    | some v => templ ++ [⟨t, .data v⟩]
    | none => templ

/-- The generation mechanism for the successor of a key. -/
def rotationMechanism (old : HsmObject) : CkMechanism :=
  match old.findAttribute ckaKeyType with
  | some v =>
    if v.length = 8 ∧ bytesUlong v = ckkRsa then ⟨ckmRsaPkcsKeyPairGen, .absent⟩
    -- Every other type of key is succeeded by an elliptic-curve key.
    else ⟨ckmEcKeyPairGen, .absent⟩
  | none => ⟨ckmEcKeyPairGen, .absent⟩

/-- `p11_rotate_keypair`. -/
def rotateKeypair (seed : Nat) (session oldPrivate : CkUlong)
    (pubTempl privTempl : List CkAttribute) (phPublicKey phPrivateKey : Bool) :
    Except CkRv Effect := do
  hsm.checkInitialized
  refuseIf (phPublicKey = false ∨ phPrivateKey = false) .argumentsBad
  let st ← orRefuse (hsm.store session) .sessionHandleInvalid
  let old ← orRefuse (st.getObject oldPrivate) .objectHandleInvalid
  refuseIf (old.type ≠ .privateKey) .keyHandleInvalid
  let pubTempl' := [ckaLabel, ckaId, ckaEcParams].foldl (ensureAttr old) pubTempl
  let privTempl' := [ckaLabel, ckaId, ckaModulusBits].foldl (ensureAttr old) privTempl
  generateAndStoreKeypair be hsm seed session (rotationMechanism old) pubTempl' privTempl'
    oldPrivate

end Hsm

end VirtualHsm
