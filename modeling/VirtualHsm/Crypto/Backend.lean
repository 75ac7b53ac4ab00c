import VirtualHsm.Pkcs11.Types

/-!
# The libraries behind the module

The cryptographic library is not part of this development. `Backend` names the functions the
module calls, with the results it distinguishes; every statement about the module is for all
backends. A library function that draws random numbers takes a seed, which each call of the
interface brings with it.
-/

namespace VirtualHsm

inductive HashAlgorithm
  | sha256
  | sha384
  | sha512
  deriving DecidableEq, Repr

inductive RsaPadding
  | pkcs1
  | none
  | oaep
  | pss
  deriving DecidableEq, Repr

inductive Curve
  | p256
  | p384
  | p521
  deriving DecidableEq, Repr

/-- The algorithm family of an asymmetric key, `EVP_PKEY_get_base_id`. -/
inductive KeyBase
  | rsa
  | ec
  | other
  deriving DecidableEq, Repr

/-- The cryptographic library. A missing result stands for a null pointer or an exception, an
error code for the code the module's wrapper derives from the library's failure. -/
structure Backend where
  /-- Asymmetric keys, `EVP_PKEY`. -/
  Pkey : Type
  /-- The build uses the OpenSSL shim, so that keys are imported by the hardened library. -/
  shim : Bool
  base : Pkey → KeyBase
  /-- `p11_random_bytes`. -/
  randomBytes : Nat → Nat → Option Bytes
  length_randomBytes : ∀ seed n bs, randomBytes seed n = some bs → bs.length = n
  rsaGenerate : Nat → Int → Option Pkey
  ecGenerate : Nat → Curve → Option Pkey
  rsaExportPrivateDer : Pkey → Option Bytes
  rsaExportPublicDer : Pkey → Option Bytes
  ecExportPrivateDer : Pkey → Option Bytes
  ecExportParamsDer : Pkey → Option Bytes
  ecExportPublicPoint : Pkey → Option Bytes
  /-- Import of `CKA_VHSM_RSA_PRIV`, and so on for the other attributes. -/
  rsaImportPrivateDer : Bytes → Option Pkey
  ecImportPrivateDer : Bytes → Option Pkey
  rsaImportPublicDer : Bytes → Option Pkey
  ecImportPublicParamsPoint : Bytes → Bytes → Option Pkey
  d2iEcPubkey : Bytes → Option Pkey
  /-- A peer's public key, `d2i_PUBKEY`. -/
  d2iPubkey : Bytes → Option Pkey
  i2dRsaPrivateKey : Pkey → Option Bytes
  i2dRsaPublicKey : Pkey → Option Bytes
  i2dEcPrivateKey : Pkey → Option Bytes
  i2oEcPublicKey : Pkey → Option Bytes
  i2dEcpkParameters : Pkey → Option Bytes
  ecPointPoint2oct : Pkey → Option Bytes
  hash : HashAlgorithm → Bytes → Bytes
  /-- `p11_rsa_encrypt`: seed, key, padding, label, digest name, plaintext. -/
  rsaEncrypt : Nat → Pkey → RsaPadding → Bytes → String → Bytes → Except CkRv Bytes
  rsaDecrypt : Pkey → RsaPadding → Bytes → String → Bytes → Except CkRv Bytes
  /-- `p11_rsa_sign`: seed, key, padding, digest name, mask digest name, digest. -/
  rsaSign : Nat → Pkey → RsaPadding → String → String → Bytes → Except CkRv Bytes
  /-- `p11_rsa_verify`: key, padding, digest name, mask digest name, digest, signature. -/
  rsaVerify : Pkey → RsaPadding → String → String → Bytes → Bytes → CkRv
  ecdsaSign : Nat → Pkey → Bytes → Except CkRv Bytes
  ecdsaVerify : Pkey → Bytes → Bytes → CkRv
  /-- `p11_ecdh_derive`; empty on failure. -/
  ecdhDerive : Pkey → Pkey → Bytes
  /-- `p11_aes_gcm_encrypt`: key, nonce, additional data, plaintext; ciphertext and tag. -/
  aesGcmEncrypt : Bytes → Bytes → Bytes → Bytes → Except CkRv (Bytes × Bytes)
  /-- `p11_aes_gcm_decrypt`: key, nonce, additional data, ciphertext, tag. -/
  aesGcmDecrypt : Bytes → Bytes → Bytes → Bytes → Bytes → Except CkRv Bytes
  /-- One AES block, key first. -/
  aesEncryptBlock : Bytes → Bytes → Bytes
  aesDecryptBlock : Bytes → Bytes → Bytes

/-- With a key of 32 bytes, decryption of blocks undoes their encryption. -/
structure Backend.InvertsBlocks (be : Backend) : Prop where
  length_encrypt : ∀ key block : Bytes, key.length = 32 → block.length = 16 →
    (be.aesEncryptBlock key block).length = 16
  decrypt_encrypt : ∀ key block : Bytes, key.length = 32 → block.length = 16 →
    be.aesDecryptBlock key (be.aesEncryptBlock key block) = block

/-- A library without cryptography: a key is its family, encryption and hashing are the identity,
and a signature is the signed text. Runs on fixed inputs use it. -/
def Backend.toy : Backend where
  Pkey := KeyBase
  shim := true
  base k := k
  randomBytes _ n := some (List.replicate n 7)
  length_randomBytes _ n _ h := by
    cases h
    exact List.length_replicate
  rsaGenerate _ _ := some .rsa
  ecGenerate _ _ := some .ec
  rsaExportPrivateDer _ := some [1]
  rsaExportPublicDer _ := some [2]
  ecExportPrivateDer _ := some [3]
  ecExportParamsDer _ := some [4]
  ecExportPublicPoint _ := some [5]
  rsaImportPrivateDer _ := some .rsa
  ecImportPrivateDer _ := some .ec
  rsaImportPublicDer _ := some .rsa
  ecImportPublicParamsPoint _ _ := some .ec
  d2iEcPubkey _ := some .ec
  d2iPubkey _ := some .ec
  i2dRsaPrivateKey _ := some [1]
  i2dRsaPublicKey _ := some [2]
  i2dEcPrivateKey _ := some [3]
  i2oEcPublicKey _ := some [5]
  i2dEcpkParameters _ := some [4]
  ecPointPoint2oct _ := some [5]
  hash _ data := data
  rsaEncrypt _ _ _ _ _ data := .ok data
  rsaDecrypt _ _ _ _ data := .ok data
  rsaSign _ _ _ _ _ data := .ok data
  rsaVerify _ _ _ _ data sig := if data = sig then .ok else .signatureInvalid
  ecdsaSign _ _ data := .ok data
  ecdsaVerify _ data sig := if data = sig then .ok else .signatureInvalid
  ecdhDerive _ _ := [6]
  aesGcmEncrypt _ _ _ data := .ok (data, List.replicate 16 0)
  aesGcmDecrypt _ _ _ data _ := .ok data
  aesEncryptBlock _ block := block
  aesDecryptBlock _ block := block

end VirtualHsm
