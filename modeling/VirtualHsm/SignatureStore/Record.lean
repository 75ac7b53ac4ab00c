import VirtualHsm.Core.Utils

/-!
# Signature records

What the module hands to the signature store after it has signed, and what the store hands to the
ledger.
-/

namespace VirtualHsm

/-- A signature with what is known about the signed data. -/
structure SignResult where
  signature : Bytes
  mechanismStr : String
  digestAlg : String
  payloadDigest : String
  payloadSize : Int
  deriving DecidableEq, Repr

/-- The arguments of the dispatcher. -/
structure SignatureDispatchInput where
  signResult : SignResult
  createdAt : Int
  slotId : Int
  tokenLabel : Bytes
  keyId : String
  keyFingerprint : String
  mechanism : String
  digestAlgorithm : String
  sessionHandle : String
  userLabel : Option String := none
  appContext : Option String := none
  deriving DecidableEq, Repr

/-- A stored signature on its way to the ledger. The fields that the ledger client does not send
are those of the dispatcher's input. -/
structure SignatureRecord where
  recordId : String
  createdAt : Int
  keyFingerprint : String
  payloadDigest : String
  signatureB64 : String
  pqcAlgo : String := ""
  signaturePqcB64 : Option String := none
  keyFingerprintPqc : Option String := none
  deriving DecidableEq, Repr

end VirtualHsm
