import Mathlib.Logic.Function.Basic
import VirtualHsm.CS.JsonDocument
import VirtualHsm.Firmware.AuditTrail
import VirtualHsm.Firmware.SignLimit

/-!
# The commands of the signing firmware

A client creates a key for a user, uploads a file in chunks and has it signed. Requests are JSON
objects; a handler checks the fields it reads, does its work on the card, and answers with an object
of its own.

The transport in front of the handlers, with its throttles and its token, is left out. File names
that differ are different files.
-/

namespace VirtualHsm.Firmware

open CS

/-! ### Answers -/

inductive ErrorCode
  | invalidJson
  | missingCmd
  | unknownCmd
  | missingOrInvalidUserId
  | missingOrInvalidFilename
  | missingDataBase64
  | invalidBase64
  | rateLimited
  | fileTooLarge
  | keyAlreadyExists
  | unknownUserId
  | fileNotFound
  | fileNotFoundOrTooLarge
  | keySetupFailed
  | keyGenerationFailed
  | keyExportFailed
  | keyWriteFailed
  | keyWriteIncomplete
  | tmpCreateFailed
  | tmpOpenFailed
  | tmpWriteIncomplete
  | keyLoadFailed
  | hashFailed
  | signingFailed
  deriving DecidableEq, Repr

namespace ErrorCode

def text : ErrorCode → String
  | invalidJson => "invalid_json"
  | missingCmd => "missing_cmd"
  | unknownCmd => "unknown_cmd"
  | missingOrInvalidUserId => "missing_or_invalid_userId"
  | missingOrInvalidFilename => "missing_or_invalid_filename"
  | missingDataBase64 => "missing_dataBase64"
  | invalidBase64 => "invalid_base64"
  | rateLimited => "rate_limited"
  | fileTooLarge => "file_too_large"
  | keyAlreadyExists => "key_already_exists"
  | unknownUserId => "unknown_userId"
  | fileNotFound => "file_not_found"
  | fileNotFoundOrTooLarge => "file_not_found_or_too_large"
  | keySetupFailed => "key_setup_failed"
  | keyGenerationFailed => "key_generation_failed"
  | keyExportFailed => "key_export_failed"
  | keyWriteFailed => "key_write_failed"
  | keyWriteIncomplete => "key_write_incomplete"
  | tmpCreateFailed => "tmp_create_failed"
  | tmpOpenFailed => "tmp_open_failed"
  | tmpWriteIncomplete => "tmp_write_incomplete"
  | keyLoadFailed => "key_load_failed"
  | hashFailed => "hash_failed"
  | signingFailed => "signing_failed"

/-- `error_http_status`: what is not in the table is an internal error. -/
def httpStatus : ErrorCode → Nat
  | invalidJson | missingCmd | missingOrInvalidUserId | missingOrInvalidFilename
  | missingDataBase64 | invalidBase64 => 400
  | unknownCmd | unknownUserId | fileNotFound | fileNotFoundOrTooLarge => 404
  | keyAlreadyExists => 409
  | fileTooLarge => 413
  | rateLimited => 429
  | _ => 500

/-- `error_message`. -/
def message : ErrorCode → String
  | invalidJson => "Request body is not valid JSON"
  | missingCmd => "Missing or invalid 'cmd' field"
  | unknownCmd => "Unknown command"
  | missingOrInvalidUserId => "Missing or invalid 'userId'"
  | missingOrInvalidFilename => "Missing or invalid 'filename'"
  | missingDataBase64 => "Missing 'dataBase64' field"
  | invalidBase64 => "'dataBase64' is not valid base64"
  | rateLimited => "Operation rate limit exceeded"
  | fileTooLarge => "Upload exceeds the maximum allowed size"
  | keyAlreadyExists => "A key for this user already exists"
  | unknownUserId => "No key exists for this user"
  | fileNotFound => "Uploaded file not found"
  | fileNotFoundOrTooLarge => "Uploaded file not found or too large"
  | _ => "Internal error"

/-- `error_hint`; internal errors have none. -/
def hint : ErrorCode → String
  | invalidJson => "Send one well-formed JSON object, e.g. \x7b\"cmd\":\"sign\"\x7d"
  | missingCmd => "cmd must be one of: createKey, uploadStart, uploadChunk, uploadEnd, sign"
  | unknownCmd => "Supported commands: createKey, uploadStart, uploadChunk, uploadEnd, sign"
  | missingOrInvalidUserId => "userId must be 1-64 chars using A-Z a-z 0-9 - _ ."
  | missingOrInvalidFilename => "filename must be 1-128 chars using A-Z a-z 0-9 - _ ."
  | missingDataBase64 => "Include the file chunk, base64-encoded, in 'dataBase64'"
  | invalidBase64 => "Re-encode the chunk with standard base64"
  | rateLimited => "Slow down: fewer commands per minute"
  | fileTooLarge => "Files are capped at 32 KiB; upload in smaller chunks"
  | keyAlreadyExists => "Set overwrite:true to replace the existing key"
  | unknownUserId => "Generate a key first with cmd=createKey"
  | fileNotFound => "Run uploadStart, uploadChunk, uploadEnd before signing"
  | fileNotFoundOrTooLarge => "Re-upload the file (max 32 KiB)"
  | _ => ""

end ErrorCode

/-- What a handler answers. -/
inductive Reply
  | error (code : ErrorCode)
  | keyCreated (userId publicKeyPem : Bytes)
  | uploadStarted (filename : Bytes)
  | chunkWritten (filename : Bytes) (bytesWritten totalBytes : Nat)
  | uploadEnded (filename : Bytes) (totalBytes : Nat)
  | signed (userId filename : Bytes) (hashHex signatureAlgorithm signatureBase64 : String)
  deriving DecidableEq, Repr

structure CmdResult where
  status : Nat
  body : JsonDoc

/-- The fields of an answer, in their order. -/
def Reply.fields : Reply → List (String × JsonDoc)
  | .error code =>
    [("status", .str "error"), ("error", .str code.text), ("message", .str code.message)] ++
      if code.hint = "" then [] else [("hint", .str code.hint)]
  | .keyCreated userId publicKeyPem =>
    [("userId", .str (bytesText userId)), ("publicKeyAlgorithm", .str "ECDSA-P256"),
      ("publicKeyPem", .str (bytesText publicKeyPem)), ("status", .str "ok")]
  | .uploadStarted filename =>
    [("filename", .str (bytesText filename)), ("status", .str "ok")]
  | .chunkWritten filename bytesWritten totalBytes =>
    [("filename", .str (bytesText filename)), ("bytesWritten", .int bytesWritten),
      ("totalBytes", .int totalBytes), ("status", .str "ok")]
  | .uploadEnded filename totalBytes =>
    [("filename", .str (bytesText filename)), ("totalBytes", .int totalBytes),
      ("status", .str "ok")]
  | .signed userId filename hashHex signatureAlgorithm signatureBase64 =>
    [("userId", .str (bytesText userId)), ("filename", .str (bytesText filename)),
      ("hashAlgorithm", .str "SHA-256"), ("hashHex", .str hashHex),
      ("signatureAlgorithm", .str signatureAlgorithm),
      ("signatureBase64", .str signatureBase64), ("status", .str "ok")]

/-- `make_error` and `make_success`. -/
def Reply.cmdResult (reply : Reply) : CmdResult where
  status :=
    match reply with
    | .error code => code.httpStatus
    | _ => 200
  body := .obj reply.fields

/-- A client tells a failure from a success by the status. -/
theorem Reply.status_eq_iff (reply : Reply) :
    reply.cmdResult.status = 200 ↔ ∀ code, reply ≠ .error code := by
  cases reply with
  | error code => cases code <;> simp [Reply.cmdResult, ErrorCode.httpStatus]
  | _ => simp [Reply.cmdResult]

/-! ### Requests -/

def userIdMaxLen : Nat := 64
def filenameMaxLen : Nat := 128

def safeChars : Bytes :=
  "ABCDEFGHIJKLMNOPQRSTUVWXYZabcdefghijklmnopqrstuvwxyz0123456789-_.".toUTF8.toList

/-- `is_safe_name_component`. -/
def isSafeNameComponent (s : Bytes) (maxLen : Nat) : Bool :=
  s ≠ [] && s.length ≤ maxLen && s ≠ [46] && s ≠ [46, 46] && s.all fun c => c ∈ safeChars

/-- `validate_string_component`, with the value of a valid item. -/
def validateStringComponent (item : Option Bytes) (maxLen : Nat) : Option Bytes :=
  item.filter fun s => isSafeNameComponent s maxLen

/-- The commands, with the items that their handlers read. -/
inductive Command
  | createKey (userId : Option Bytes) (overwrite : Bool)
  | uploadStart (filename : Option Bytes)
  | uploadChunk (filename dataBase64 : Option Bytes)
  | uploadEnd (filename : Option Bytes)
  | sign (userId filename : Option Bytes)
  deriving DecidableEq, Repr

/-- `cJSON_GetObjectItemCaseSensitive`: the first of the name; only objects have items. -/
def objectItem (root : JsonDoc) (name : String) : Option JsonDoc :=
  match root with
  | .obj fields => fields.lookup name
  | _ => none

/-- The value of a string item, as a C string. -/
def stringItem (root : JsonDoc) (name : String) : Option Bytes :=
  match objectItem root name with
  | some (.str s) => some (s.toUTF8.toList.takeWhile (· ≠ 0))
  | _ => none

/-- The dispatch of `handle_request`. -/
def readCommand (root : Option JsonDoc) : Except ErrorCode Command :=
  match root with
  | none => .error .invalidJson
  | some doc =>
    match stringItem doc "cmd" with
    | none => .error .missingCmd
    | some cmd =>
      if cmd = "createKey".toUTF8.toList then
        .ok (.createKey (stringItem doc "userId")
          (match objectItem doc "overwrite" with
            | some (.bool b) => b
            | _ => false))
      else if cmd = "uploadStart".toUTF8.toList then
        .ok (.uploadStart (stringItem doc "filename"))
      else if cmd = "uploadChunk".toUTF8.toList then
        .ok (.uploadChunk (stringItem doc "filename") (stringItem doc "dataBase64"))
      else if cmd = "uploadEnd".toUTF8.toList then
        .ok (.uploadEnd (stringItem doc "filename"))
      else if cmd = "sign".toUTF8.toList then
        .ok (.sign (stringItem doc "userId") (stringItem doc "filename"))
      else .error .unknownCmd

/-! ### The surroundings -/

/-- The kinds of `mbedtls_pk_get_type` that the firmware tells apart. -/
inductive PkType
  | rsa
  | eckey
  | ecdsa
  | other
  deriving DecidableEq, Repr

/-- `pk_alg_name_for`. -/
def pkAlgNameFor : PkType → String
  | .rsa => "RSA-PKCS1-SHA256"
  | .eckey | .ecdsa => "ECDSA-SHA256"
  | .other => "unknown"

/-- The cryptographic library. Random numbers come from a seed. -/
structure PkApi where
  Key : Type
  sha256 : Bytes → Bytes
  pkType : Key → PkType
  genKey : Nat → Option Key
  writeKeyPem : Key → Option Bytes
  writePubkeyPem : Key → Option Bytes
  parseKey : Bytes → Option Key
  pkSign : Nat → Key → Bytes → Option Bytes
  base64Decode : Bytes → Option Bytes

/-- What one request finds around it. -/
structure CmdEnv where
  seed : Nat := 0
  now : UInt32 := 0
  /-- `mbedtls_pk_setup` and `mbedtls_md` succeed. -/
  keySetup : Bool := true
  hashes : Bool := true
  /-- The file that the handler writes can be opened. -/
  opens : Bool := true
  /-- The bytes that a write takes when it does not take all. -/
  shortWrite : Option Nat := none
  /-- The key file and the uploaded file can be opened and read. -/
  keyReads : Bool := true
  fileReads : Bool := true
  /-- The uploaded file can be removed. -/
  unlinks : Bool := true
  card : CardIo := ⟨.full, true⟩
  deriving DecidableEq, Repr

/-- All file operations on uploads succeed. -/
structure CmdEnv.FilesWork (env : CmdEnv) : Prop where
  opens : env.opens = true
  shortWrite : env.shortWrite = none
  fileReads : env.fileReads = true
  unlinks : env.unlinks = true

/-- The build options that the handlers read. -/
structure SignerConfig where
  signLimitPerMin : SignLimitPerMin
  auditEnabled : Bool

/-- The device: the directories for uploads and keys, the signing budgets, the counter of
signatures and the audit trail. -/
structure Signer where
  uploads : Bytes → Option Bytes
  keys : Bytes → Option Bytes
  limits : SignLimits
  signCount : UInt32
  audit : Device

def maxFileReadLen : Nat := 32 * 1024
def maxUploadBytes : Nat := 32 * 1024
def signatureB64BufLen : Nat := 700

/-- `read_sd_file`: the buffer for an empty file has one byte, and stays zero. -/
def readSdFile (content : Option Bytes) (reads : Bool) : Option Bytes :=
  match content with
  | none => none
  | some bytes =>
    if maxFileReadLen < bytes.length then none
    else if reads then some (if bytes = [] then [0] else bytes)
    else none

section Handlers

variable (pk : PkApi) (config : SignerConfig) (st : Signer) (env : CmdEnv)

/-- The chunk in a request: the buffer for it is a byte larger than three quarters of the text. -/
def decodeChunk (dataBase64 : Bytes) : Option Bytes :=
  (pk.base64Decode dataBase64).filter fun decoded =>
    decoded.length ≤ dataBase64.length * 3 / 4 + 1

/-- `load_key_for_user`: no file, a file that is no key, or the key. -/
def loadKeyForUser (userId : Bytes) : Except ErrorCode pk.Key :=
  match readSdFile (st.keys userId) env.keyReads with
  | none => .error .unknownUserId
  | some buf =>
    -- The parser wants a terminating zero.
    match pk.parseKey (buf ++ [0]) with
    | none => .error .keyLoadFailed
    | some key => .ok key

/-- `sign_hash`. -/
def signHash (key : pk.Key) (hash : Bytes) : Option String :=
  match pk.pkSign env.seed key hash with
  | none => none
  | some sig =>
    -- The encoder ends the text with a zero.
    if (base64Encode sig).length + 1 ≤ signatureB64BufLen then some (base64Encode sig) else none

def handleCreateKey (userId : Option Bytes) (overwrite : Bool) : Reply × Signer :=
  match validateStringComponent userId userIdMaxLen with
  | none => (.error .missingOrInvalidUserId, st)
  | some user =>
    let existed := (st.keys user).isSome
    if overwrite = false ∧ existed = true then (.error .keyAlreadyExists, st)
    else if env.keySetup = false then (.error .keySetupFailed, st)
    else
      match pk.genKey env.seed with
      | none => (.error .keyGenerationFailed, st)
      | some key =>
        match pk.writeKeyPem key, pk.writePubkeyPem key with
        | some pem, some publicKeyPem =>
          if env.opens = false then (.error .keyWriteFailed, st)
          else
            match env.shortWrite with
            | some n =>
              -- The key that was there is gone.
              (.error .keyWriteIncomplete,
                { st with keys := Function.update st.keys user (some (pem.take n)) })
            | none =>
              (.keyCreated user publicKeyPem,
                { st with
                  keys := Function.update st.keys user (some pem)
                  audit := auditLog pk.sha256 config.auditEnabled st.audit
                    (if existed ∧ overwrite then .keyOverwritten else .keyCreated)
                    (some user) (some "ECDSA-P256".toUTF8.toList) env.now env.card })
        | _, _ => (.error .keyExportFailed, st)

def handleUploadStart (filename : Option Bytes) : Reply × Signer :=
  match validateStringComponent filename filenameMaxLen with
  | none => (.error .missingOrInvalidFilename, st)
  | some f =>
    if env.opens = false then (.error .tmpCreateFailed, st)
    else (.uploadStarted f, { st with uploads := Function.update st.uploads f (some []) })

/-- `handle_upload_chunk`: an upload need not have been started. -/
def handleUploadChunk (filename dataBase64 : Option Bytes) : Reply × Signer :=
  match validateStringComponent filename filenameMaxLen with
  | none => (.error .missingOrInvalidFilename, st)
  | some f =>
    match dataBase64 with
    | none => (.error .missingDataBase64, st)
    | some text =>
      match decodeChunk pk text with
      | none => (.error .invalidBase64, st)
      | some decoded =>
        let cur := (st.uploads f).getD []
        if maxUploadBytes ≤ cur.length ∨ maxUploadBytes - cur.length < decoded.length then
          (.error .fileTooLarge, st)
        else if env.opens = false then (.error .tmpOpenFailed, st)
        else
          match env.shortWrite with
          | some n =>
            (.error .tmpWriteIncomplete,
              { st with uploads := Function.update st.uploads f (some (cur ++ decoded.take n)) })
          | none =>
            (.chunkWritten f decoded.length (cur ++ decoded).length,
              { st with uploads := Function.update st.uploads f (some (cur ++ decoded)) })

def handleUploadEnd (filename : Option Bytes) : Reply × Signer :=
  match validateStringComponent filename filenameMaxLen with
  | none => (.error .missingOrInvalidFilename, st)
  | some f =>
    match st.uploads f with
    | none => (.error .fileNotFound, st)
    | some bytes => (.uploadEnded f bytes.length, st)

/-- `unlink` of an uploaded file. -/
def Signer.unlink (f : Bytes) : Signer :=
  if env.unlinks then { st with uploads := Function.update st.uploads f none } else st

/-- The part of `handle_sign` behind the budget. -/
def signFile (user f : Bytes) : Reply × Signer :=
  match loadKeyForUser pk st env user with
  | .error code => (.error code, st)
  | .ok key =>
    match readSdFile (st.uploads f) env.fileReads with
    | none => (.error .fileNotFoundOrTooLarge, st)
    | some buf =>
      -- From here on the upload is removed, whatever happens.
      if env.hashes = false then (.error .hashFailed, st.unlink env f)
      else
        match signHash pk env key (pk.sha256 buf) with
        | none => (.error .signingFailed, st.unlink env f)
        | some sig =>
          let hashHex := hexText (pk.sha256 buf)
          let st := st.unlink env f
          (.signed user f hashHex (pkAlgNameFor (pk.pkType key)) sig,
            { st with
              signCount := st.signCount + 1
              audit := auditLog pk.sha256 config.auditEnabled st.audit .sign (some user)
                (some (f ++ " hash=".toUTF8.toList ++ hashHex.toUTF8.toList)) env.now
                env.card })

/-- `handle_sign`: the request counts for the user's budget before the key is looked for. -/
def handleSign (userId filename : Option Bytes) : Reply × Signer :=
  match validateStringComponent userId userIdMaxLen with
  | none => (.error .missingOrInvalidUserId, st)
  | some user =>
    match validateStringComponent filename filenameMaxLen with
    | none => (.error .missingOrInvalidFilename, st)
    | some f =>
      let limited := userSignRateLimited config.signLimitPerMin st.limits user env.now
      let st := { st with limits := limited.2 }
      if limited.1 then (.error .rateLimited, st) else signFile pk config st env user f

def handleCommand : Command → Reply × Signer
  | .createKey userId overwrite => handleCreateKey pk config st env userId overwrite
  | .uploadStart filename => handleUploadStart st env filename
  | .uploadChunk filename dataBase64 => handleUploadChunk pk st env filename dataBase64
  | .uploadEnd filename => handleUploadEnd st filename
  | .sign userId filename => handleSign pk config st env userId filename

/-- `handle_request`, on what the JSON parser returns. -/
def handleRequest (root : Option JsonDoc) : Reply × Signer :=
  match readCommand root with
  | .error code => (.error code, st)
  | .ok cmd => handleCommand pk config st env cmd

end Handlers

/-- A request and what it finds around it. -/
structure CmdCall where
  root : Option JsonDoc
  env : CmdEnv

def Signer.step (pk : PkApi) (config : SignerConfig) (st : Signer) (c : CmdCall) : Reply × Signer :=
  handleRequest pk config st c.env c.root

end VirtualHsm.Firmware
