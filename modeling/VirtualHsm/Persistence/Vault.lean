import VirtualHsm.Persistence.TokenSerializer

/-!
# The vault file

The vault keeps one payload in a file, encrypted with a key that is derived from a password. In front
of the ciphertext there is a header of 68 bytes:

    0   magic
    8   format version
    12  salt
    28  iterations
    32  nonce
    44  tag
    60  length of the ciphertext

The file is written in one place and read in two: by the constructor, which decrypts it to see that the
password is right, and by `load`. Each of the three has the offsets of the fields for itself.
-/

namespace VirtualHsm

/-! ### The primitives -/

/-- Key derivation and authenticated encryption. Decryption may throw. -/
structure VaultCrypto where
  pbkdf2HmacSha256 : (password salt : Bytes) → (iterations : UInt32) → (outLen : Nat) → Bytes
  length_pbkdf2 : ∀ password salt iterations outLen,
    (pbkdf2HmacSha256 password salt iterations outLen).length = outLen
  /-- The ciphertext and the tag, for a nonce that is drawn at random. -/
  aes256GcmEncrypt : (key nonce plaintext : Bytes) → Bytes × (Fin 16 → UInt8)
  aes256GcmDecrypt : (key ciphertext nonce tag : Bytes) → Except String Bytes
  decrypt_encrypt : ∀ key nonce plaintext, key.length = 32 → nonce.length = 12 →
    aes256GcmDecrypt key (aes256GcmEncrypt key nonce plaintext).1 nonce
      (List.ofFn (aes256GcmEncrypt key nonce plaintext).2) = .ok plaintext

structure AESGCMResult where
  ciphertext : Bytes
  nonce : Bytes
  tag : Bytes
  deriving DecidableEq, Repr

variable (c : VaultCrypto)

def deriveVaultKey (password salt : Bytes) (iterations : UInt32) (outLen : Nat) :
    Except String Bytes :=
  if password = [] then .error "derive_vault_key: password must not be empty"
  else if salt = [] then .error "derive_vault_key: salt must not be empty"
  else if iterations = 0 then .error "derive_vault_key: iterations must be > 0"
  else if outLen = 0 then .error "derive_vault_key: out_len must be > 0"
  else .ok (c.pbkdf2HmacSha256 password salt iterations outLen)

namespace AESGCM

def encrypt (key : Bytes) (nonce : Fin 12 → UInt8) (plaintext : Bytes) :
    Except String AESGCMResult :=
  if key.length ≠ 32 then .error "AESGCM::encrypt: key must be 32 bytes"
  else
    let out := c.aes256GcmEncrypt key (List.ofFn nonce) plaintext
    .ok { ciphertext := out.1, nonce := List.ofFn nonce, tag := List.ofFn out.2 }

def decrypt (key : Bytes) (data : AESGCMResult) : Except String Bytes :=
  if key.length ≠ 32 then .error "AESGCM::decrypt: key must be 32 bytes"
  else if data.nonce.length ≠ 12 then .error "AESGCM::decrypt: nonce must be 12 bytes"
  else if data.tag.length ≠ 16 then .error "AESGCM::decrypt: tag must be 16 bytes"
  else
    (c.aes256GcmDecrypt key data.ciphertext data.nonce data.tag).mapError
      ("authentication failed: " ++ ·)

end AESGCM

/-! ### The format -/

/-- The characters `VHSMVAUL`. -/
def kVaultMagic : Bytes := [0x56, 0x48, 0x53, 0x4D, 0x56, 0x41, 0x55, 0x4C]

def kVaultFormatVersion : UInt32 := 1

def kVaultPbkdf2Iterations : UInt32 := 600000

def kVaultSaltLen : Nat := 16
def kVaultNonceLen : Nat := 12
def kVaultTagLen : Nat := 16
def kVaultKeyLen : Nat := 32

def kVaultHeaderLen : Nat := 8 + 4 + kVaultSaltLen + 4 + kVaultNonceLen + kVaultTagLen + 8

/-! ### The vault -/

structure Vault where
  path : String
  password : Bytes
  version : UInt32 := kVaultFormatVersion
  valid : Bool := false
  deriving DecidableEq, Repr

/-- A system call of `save` that fails, with what it reports. -/
inductive SaveFault
  | createTemp (detail : String)
  | write (detail : String)
  | fsync (detail : String)
  | close (detail : String)
  | rename (detail : String)
  deriving DecidableEq, Repr

def SaveFault.message : SaveFault → String
  | createTemp detail => "Vault::save: cannot create temp file: " ++ detail
  | write detail => "Vault::save: write failed: " ++ detail
  | fsync detail => "Vault::save: fsync failed: " ++ detail
  | close detail => "Vault::save: close failed: " ++ detail
  | rename detail => "Vault::save: rename failed: " ++ detail

/-- What a process does with a vault. -/
inductive VaultStep
  | save (salt : Fin 16 → UInt8) (nonce : Fin 12 → UInt8) (fault : Option SaveFault)
      (payload : Bytes)
  | load

namespace Vault

def readFileBytes (path : String) : Option Bytes → Except String Bytes
  | some raw => .ok raw
  | none => .error ("Vault: cannot open file: " ++ path)

def makeKey (password salt : Bytes) (iterations : UInt32) : Except String Bytes :=
  deriveVaultKey c password salt iterations kVaultKeyLen

/-- The constructor for an existing file. The plaintext that it decrypts to authenticate the file is
given next to the vault; the code drops it. -/
def construct (path : String) (password : Bytes) (file : Option Bytes) :
    Except String (Bytes × Vault) := do
  let raw ← readFileBytes path file
  if raw.length < kVaultHeaderLen then .error "Vault: file too short to be a valid vault"
  else if raw.take 8 ≠ kVaultMagic then .error "Vault: bad magic (not a vHSM vault)"
  else
    let version := getLe32 (raw.drop 8)
    if version ≠ kVaultFormatVersion then
      .error ("Vault: unsupported format version: " ++ toString version)
    else
      let salt := (raw.drop 12).take kVaultSaltLen
      let iterations := getLe32 (raw.drop 28)
      if iterations = 0 then .error "Vault: invalid PBKDF2 iteration count"
      else
        let nonce := (raw.drop 32).take kVaultNonceLen
        let tag := (raw.drop 44).take kVaultTagLen
        let ctLen := getLe64 (raw.drop 60)
        -- The sum is taken modulo `2 ^ 64`.
        if UInt64.ofNat raw.length ≠ UInt64.ofNat kVaultHeaderLen + ctLen then
          .error "Vault: ciphertext length does not match file size"
        else do
          let key ← makeKey c password salt iterations
          match AESGCM.decrypt c key { ciphertext := raw.drop kVaultHeaderLen, nonce, tag } with
          | .error _ => .error "Vault: authentication failed (wrong password or corrupt file)"
          | .ok plaintext => .ok (plaintext, { path, password, version, valid := true })

/-- `load` reads the file again, with checks of its own. -/
def load (v : Vault) (file : Option Bytes) : Except String Bytes :=
  if v.valid = false then .error "Vault::load: vault is not valid"
  else do
    let raw ← readFileBytes v.path file
    if raw.length < kVaultHeaderLen ∨ raw.take 8 ≠ kVaultMagic then
      .error "Vault::load: file is not a valid vault"
    else if getLe32 (raw.drop 8) ≠ kVaultFormatVersion then
      .error "Vault::load: unsupported format version"
    else
      let salt := (raw.drop 12).take kVaultSaltLen
      -- A count of zero is left to the key derivation.
      let iterations := getLe32 (raw.drop 28)
      let nonce := (raw.drop 32).take kVaultNonceLen
      let tag := (raw.drop 44).take kVaultTagLen
      let ctLen := getLe64 (raw.drop 60)
      if UInt64.ofNat raw.length ≠ UInt64.ofNat kVaultHeaderLen + ctLen then
        .error "Vault::load: ciphertext length mismatch"
      else do
        let key ← makeKey c v.password salt iterations
        AESGCM.decrypt c key { ciphertext := raw.drop kVaultHeaderLen, nonce, tag }

/-- The bytes that are written. -/
def image (salt : Bytes) (enc : AESGCMResult) : Bytes :=
  kVaultMagic ++ (putLe32 kVaultFormatVersion ++ (salt ++ (putLe32 kVaultPbkdf2Iterations ++
    (enc.nonce ++ (enc.tag ++ (putLe64 (UInt64.ofNat enc.ciphertext.length) ++ enc.ciphertext))))))

/-- What `save` writes, for a salt and a nonce that are drawn at random. -/
def saveImage (password : Bytes) (salt : Fin 16 → UInt8) (nonce : Fin 12 → UInt8)
    (payload : Bytes) : Except String Bytes :=
  if password = [] then .error "Vault::save: no password available"
  else do
    let key ← makeKey c password (List.ofFn salt) kVaultPbkdf2Iterations
    let enc ← AESGCM.encrypt c key nonce payload
    return image (List.ofFn salt) enc

/-- The result of `save`, the vault and the file. The file is replaced by a rename at the end, so a
failure before that leaves it as it is. -/
def save (v : Vault) (salt : Fin 16 → UInt8) (nonce : Fin 12 → UInt8) (fault : Option SaveFault)
    (payload : Bytes) (file : Option Bytes) : Except String Unit × Vault × Option Bytes :=
  match saveImage c v.password salt nonce payload, fault with
  | .error e, _ => (.error e, v, file)
  | .ok _, some fault => (.error fault.message, v, file)
  | .ok raw, none => (.ok (), { v with valid := true }, some raw)

/-- A new file. -/
def create (path : String) (password : Bytes) (salt : Fin 16 → UInt8) (nonce : Fin 12 → UInt8)
    (fault : Option SaveFault) (payload : Bytes) (file : Option Bytes) :
    Except String Vault × Option Bytes :=
  if password = [] then (.error "Vault::create: password must not be empty", file)
  else if file.isSome then (.error ("Vault::create: file already exists: " ++ path), file)
  else
    let out := save c { path, password } salt nonce fault payload file
    (out.1.map fun _ => out.2.1, out.2.2)

/-- A step, on the vault and the file. -/
def step (s : Vault × Option Bytes) : VaultStep → Except String Bytes × (Vault × Option Bytes)
  | .save salt nonce fault payload =>
    let out := s.1.save c salt nonce fault payload s.2
    (out.1.map fun _ => [], out.2)
  | .load => (s.1.load c s.2, s)

/-- The payload that is in the vault after a step, by what the step answered. -/
def heldAfter (held : Bytes) : VaultStep × Except String Bytes → Bytes
  | (.save _ _ _ payload, .ok _) => payload
  | (.save _ _ _ _, .error _) | (.load, _) => held

variable {c} {path : String} {password raw payload plaintext : Bytes} {file : Option Bytes}
  {v : Vault}

/-! ### What is written -/

theorem drop_add {field after : Bytes} {n k : Nat} (h : raw.drop n = field ++ after)
    (hk : field.length = k) : raw.drop (n + k) = after := by
  rw [← List.drop_drop, h, List.drop_left' hk]

/-- Where the fields of the header are. -/
structure Laid (salt nonce tag ciphertext raw : Bytes) : Prop where
  length : raw.length = kVaultHeaderLen + ciphertext.length
  magic : raw.take 8 = kVaultMagic
  version : getLe32 (raw.drop 8) = kVaultFormatVersion
  salt : (raw.drop 12).take kVaultSaltLen = salt
  iterations : getLe32 (raw.drop 28) = kVaultPbkdf2Iterations
  nonce : (raw.drop 32).take kVaultNonceLen = nonce
  tag : (raw.drop 44).take kVaultTagLen = tag
  ctLen : getLe64 (raw.drop 60) = UInt64.ofNat ciphertext.length
  ciphertext : raw.drop kVaultHeaderLen = ciphertext

theorem laid_image {salt : Bytes} {enc : AESGCMResult} (hsalt : salt.length = 16)
    (hnonce : enc.nonce.length = 12) (htag : enc.tag.length = 16) :
    Laid salt enc.nonce enc.tag enc.ciphertext (image salt enc) := by
  -- Offset by offset, the fields that are left.
  have h8 : (image salt enc).drop 8 = putLe32 kVaultFormatVersion ++ _ :=
    List.drop_left' (show kVaultMagic.length = 8 from rfl)
  have h12 : (image salt enc).drop 12 = salt ++ _ := drop_add h8 (length_putLe32 _)
  have h28 : (image salt enc).drop 28 = putLe32 kVaultPbkdf2Iterations ++ _ := drop_add h12 hsalt
  have h32 : (image salt enc).drop 32 = enc.nonce ++ _ := drop_add h28 (length_putLe32 _)
  have h44 : (image salt enc).drop 44 = enc.tag ++ _ := drop_add h32 hnonce
  have h60 : (image salt enc).drop 60 = putLe64 (UInt64.ofNat enc.ciphertext.length) ++ _ :=
    drop_add h44 htag
  have h68 : (image salt enc).drop 68 = enc.ciphertext := drop_add h60 (length_putLe64 _)
  constructor
  · simp only [image, List.length_append, length_putLe32, length_putLe64, hsalt, hnonce, htag,
      kVaultHeaderLen, kVaultSaltLen, kVaultNonceLen, kVaultTagLen]
    change 8 + _ = _
    omega
  · exact List.take_left' rfl
  · rw [h8, getLe32_putLe32_append]
  · rw [h12]
    exact List.take_left' hsalt
  · rw [h28, getLe32_putLe32_append]
  · rw [h32]
    exact List.take_left' hnonce
  · rw [h44]
    exact List.take_left' htag
  · rw [h60, getLe64_putLe64_append]
  · exact h68

theorem Laid.size_eq {salt nonce tag ciphertext : Bytes} (h : Laid salt nonce tag ciphertext raw) :
    UInt64.ofNat raw.length = UInt64.ofNat kVaultHeaderLen + getLe64 (raw.drop 60) := by
  rw [h.ctLen, h.length, UInt64.ofNat_add]

theorem makeKey_of_ne {salt : Bytes} {iterations : UInt32} (hpassword : password ≠ [])
    (hsalt : salt ≠ []) (hiterations : iterations ≠ 0) :
    makeKey c password salt iterations =
      .ok (c.pbkdf2HmacSha256 password salt iterations kVaultKeyLen) := by
  rw [makeKey, deriveVaultKey, if_neg hpassword, if_neg hsalt, if_neg hiterations,
    if_neg (by decide)]

theorem saveImage_of_ne (hpassword : password ≠ []) (salt : Fin 16 → UInt8)
    (nonce : Fin 12 → UInt8) (payload : Bytes) :
    ∃ enc, saveImage c password salt nonce payload = .ok (image (List.ofFn salt) enc) ∧
      enc.nonce.length = 12 ∧ enc.tag.length = 16 ∧
      AESGCM.decrypt c (c.pbkdf2HmacSha256 password (List.ofFn salt) kVaultPbkdf2Iterations
        kVaultKeyLen) enc = .ok payload := by
  have hsalt : List.ofFn salt ≠ [] := by simp
  have hkey : ¬ (c.pbkdf2HmacSha256 password (List.ofFn salt) kVaultPbkdf2Iterations
      kVaultKeyLen).length ≠ 32 := not_not.mpr (c.length_pbkdf2 _ _ _ _)
  rw [saveImage, if_neg hpassword, makeKey_of_ne hpassword hsalt (by decide)]
  simp only [bind, Except.bind]
  rw [AESGCM.encrypt, if_neg hkey]
  refine ⟨_, rfl, List.length_ofFn, List.length_ofFn, ?_⟩
  rw [AESGCM.decrypt, if_neg hkey, if_neg (not_not.mpr List.length_ofFn),
    if_neg (not_not.mpr List.length_ofFn), c.decrypt_encrypt _ _ _ (not_not.mp hkey) List.length_ofFn]
  rfl

/-! ### The two readers -/

theorem construct_of_laid {salt nonce tag ciphertext : Bytes}
    (h : Laid salt nonce tag ciphertext raw) (hpassword : password ≠ []) (hsalt : salt ≠ [])
    (hdecrypt : AESGCM.decrypt c (c.pbkdf2HmacSha256 password salt kVaultPbkdf2Iterations
      kVaultKeyLen) ⟨ciphertext, nonce, tag⟩ = .ok plaintext) :
    construct c path password (some raw) = .ok (plaintext, { path, password, valid := true }) := by
  have hlong : ¬ raw.length < kVaultHeaderLen := by
    rw [h.length]
    omega
  rw [construct, readFileBytes]
  simp only [bind, Except.bind]
  rw [if_neg hlong, if_neg (not_not.mpr h.magic), h.version, if_neg (not_not.mpr rfl),
    h.iterations, if_neg (by decide), if_neg (not_not.mpr h.size_eq), h.salt,
    makeKey_of_ne hpassword hsalt (by decide)]
  dsimp only
  rw [h.nonce, h.tag, h.ciphertext, hdecrypt]

theorem load_of_construct (h : construct c path password file = .ok (plaintext, v)) :
    v.load c file = .ok plaintext := by
  cases file with
  | none => cases h
  | some raw =>
    rw [construct, readFileBytes] at h
    simp only [bind, Except.bind] at h
    split_ifs at h with hshort hmagic hversion hiterations hlen
    cases hkey : makeKey c password ((raw.drop 12).take kVaultSaltLen) (getLe32 (raw.drop 28)) with
    | error e =>
      rw [hkey] at h
      cases h
    | ok key =>
      rw [hkey] at h
      dsimp only at h
      split at h
      · cases h
      · next hdecrypt =>
          cases h
          rw [load, readFileBytes]
          simp only [bind, Except.bind, Bool.true_eq_false, if_false]
          rw [if_neg (not_or.mpr ⟨hshort, hmagic⟩), if_neg hversion, if_neg hlen, hkey]
          exact hdecrypt

theorem load_congr {v' : Vault} (hvalid : v.valid = v'.valid)
    (hpassword : v.password = v'.password) : v.load c (some raw) = v'.load c (some raw) := by
  rw [load, load, hvalid, hpassword]
  rfl

/-- A file whose length is not the one that its header declares. -/
def Mismatched (raw : Bytes) : Prop :=
  raw.length < kVaultHeaderLen ∨ raw.length ≠ kVaultHeaderLen + (getLe64 (raw.drop 60)).toNat

/-- The check of the length cannot be passed by a sum that wraps around: it would be less than the
length of the header. -/
theorem Mismatched.size_ne (h : Mismatched raw) (hsize : raw.length < 2 ^ 64)
    (hlong : ¬ raw.length < kVaultHeaderLen) :
    UInt64.ofNat raw.length ≠ UInt64.ofNat kVaultHeaderLen + getLe64 (raw.drop 60) := by
  intro heq
  have hne := h.resolve_left hlong
  have hlt := (getLe64 (raw.drop 60)).toNat_lt
  have hnat := congrArg UInt64.toNat heq
  rw [UInt64.toNat_add, UInt64.toNat_ofNat_of_lt' hsize, UInt64.toNat_ofNat_of_lt' (by decide)] at hnat
  change ¬ raw.length < 68 at hlong
  change raw.length ≠ 68 + _ at hne
  change raw.length = (68 + _) % 2 ^ 64 at hnat
  omega

theorem construct_of_mismatched (h : Mismatched raw) (hsize : raw.length < 2 ^ 64) :
    ∃ e, construct c path password (some raw) = .error e := by
  rw [construct, readFileBytes]
  simp only [bind, Except.bind]
  split_ifs with hshort hmagic hversion hiterations hlen
  · exact ⟨_, rfl⟩
  · exact ⟨_, rfl⟩
  · exact ⟨_, rfl⟩
  · exact ⟨_, rfl⟩
  · exact ⟨_, rfl⟩
  · exact absurd (not_not.mp hlen) (h.size_ne hsize hshort)

theorem load_of_mismatched (h : Mismatched raw) (hsize : raw.length < 2 ^ 64) (v : Vault) :
    ∃ e, v.load c (some raw) = .error e := by
  rw [load, readFileBytes]
  simp only [bind, Except.bind]
  split_ifs with hvalid hmagic hversion hlen
  · exact ⟨_, rfl⟩
  · exact ⟨_, rfl⟩
  · exact ⟨_, rfl⟩
  · exact ⟨_, rfl⟩
  · exact absurd (not_not.mp hlen) (h.size_ne hsize (not_or.mp hmagic).1)

/-! ### The format -/

/-- The file that `save` writes is accepted with the same password and gives the payload back. -/
theorem construct_saveImage (hpassword : password ≠ []) (salt : Fin 16 → UInt8)
    (nonce : Fin 12 → UInt8) (payload : Bytes) :
    ∃ raw, saveImage c password salt nonce payload = .ok raw ∧
      ∀ path, construct c path password (some raw) =
        .ok (payload, { path, password, valid := true }) := by
  obtain ⟨enc, himage, hnonce, htag, hdecrypt⟩ :=
    @saveImage_of_ne c password hpassword salt nonce payload
  refine ⟨_, himage, fun path => ?_⟩
  exact construct_of_laid (laid_image List.length_ofFn hnonce htag) hpassword (by simp) hdecrypt

/-- Saving with a password that is not empty writes a file that the constructor accepts and from which
both the vault that saved it and a new one load the payload; whatever the constructor accepts can be
loaded, with the plaintext that it authenticated; and a file that does not have the declared length
is rejected by both readers. -/
theorem vault_format (c : VaultCrypto) :
    (∀ (v : Vault) (salt : Fin 16 → UInt8) (nonce : Fin 12 → UInt8) (payload : Bytes)
        (file : Option Bytes), v.password ≠ [] →
      ∃ raw, v.save c salt nonce none payload file = (.ok (), { v with valid := true }, some raw) ∧
        ({ v with valid := true } : Vault).load c (some raw) = .ok payload ∧
        ∀ path, ∃ v', construct c path v.password (some raw) = .ok (payload, v') ∧
          v'.load c (some raw) = .ok payload) ∧
    (∀ (path : String) (password : Bytes) (file : Option Bytes) (plaintext : Bytes) (v : Vault),
      construct c path password file = .ok (plaintext, v) → v.load c file = .ok plaintext) ∧
    ∀ raw : Bytes, raw.length < 2 ^ 64 → Mismatched raw →
      (∀ path password, ∃ e, construct c path password (some raw) = .error e) ∧
        ∀ v : Vault, ∃ e, v.load c (some raw) = .error e := by
  refine ⟨?_, fun _ _ _ _ _ h => load_of_construct h, ?_⟩
  · intro v salt nonce payload file hpassword
    obtain ⟨raw, himage, hconstruct⟩ := construct_saveImage (c := c) hpassword salt nonce payload
    refine ⟨raw, ?_, ?_, fun path => ⟨_, hconstruct path, load_of_construct (hconstruct path)⟩⟩
    · simp only [save, himage]
    · have hload := load_of_construct (hconstruct v.path)
      rw [← hload]
      exact load_congr rfl rfl
  · intro raw hsize h
    exact ⟨fun _ _ => construct_of_mismatched h hsize, load_of_mismatched h hsize⟩

/-! ### Whole runs -/

/-- A save goes through and is what is loaded from then on, or it fails and leaves everything. -/
theorem load_step {s : Vault × Option Bytes} {held : Bytes} (hpassword : s.1.password ≠ [])
    (h : s.1.load c s.2 = .ok held) (x : VaultStep) :
    (step c s x).2.1.password = s.1.password ∧
      (step c s x).2.1.load c (step c s x).2.2 = .ok (heldAfter held (x, (step c s x).1)) := by
  cases x with
  | load => exact ⟨rfl, h⟩
  | save salt nonce fault payload =>
    obtain ⟨raw, himage, hconstruct⟩ := construct_saveImage (c := c) hpassword salt nonce payload
    cases fault with
    | some fault =>
      simp only [step, save, himage]
      exact ⟨trivial, h⟩
    | none =>
      have hload := load_of_construct (hconstruct s.1.path)
      simp only [step, save, himage]
      refine ⟨trivial, ?_⟩
      change _ = Except.ok payload
      rw [← hload]
      exact load_congr rfl rfl

/-- Whatever is saved and loaded, with whatever failures, the vault gives the payload of the last save
that went through. -/
theorem load_run {s : Vault × Option Bytes} {held : Bytes} (hpassword : s.1.password ≠ [])
    (h : s.1.load c s.2 = .ok held) (steps : List VaultStep) : let s' := CS.run (step c) s steps
    s'.1.load c s'.2 =
      .ok ((steps.zip (CS.answers (step c) s steps)).foldl heldAfter held) := by
  induction steps generalizing s held with
  | nil => exact h
  | cons x steps ih =>
    obtain ⟨hsame, hload⟩ := load_step hpassword h x
    exact ih (hsame ▸ hpassword) hload

/-- No encryption, for runs on fixed inputs. -/
def plain : VaultCrypto where
  pbkdf2HmacSha256 _ _ _ n := .replicate n 0
  length_pbkdf2 _ _ _ _ := List.length_replicate
  aes256GcmEncrypt _ _ text := (text, fun _ => 0)
  aes256GcmDecrypt _ text _ _ := .ok text
  decrypt_encrypt _ _ _ _ _ := rfl

/-- A save that fails after one that has gone through. -/
theorem load_failedSave :
    let save := VaultStep.save (fun _ => 0) (fun _ => 0)
    let s := (step plain ({ path := "v", password := [1] }, none) (save none [7])).2
    let s' := CS.run (step plain) s [save (some (.write "")) [8]]
    s'.1.load plain s'.2 = .ok [7] :=
  load_run (by decide) rfl _

end Vault

end VirtualHsm
