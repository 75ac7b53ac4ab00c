import VirtualHsm.Persistence.Vault

/-!
# Finalize and initialize again

`C_Finalize` writes the token's snapshot to the vault and the next `C_Initialize` restores it
into a new token. The snapshot records that a PIN is set, its counter and its lock, but not
the PIN, so the restored token compares candidates with the empty PIN of a new buffer.
-/

namespace VirtualHsm

/-- Persist a token and restore the saved bytes into a new token of the same name. -/
def persistRestore (t : TokenCore) : Except String TokenCore := do
  let data ← serializeTokenSnapshot (snapshotFromToken t)
  let snap ← deserializeTokenSnapshot data
  restoreTokenFromSnapshot (TokenCore.fresh t.label t.id) snap

/-- The token that a cycle leads to. -/
def restoredToken (t : TokenCore) : TokenCore :=
  (TokenCore.fresh t.label t.id).restoreState (snapshotFromToken t).toDurableState

variable {t t' : TokenCore}

theorem persistRestore_of_length (hlabel : t.label.length ≤ 255) (hid : t.id.length ≤ 255)
    (hkek : t.getKek.length < 2 ^ 64) : persistRestore t = .ok (restoredToken t) := by
  obtain ⟨data, hdata⟩ := exists_serialize_eq_ok (snapshotFromToken t) hlabel hid
  have hlong : ¬ (255 < (snapshotFromToken t).label.length ∨
      255 < (snapshotFromToken t).id.length) :=
    not_or.mpr ⟨Nat.not_lt.mpr hlabel, Nat.not_lt.mpr hid⟩
  rw [persistRestore, hdata]
  simp only [bind, Except.bind, deserializeTokenSnapshot_serialize hkek hdata,
    restoreTokenFromSnapshot, if_neg hlong]
  rfl

/-- A cycle that completes leads to `restoredToken`. -/
theorem eq_restoredToken (hkek : t.getKek.length < 2 ^ 64) (h : persistRestore t = .ok t') :
    t' = restoredToken t := by
  cases hserialize : serializeTokenSnapshot (snapshotFromToken t) with
  | error msg =>
    rw [persistRestore, hserialize] at h
    cases h
  | ok data =>
    obtain ⟨hlabel, hid⟩ := length_le_of_serialize_eq_ok hserialize
    rw [persistRestore_of_length hlabel hid hkek] at h
    exact (Except.ok.inj h).symm

/-! ### What the restored token accepts -/

/-- Both tokens accept the same PINs for login, and `t'` accepts no old PIN for `C_SetPIN` that
`t` refuses. -/
structure AuthenticationPreserved (t t' : TokenCore) : Prop where
  login_iff : ∀ userType, userType = ckuUser ∨ userType = ckuSo → ∀ pin,
    (t'.login userType pin).1 = .ok ↔ (t.login userType pin).1 = .ok
  setPin_of : ∀ old new, (t'.setPin (.data old) (.data new)).1 = .ok →
    (t.setPin (.data old) (.data new)).1 = .ok

theorem login_user_restoredToken {pin : Bytes} :
    ((restoredToken t).login ckuUser pin).1 = .ok ↔
      t.user.locked = false ∧ t.user.isSet = true ∧ pin = [] := by
  rw [TokenCore.login_user_eq_ok]
  change t.user.locked = false ∧ t.user.isSet = true ∧ PinBuffer.fresh.stored = pin ↔ _
  rw [PinBuffer.stored_fresh, eq_comm (a := pin)]

theorem login_so_restoredToken {pin : Bytes} :
    ((restoredToken t).login ckuSo pin).1 = .ok ↔
      t.so.locked = false ∧ t.so.isSet = true ∧ pin = [] := by
  rw [TokenCore.login_so_eq_ok]
  change t.so.locked = false ∧ t.so.isSet = true ∧ PinBuffer.fresh.stored = pin ↔ _
  rw [PinBuffer.stored_fresh, eq_comm (a := pin)]

theorem setPin_restoredToken {old new : Bytes} :
    ((restoredToken t).setPin (.data old) (.data new)).1 = .ok ↔
      t.user.isSet = true ∧ old = [] ∧ new.length ≤ pinCapacity := by
  rw [TokenCore.setPin_data, TokenCore.setUserPin_eq_ok]
  change t.user.isSet = true ∧ PinBuffer.fresh.stored = old ∧ _ ↔ _
  rw [PinBuffer.stored_fresh, eq_comm (a := old)]

/-- One cycle preserves authentication exactly when the user PIN is unset or empty, and the
security-officer PIN is unset, empty or locked. -/
theorem authenticationPreserved_iff (hkek : t.getKek.length < 2 ^ 64)
    (hcycle : persistRestore t = .ok t') :
    AuthenticationPreserved t t' ↔
      (t.user.isSet = true → t.user.buf.stored = []) ∧
      (t.so.isSet = true → t.so.buf.stored = [] ∨ t.so.locked = true) := by
  obtain rfl := eq_restoredToken hkek hcycle
  constructor
  · intro h
    constructor
    · intro hset
      -- The restored token takes the empty old PIN even when the PIN is locked.
      have hrestored : ((restoredToken t).setPin (.data []) (.data [])).1 = .ok :=
        setPin_restoredToken.mpr ⟨hset, rfl, Nat.zero_le _⟩
      have hold := h.setPin_of [] [] hrestored
      rw [TokenCore.setPin_data] at hold
      exact (TokenCore.setUserPin_eq_ok.mp hold).2.1
    · intro hset
      cases hlocked : t.so.locked with
      | true => exact .inr rfl
      | false =>
        have hrestored := login_so_restoredToken.mpr ⟨hlocked, hset, rfl⟩
        have hold := (h.login_iff ckuSo (.inr rfl) []).mp hrestored
        exact .inl (TokenCore.login_so_eq_ok.mp hold).2.2
  · rintro ⟨huser, hso⟩
    constructor
    · rintro userType (rfl | rfl) pin
      · rw [login_user_restoredToken, TokenCore.login_user_eq_ok]
        refine and_congr_right fun _ => and_congr_right fun hset => ?_
        rw [huser hset, eq_comm]
      · rw [login_so_restoredToken, TokenCore.login_so_eq_ok]
        refine and_congr_right fun hlocked => and_congr_right fun hset => ?_
        rcases hso hset with hstored | hlocked'
        · rw [hstored, eq_comm]
        · rw [hlocked] at hlocked'
          cases hlocked'
    · intro old new h
      obtain ⟨hset, rfl, hnew⟩ := setPin_restoredToken.mp h
      rw [TokenCore.setPin_data]
      exact TokenCore.setUserPin_eq_ok.mpr ⟨hset, huser hset, hnew⟩

/-- A token on which the application initialised the user PIN `1234`. -/
def pinnedToken : TokenCore :=
  CS.run TokenCore.call (TokenCore.fresh [116] [48]) [.initializeUserPin (.data [49, 50, 51, 52])]

/-- After a cycle the token with PIN `1234` takes the empty PIN for login. -/
theorem not_authenticationPreserved_pinnedToken :
    ∃ t', persistRestore pinnedToken = .ok t' ∧
      (t'.login ckuUser []).1 = .ok ∧ (pinnedToken.login ckuUser []).1 = .pinIncorrect ∧
      ¬ AuthenticationPreserved pinnedToken t' := by
  have hrestored : ((restoredToken pinnedToken).login ckuUser []).1 = .ok :=
    login_user_restoredToken.mpr ⟨by decide, by decide, rfl⟩
  have hrefused : (pinnedToken.login ckuUser []).1 = .pinIncorrect := by
    rw [TokenCore.login_user, TokenCore.verifyUserPin,
      PinState.verifyPinWithLockout_of_ne (by decide) (by decide) (by decide)]
    rfl
  refine ⟨restoredToken pinnedToken, persistRestore_of_length (by decide) (by decide) (by decide),
    hrestored, hrefused, fun h => ?_⟩
  have haccepted := (h.login_iff ckuUser (.inl rfl) []).mp hrestored
  rw [hrefused] at haccepted
  cases haccepted

/-- A token with an empty user PIN and a locked security-officer PIN. -/
def lockedToken : TokenCore :=
  CS.run TokenCore.call (TokenCore.fresh [116] [48])
    [.initializeUserPin (.data []), .initializeSoPin (.data [49]), .setMaxFailedAttempts 0]

theorem authenticationPreserved_lockedToken :
    AuthenticationPreserved lockedToken (restoredToken lockedToken) :=
  (authenticationPreserved_iff (by decide)
    (persistRestore_of_length (by decide) (by decide) (by decide))).mpr
    ⟨fun _ => by decide, fun _ => .inr (by decide)⟩

/-! ### Through the vault -/

section Vault

variable (t) (c : VaultCrypto) (v : Vault) (salt : Fin 16 → UInt8) (nonce : Fin 12 → UInt8)
  (fault : Option SaveFault) (file : Option Bytes)

def persistTokenToVault : Except String Unit × Vault × Option Bytes :=
  match serializeTokenSnapshot (snapshotFromToken t) with
  | .error e => (.error e, v, file)
  | .ok data => v.save c salt nonce fault data file

def restoreTokenFromVault : Except String TokenCore := do
  restoreTokenFromSnapshot t (← deserializeTokenSnapshot (← v.load c file))

/-- The next process, which opens the vault with the password, gets the token of the cycle. If the
token could not be saved, vault and file are what they were. -/
theorem restoreTokenFromVault_persisted (path : String) :
    let out := persistTokenToVault t c v salt nonce fault file
    match out.1 with
    | .ok _ => (do
        let opened ← Vault.construct c path v.password out.2.2
        restoreTokenFromVault (.fresh t.label t.id) c opened.2 out.2.2) = persistRestore t
    | .error _ => out.2 = (v, file) := by
  rw [persistTokenToVault, persistRestore]
  cases serializeTokenSnapshot (snapshotFromToken t) with
  | error e => rfl
  | ok data =>
    by_cases hpassword : v.password = []
    · simp [Vault.save, Vault.saveImage, hpassword]
    obtain ⟨raw, himage, hconstruct⟩ := Vault.construct_saveImage (c := c) hpassword salt nonce data
    cases fault with
    | some fault => simp [Vault.save, himage]
    | none =>
      have hload := Vault.load_of_construct (hconstruct path)
      simp [Vault.save, himage, hconstruct, restoreTokenFromVault, hload, bind, Except.bind]

end Vault

end VirtualHsm
