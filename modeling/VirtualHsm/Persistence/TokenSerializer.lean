import VirtualHsm.Keystore.Token

/-!
# The token snapshot format

The vault stores a token as one byte string: a magic number and a version, two short strings,
counters, one octet of flags and the key-encryption key, all integers little-endian.
-/

namespace VirtualHsm

/-! ### Fixed-width fields -/

def putLe32 (v : UInt32) : Bytes := CS.toLe 4 v.toNat

def getLe32 (bs : Bytes) : UInt32 := UInt32.ofNat (CS.ofLe (bs.take 4))

def putLe64 (v : UInt64) : Bytes := CS.toLe 8 v.toNat

def getLe64 (bs : Bytes) : UInt64 := UInt64.ofNat (CS.ofLe (bs.take 8))

@[simp] theorem length_putLe32 (v : UInt32) : (putLe32 v).length = 4 := CS.length_toLe 4 v.toNat

@[simp] theorem length_putLe64 (v : UInt64) : (putLe64 v).length = 8 := CS.length_toLe 8 v.toNat

@[simp] theorem drop_putLe32_append (v : UInt32) (rest : Bytes) :
    (putLe32 v ++ rest).drop 4 = rest :=
  List.drop_left' (length_putLe32 v)

@[simp] theorem getLe32_putLe32_append (v : UInt32) (rest : Bytes) :
    getLe32 (putLe32 v ++ rest) = v := by
  have hlt : v.toNat < 256 ^ 4 := v.toNat_lt
  rw [getLe32, List.take_left' (length_putLe32 v), putLe32, CS.ofLe_toLe_of_lt hlt,
    UInt32.ofNat_toNat]

@[simp] theorem getLe64_putLe64_append (v : UInt64) (rest : Bytes) :
    getLe64 (putLe64 v ++ rest) = v := by
  have hlt : v.toNat < 256 ^ 8 := v.toNat_lt
  rw [getLe64, List.take_left' (length_putLe64 v), putLe64, CS.ofLe_toLe_of_lt hlt,
    UInt64.ofNat_toNat]

/-! ### The flags octet -/

/-- Bit `i` of the flags octet, or nothing. -/
def flagBit (i : UInt8) (b : Bool) : UInt8 := if b then 1 <<< i else 0

def packFlags (d : TokenCore.DurableState) : UInt8 :=
  flagBit 0 d.tokenInitialized ||| flagBit 1 d.userPinSet ||| flagBit 2 d.soPinSet |||
    flagBit 3 d.userLoginRequired ||| flagBit 4 d.soLoginRequired |||
    flagBit 5 d.userPinLocked ||| flagBit 6 d.soPinLocked

def testFlag (flags i : UInt8) : Bool := flags &&& (1 <<< i) ≠ 0

/-- Each flag is read back from its own bit. -/
theorem testFlag_packFlags (d : TokenCore.DurableState) :
    testFlag (packFlags d) 0 = d.tokenInitialized ∧ testFlag (packFlags d) 1 = d.userPinSet ∧
    testFlag (packFlags d) 2 = d.soPinSet ∧ testFlag (packFlags d) 3 = d.userLoginRequired ∧
    testFlag (packFlags d) 4 = d.soLoginRequired ∧ testFlag (packFlags d) 5 = d.userPinLocked ∧
    testFlag (packFlags d) 6 = d.soPinLocked := by
  unfold packFlags
  -- Seven bits: all combinations are tried.
  generalize d.tokenInitialized = a, d.userPinSet = b, d.soPinSet = c,
    d.userLoginRequired = e, d.soLoginRequired = f, d.userPinLocked = g, d.soPinLocked = h
  revert a b c e f g h
  decide

/-! ### Encoding -/

/-- The snapshot of a token that goes to the vault. -/
structure TokenSnapshot extends TokenCore.DurableState where
  label : Bytes
  id : Bytes
  maxSessionCount : CkUlong
  sessionCount : CkUlong
  maxRwSessionCount : CkUlong
  rwSessionCount : CkUlong
  deriving DecidableEq, Repr

def kMagic : UInt32 := 0x5648534D
def kVersion : UInt32 := 1

/-- A string behind its length octet. -/
def putString (s : Bytes) : Bytes := UInt8.ofNat s.length :: s

/-- The fields behind the two strings. -/
def putFields (snap : TokenSnapshot) : Bytes :=
  putLe64 snap.maxSessionCount ++ (putLe64 snap.sessionCount ++
    (putLe64 snap.maxRwSessionCount ++ (putLe64 snap.rwSessionCount ++
      (packFlags snap.toDurableState :: (putLe32 snap.maxFailedAttempts ++
        (putLe32 snap.userFailedAttempts ++ (putLe32 snap.soFailedAttempts ++
          (putLe64 (UInt64.ofNat snap.kek.length) ++ snap.kek))))))))

def serializeTokenSnapshot (snap : TokenSnapshot) : Except String Bytes :=
  if 255 < snap.label.length then .error "serialize_token_snapshot: label too long"
  else if 255 < snap.id.length then .error "serialize_token_snapshot: id too long"
  else .ok (putLe32 kMagic ++ (putLe32 kVersion ++ (putString snap.label ++
    (putString snap.id ++ putFields snap))))

/-! ### Decoding -/

/-- Read a length octet and that many bytes; the result carries what is left. -/
def readString (data : Bytes) : Except String (Bytes × Bytes) :=
  match data with
  | [] => .error "deserialize_token_snapshot: truncated string length"
  | len :: rest =>
    if rest.length < len.toNat then .error "deserialize_token_snapshot: truncated string"
    else .ok (rest.take len.toNat, rest.drop len.toNat)

/-- Read the fields behind the strings; bytes behind the key are ignored. -/
def readFields (label id data : Bytes) : Except String TokenSnapshot :=
  if data.length < 8 + 8 + 8 + 8 + 1 + 4 + 4 + 4 + 8 then
    .error "deserialize_token_snapshot: truncated numeric fields"
  else
    let data₁ := data.drop 8
    let data₂ := data₁.drop 8
    let data₃ := data₂.drop 8
    let data₄ := data₃.drop 8
    -- Bit 7 is not used.
    let flags := data₄.headD 0
    let data₅ := data₄.drop 1
    let data₆ := data₅.drop 4
    let data₇ := data₆.drop 4
    let data₈ := data₇.drop 4
    let kekLen := (getLe64 data₈).toNat
    let data₉ := data₈.drop 8
    -- The key is the last field, so its length is checked against what is left.
    if data₉.length < kekLen then .error "deserialize_token_snapshot: truncated KEK"
    else .ok {
      label, id
      maxSessionCount := getLe64 data
      sessionCount := getLe64 data₁
      maxRwSessionCount := getLe64 data₂
      rwSessionCount := getLe64 data₃
      tokenInitialized := testFlag flags 0
      userPinSet := testFlag flags 1
      soPinSet := testFlag flags 2
      userLoginRequired := testFlag flags 3
      soLoginRequired := testFlag flags 4
      userPinLocked := testFlag flags 5
      soPinLocked := testFlag flags 6
      maxFailedAttempts := getLe32 data₅
      userFailedAttempts := getLe32 data₆
      soFailedAttempts := getLe32 data₇
      kek := data₉.take kekLen }

def deserializeTokenSnapshot (data : Bytes) : Except String TokenSnapshot :=
  if data.length < 8 + 2 then .error "deserialize_token_snapshot: data too short"
  else if getLe32 data ≠ kMagic then .error "deserialize_token_snapshot: bad magic"
  else if getLe32 (data.drop 4) ≠ kVersion then
    .error "deserialize_token_snapshot: unsupported version"
  else do
    let (label, rest) ← readString ((data.drop 4).drop 4)
    let (id, rest) ← readString rest
    readFields label id rest

/-! ### Strings -/

theorem readString_putString_append {s : Bytes} (h : s.length ≤ 255) (rest : Bytes) :
    readString (putString s ++ rest) = .ok (s, rest) := by
  have hlt : s.length < UInt8.size := Nat.lt_succ_of_le h
  have hlen : (UInt8.ofNat s.length).toNat = s.length := UInt8.toNat_ofNat_of_lt' hlt
  simp [readString, putString, hlen]

/-! ### What is accepted -/

variable {snap : TokenSnapshot} {data : Bytes}

theorem putLe32_getLe32_append (h : 4 ≤ data.length) :
    putLe32 (getLe32 data) ++ data.drop 4 = data := by
  have hlen : (data.take 4).length = 4 := List.length_take_of_le h
  have hlt := CS.ofLe_lt (data.take 4)
  rw [hlen] at hlt
  rw [putLe32, getLe32, UInt32.toNat_ofNat_of_lt' hlt]
  nth_rewrite 1 [← hlen]
  rw [CS.toLe_ofLe, List.take_append_drop]

theorem putLe64_getLe64_append (h : 8 ≤ data.length) :
    putLe64 (getLe64 data) ++ data.drop 8 = data := by
  have hlen : (data.take 8).length = 8 := List.length_take_of_le h
  have hlt := CS.ofLe_lt (data.take 8)
  rw [hlen] at hlt
  rw [putLe64, getLe64, UInt64.toNat_ofNat_of_lt' hlt]
  nth_rewrite 1 [← hlen]
  rw [CS.toLe_ofLe, List.take_append_drop]

theorem headD_cons_drop_one (h : 1 ≤ data.length) : data.headD 0 :: data.drop 1 = data := by
  cases data with
  | nil => cases h
  | cons b data => rfl

/-- The octet has the flags of the snapshot; its highest bit may be anything. -/
def HasFlags (flags : UInt8) (d : TokenCore.DurableState) : Prop :=
  testFlag flags 0 = d.tokenInitialized ∧ testFlag flags 1 = d.userPinSet ∧
    testFlag flags 2 = d.soPinSet ∧ testFlag flags 3 = d.userLoginRequired ∧
    testFlag flags 4 = d.soLoginRequired ∧ testFlag flags 5 = d.userPinLocked ∧
    testFlag flags 6 = d.soPinLocked

/-- The fields of a snapshot with the given octet for the flags, and what follows. -/
def fieldsImage (flags : UInt8) (snap : TokenSnapshot) (rest : Bytes) : Bytes :=
  putLe64 snap.maxSessionCount ++ (putLe64 snap.sessionCount ++
    (putLe64 snap.maxRwSessionCount ++ (putLe64 snap.rwSessionCount ++
      (flags :: (putLe32 snap.maxFailedAttempts ++ (putLe32 snap.userFailedAttempts ++
        (putLe32 snap.soFailedAttempts ++
          (putLe64 (UInt64.ofNat snap.kek.length) ++ (snap.kek ++ rest)))))))))

def image (flags : UInt8) (snap : TokenSnapshot) (rest : Bytes) : Bytes :=
  putLe32 kMagic ++ (putLe32 kVersion ++ (putString snap.label ++ (putString snap.id ++
    fieldsImage flags snap rest)))

theorem length_image (flags : UInt8) (snap : TokenSnapshot) (rest : Bytes) :
    (image flags snap rest).length =
      63 + snap.label.length + snap.id.length + snap.kek.length + rest.length := by
  simp only [image, fieldsImage, putString, List.length_append, List.length_cons, length_putLe32,
    length_putLe64]
  omega

theorem fieldsImage_append (flags : UInt8) (snap : TokenSnapshot) (rest more : Bytes) :
    fieldsImage flags snap rest ++ more = fieldsImage flags snap (rest ++ more) := by
  simp only [fieldsImage, List.append_assoc, List.cons_append]

theorem image_append (flags : UInt8) (snap : TokenSnapshot) (rest more : Bytes) :
    image flags snap rest ++ more = image flags snap (rest ++ more) := by
  simp only [image, List.append_assoc, fieldsImage_append]

theorem putFields_eq (snap : TokenSnapshot) :
    putFields snap = fieldsImage (packFlags snap.toDurableState) snap [] := by
  rw [fieldsImage, List.append_nil, putFields]

theorem serialize_eq_ok_iff :
    serializeTokenSnapshot snap = .ok data ↔
      snap.label.length ≤ 255 ∧ snap.id.length ≤ 255 ∧
        data = image (packFlags snap.toDurableState) snap [] := by
  rw [image, ← putFields_eq, serializeTokenSnapshot]
  split_ifs with hlabel hid
  · exact iff_of_false nofun (by omega)
  · exact iff_of_false nofun (by omega)
  · rw [Except.ok.injEq]
    constructor
    · rintro rfl
      exact ⟨by omega, by omega, rfl⟩
    · rintro ⟨-, -, rfl⟩
      rfl

theorem exists_serialize_eq_ok (snap : TokenSnapshot) (hlabel : snap.label.length ≤ 255)
    (hid : snap.id.length ≤ 255) : ∃ data, serializeTokenSnapshot snap = .ok data :=
  ⟨_, serialize_eq_ok_iff.mpr ⟨hlabel, hid, rfl⟩⟩

theorem length_le_of_serialize_eq_ok (h : serializeTokenSnapshot snap = .ok data) :
    snap.label.length ≤ 255 ∧ snap.id.length ≤ 255 :=
  (serialize_eq_ok_iff.mp h).imp_right And.left

theorem readString_eq_ok_iff {data s rest : Bytes} :
    readString data = .ok (s, rest) ↔ s.length ≤ 255 ∧ data = putString s ++ rest := by
  constructor
  · intro h
    cases data with
    | nil => cases h
    | cons len data =>
      have hlen : len.toNat < 256 := len.toNat_lt
      rw [readString] at h
      split_ifs at h with hshort
      cases h
      have htake : (data.take len.toNat).length = len.toNat :=
        List.length_take_of_le (Nat.not_lt.mp hshort)
      refine ⟨by omega, ?_⟩
      rw [putString, htake, UInt8.ofNat_toNat, List.cons_append, List.take_append_drop]
  · rintro ⟨hs, rfl⟩
    exact readString_putString_append hs rest

theorem readFields_fieldsImage {flags : UInt8}
    (hflags : HasFlags flags snap.toDurableState) (hkek : snap.kek.length < 2 ^ 64) (rest : Bytes) :
    readFields snap.label snap.id (fieldsImage flags snap rest) = .ok snap := by
  have hlen : (UInt64.ofNat snap.kek.length).toNat = snap.kek.length :=
    UInt64.toNat_ofNat_of_lt' hkek
  obtain ⟨h0, h1, h2, h3, h4, h5, h6⟩ := hflags
  have hsize : ¬ (fieldsImage flags snap rest).length < 8 + 8 + 8 + 8 + 1 + 4 + 4 + 4 + 8 := by
    simp only [fieldsImage, List.length_append, List.length_cons, length_putLe64, length_putLe32]
    omega
  rw [readFields, if_neg hsize, fieldsImage]
  simp [hlen, h0, h1, h2, h3, h4, h5, h6]

theorem readFields_eq_ok_iff {label id data : Bytes} :
    readFields label id data = .ok snap ↔
      snap.label = label ∧ snap.id = id ∧ snap.kek.length < 2 ^ 64 ∧
        ∃ flags rest, HasFlags flags snap.toDurableState ∧ data = fieldsImage flags snap rest := by
  constructor
  · intro h
    rw [readFields] at h
    split_ifs at h with hsize
    dsimp only at h
    split_ifs at h with hkek
    cases h
    -- Nine fields stand before the key.
    let atKek := ((((((((data.drop 8).drop 8).drop 8).drop 8).drop 1).drop 4).drop 4).drop 4)
    refine ⟨rfl, rfl, ?_, _, (atKek.drop 8).drop (getLe64 atKek).toNat,
      ⟨rfl, rfl, rfl, rfl, rfl, rfl, rfl⟩, ?_⟩
    · refine lt_of_le_of_lt (List.length_take_le _ _) ?_
      exact UInt64.toNat_lt _
    · -- From the key to the front, each field is put back before what follows it.
      rw [fieldsImage]
      dsimp only
      rw [List.length_take_of_le (Nat.not_lt.mp hkek), UInt64.ofNat_toNat, List.take_append_drop,
        putLe64_getLe64_append (by simp only [List.length_drop]; omega),
        putLe32_getLe32_append (by simp only [List.length_drop]; omega),
        putLe32_getLe32_append (by simp only [List.length_drop]; omega),
        putLe32_getLe32_append (by simp only [List.length_drop]; omega),
        headD_cons_drop_one (by simp only [List.length_drop]; omega),
        putLe64_getLe64_append (by simp only [List.length_drop]; omega),
        putLe64_getLe64_append (by simp only [List.length_drop]; omega),
        putLe64_getLe64_append (by simp only [List.length_drop]; omega),
        putLe64_getLe64_append (by omega)]
  · rintro ⟨rfl, rfl, hkek, flags, rest, hflags, rfl⟩
    exact readFields_fieldsImage hflags hkek rest

/-- Exactly the images of a snapshot are accepted, whatever the highest bit of the flags is and
whatever follows. -/
theorem deserializeTokenSnapshot_eq_ok_iff :
    deserializeTokenSnapshot data = .ok snap ↔
      snap.label.length ≤ 255 ∧ snap.id.length ≤ 255 ∧ snap.kek.length < 2 ^ 64 ∧
        ∃ flags rest, HasFlags flags snap.toDurableState ∧ data = image flags snap rest := by
  constructor
  · intro h
    rw [deserializeTokenSnapshot] at h
    split_ifs at h with hshort hmagic hversion
    have hsize : 10 ≤ data.length := Nat.not_lt.mp hshort
    cases hlabel : readString ((data.drop 4).drop 4) with
    | error e =>
      rw [hlabel] at h
      cases h
    | ok out =>
      obtain ⟨label, rest₁⟩ := out
      rw [hlabel] at h
      change (do
        let (id, rest) ← readString rest₁
        readFields label id rest) = .ok snap at h
      cases hid : readString rest₁ with
      | error e =>
        rw [hid] at h
        cases h
      | ok out =>
        obtain ⟨id, rest₂⟩ := out
        rw [hid] at h
        obtain ⟨rfl, rfl, hkek, flags, rest, hflags, rfl⟩ := readFields_eq_ok_iff.mp h
        obtain ⟨hidlen, rfl⟩ := readString_eq_ok_iff.mp hid
        obtain ⟨hlabellen, heq⟩ := readString_eq_ok_iff.mp hlabel
        refine ⟨hlabellen, hidlen, hkek, flags, rest, hflags, ?_⟩
        rw [image, ← heq, ← not_not.mp hmagic, ← not_not.mp hversion,
          putLe32_getLe32_append (by rw [List.length_drop]; omega),
          putLe32_getLe32_append (by omega)]
  · rintro ⟨hlabel, hid, hkek, flags, rest, hflags, rfl⟩
    have hsize : ¬ (image flags snap rest).length < 8 + 2 := by
      rw [length_image]
      omega
    rw [deserializeTokenSnapshot, if_neg hsize, image]
    simp only [getLe32_putLe32_append, drop_putLe32_append, ne_eq, not_true_eq_false, if_false]
    rw [readString_putString_append hlabel]
    simp only [bind, Except.bind]
    rw [readString_putString_append hid]
    exact readFields_fieldsImage hflags hkek rest

theorem deserializeTokenSnapshot_serialize (hkek : snap.kek.length < 2 ^ 64)
    (h : serializeTokenSnapshot snap = .ok data) : deserializeTokenSnapshot data = .ok snap := by
  obtain ⟨hlabel, hid, rfl⟩ := serialize_eq_ok_iff.mp h
  exact deserializeTokenSnapshot_eq_ok_iff.mpr
    ⟨hlabel, hid, hkek, _, [], testFlag_packFlags snap.toDurableState, rfl⟩

theorem deserializeTokenSnapshot_append (h : deserializeTokenSnapshot data = .ok snap)
    (more : Bytes) : deserializeTokenSnapshot (data ++ more) = .ok snap := by
  obtain ⟨hlabel, hid, hkek, flags, rest, hflags, rfl⟩ := deserializeTokenSnapshot_eq_ok_iff.mp h
  exact deserializeTokenSnapshot_eq_ok_iff.mpr
    ⟨hlabel, hid, hkek, flags, rest ++ more, hflags, image_append flags snap rest more⟩

theorem exists_deserialize_take_eq_error
    (hkek : snap.kek.length < 2 ^ 64) (h : serializeTokenSnapshot snap = .ok data) {n : Nat}
    (hn : n < data.length) : ∃ e, deserializeTokenSnapshot (data.take n) = .error e := by
  cases htake : deserializeTokenSnapshot (data.take n) with
  | error e => exact ⟨e, rfl⟩
  | ok snap' =>
    have hwhole := deserializeTokenSnapshot_append htake (data.drop n)
    rw [List.take_append_drop, deserializeTokenSnapshot_serialize hkek h] at hwhole
    cases hwhole
    obtain ⟨-, -, -, flags, rest, -, heq⟩ := deserializeTokenSnapshot_eq_ok_iff.mp htake
    obtain ⟨-, -, rfl⟩ := serialize_eq_ok_iff.mp h
    have hlen := congrArg List.length heq
    rw [List.length_take_of_le hn.le, length_image] at hlen
    rw [length_image, List.length_nil] at hn
    omega

/-! ### Snapshots of tokens -/

def snapshotFromToken (t : TokenCore) : TokenSnapshot where
  label := t.label
  id := t.id
  maxSessionCount := TokenCore.maxSessionCount
  sessionCount := t.sessionCount
  maxRwSessionCount := TokenCore.maxSessionCount
  rwSessionCount := t.rwSessionCount
  tokenInitialized := t.tokenInitialized
  userPinSet := t.user.isSet
  soPinSet := t.so.isSet
  userLoginRequired := t.userLoginRequired
  soLoginRequired := t.soLoginRequired
  maxFailedAttempts := t.maxFailedAttempts
  userFailedAttempts := t.user.failedAttempts
  soFailedAttempts := t.so.failedAttempts
  userPinLocked := t.user.locked
  soPinLocked := t.so.locked
  kek := t.getKek

def restoreTokenFromSnapshot (t : TokenCore) (snap : TokenSnapshot) : Except String TokenCore :=
  if 255 < snap.label.length ∨ 255 < snap.id.length then
    .error "restore_token_from_snapshot: label/id too long"
  else .ok (t.restoreState snap.toDurableState)

end VirtualHsm
