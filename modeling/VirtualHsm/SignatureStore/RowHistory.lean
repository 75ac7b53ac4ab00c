import VirtualHsm.CS.Run
import VirtualHsm.SignatureStore.VerificationService

/-!
# The hash of a row over whole histories

A row of `signature_records` is inserted once and only its ledger fields are written later. An
update recomputes the hash over the columns it finds, so it makes every row verify, also one that
was altered before; and it reports success even where the recomputation fails, after which the
row does not verify. A row that is inserted while the token has no key-encryption key never
verifies.

Each operation runs under its own set of statements that throw.
-/

namespace VirtualHsm

/-- An operation of the store on the table of signature records. -/
inductive RecordOp
  | insert (id : String) (args : SignatureRepository.NewRecord)
  | dispatch (worker : Bool) (id outboxId : String) (nowTicks : Int)
      (companion : Option Companion) (input : SignatureDispatchInput)
  | updateLedgerFields (id : String) (entry : LedgerEntry)
  | markProcessing (id : String)

/-- An operation together with the statements that throw while it runs. -/
structure RecordCall where
  op : RecordOp
  fails : Statement → Bool := fun _ => false

namespace RecordCall

/-- The call writes the ledger's answer to the row. -/
def Writes (c : RecordCall) (id : String) (entry : LedgerEntry) : Prop :=
  c.op = .updateLedgerFields id entry ∧ c.fails (.updateLedger id) = false

/-- The statements that bring the hash of the row up to date go through. -/
def Rehashes (c : RecordCall) (id : String) : Prop :=
  c.fails (.selectColumns id) = false ∧ c.fails (.updateHmac id) = false

theorem Writes.entry_eq {c : RecordCall} {id : String} {entry entry' : LedgerEntry}
    (h : c.Writes id entry) (h' : c.Writes id entry') : entry = entry' :=
  (RecordOp.updateLedgerFields.inj (h.1.symm.trans h'.1)).2

end RecordCall

/-- The database while the given statements throw. -/
def Db.during (db : Db) (fails : Statement → Bool) : Db := { db with fails }

namespace SignatureRepository

open RowIntegrity (concatenated computeHmac verifyHmac)

variable (mac : Hmac) (key : Bytes)

def perform (db : Db) : RecordOp → Bool × Db
  | .insert id args => ((insert db id args).1.isSome, (insert db id args).2)
  | .dispatch worker id outboxId nowTicks companion input =>
    let out := SignatureDispatcher.dispatch mac key worker id outboxId nowTicks companion input db
    (out.1, out.2.2)
  | .updateLedgerFields id entry => updateLedgerFields mac key db id entry
  | .markProcessing id => (markProcessing db id, db)

/-- One operation, under its own failures. -/
def call (db : Db) (c : RecordCall) : Bool × Db := perform mac key (db.during c.fails) c.op

/-- What a call leaves of a row. -/
def rowAfter (r : SignatureRow) (c : RecordCall) : SignatureRow :=
  match c.op with
  | .updateLedgerFields id entry =>
    if id = r.id ∧ c.fails (.updateLedger id) = false then
      if key = [] ∨ c.fails (.selectColumns id) = true ∨ c.fails (.updateHmac id) = true then
        r.withLedger entry
      else (r.withLedger entry).withHmac (hashOf mac key (r.withLedger entry))
    else r
  | .insert _ _ | .dispatch _ _ _ _ _ _ | .markProcessing _ => r

variable {mac key} {db : Db} {id : String} {r : SignatureRow}

/-! ### What a call does to a row -/

theorem id_of_find (hr : db.records.find id = some r) : r.id = id :=
  (CS.KeyedTable.find_eq_some_iff.mp hr).2

section

variable (hr : db.records.find id = some r)
include hr

theorem find_of_insert {records : CS.KeyedTable SignatureRow.id} {new : SignatureRow}
    (hinsert : db.records.insert new = some records) :
    records.find id = some r := by
  have hne : id ≠ new.id := by
    intro heq
    have hmem : new.id ∈ db.records.rows.map SignatureRow.id := by
      rw [← heq, ← id_of_find hr]
      exact List.mem_map_of_mem (CS.KeyedTable.find_eq_some_iff.mp hr).1
    -- The identifier is taken, so the insertion would have failed.
    rw [CS.KeyedTable.insert, dif_pos hmem] at hinsert
    cases hinsert
  rw [CS.KeyedTable.find_insert hinsert, if_neg hne, hr]

theorem find_insert_of_find (new : String) (args : NewRecord) :
    (insert db new args).2.records.find id = some r := by
  unfold insert
  split
  · exact hr
  · next records hinsert =>
    split_ifs at hinsert
    exact find_of_insert hr hinsert

theorem find_dispatch_of_find (worker : Bool)
    (new outboxId : String) (nowTicks : Int) (companion : Option Companion)
    (input : SignatureDispatchInput) :
    (SignatureDispatcher.dispatch mac key worker new outboxId nowTicks companion input
      db).2.2.records.find id = some r := by
  obtain hfalse | ⟨records, outbox, hinsert, -, htrue⟩ :=
    SignatureDispatcher.dispatch_cases mac key worker new outboxId nowTicks companion input db
  · rw [hfalse]
    exact hr
  · rw [htrue]
    exact find_of_insert hr hinsert

theorem find_updateLedgerFields_of_find (id' : String)
    (entry : LedgerEntry) :
    (updateLedgerFields mac key db id' entry).2.records.find id =
      some (rowAfter mac key r ⟨.updateLedgerFields id' entry, db.fails⟩) := by
  have hid := id_of_find hr
  unfold updateLedgerFields rowAfter
  -- The first statement decides whether anything is written at all.
  by_cases hfails : db.fails (.updateLedger id') = true
  · simp [hfails, hr]
  by_cases heq : id' = id
  · subst heq
    have hwritten : (db.modify id' (·.withLedger entry) fun r =>
        r.id_withLedger entry).records.find id' = some (r.withLedger entry) := by
      rw [Db.find_modify, hr, Option.map_some]
    simp only [hfails, hr, hid, reduceCtorEq, or_self, if_false, and_self, if_true]
    exact find_recomputeIntegrityHmac hwritten
  · have hne : id ≠ id' := fun h => heq h.symm
    have hrow : ¬ (id' = r.id ∧ db.fails (.updateLedger id') = false) := by
      rw [hid]
      exact fun h => heq h.1
    simp only [if_neg hrow]
    split_ifs
    · exact hr
    · rw [find_recomputeIntegrityHmac_of_ne hne, Db.find_modify_of_ne hne, hr]

/-- A row stays in the table, and only an update of its own changes it. -/
theorem find_call (c : RecordCall) :
    (call mac key db c).2.records.find id = some (rowAfter mac key r c) := by
  have hduring : (db.during c.fails).records.find id = some r := hr
  obtain ⟨op, fails⟩ := c
  cases op with
  | insert new args => exact find_insert_of_find hduring new args
  | dispatch worker new outboxId nowTicks companion input =>
    exact find_dispatch_of_find hduring worker new outboxId nowTicks companion input
  | updateLedgerFields id' entry => exact find_updateLedgerFields_of_find hduring id' entry
  | markProcessing id' => exact hduring

end

/-! ### The hash of the row -/

variable (mac key) in
/-- There is a key, and the row carries the hash of its columns. -/
def Intact (r : SignatureRow) : Prop := key ≠ [] ∧ readText r.integrityHmac = hashOf mac key r

theorem verifyIntegrity_during (hr : db.records.find id = some r) (fails : Statement → Bool) :
    verifyIntegrity mac key (db.during fails) id = true ↔
      fails (.selectIntegrity id) = false ∧ Intact mac key r := by
  have hduring : (db.during fails).records.find id = some r := hr
  unfold verifyIntegrity Db.select
  by_cases hfails : (db.during fails).fails (.selectIntegrity id) = true
  · have hfails' : fails (.selectIntegrity id) = true := hfails
    simp [hfails, hfails']
  have hgoes : fails (.selectIntegrity id) = false := Bool.eq_false_iff.mpr hfails
  rw [if_neg hfails, hduring, Option.elim_some, Intact]
  by_cases hkey : key = []
  · subst hkey
    simp [RowIntegrity.verifyHmac_nil]
  · simp [RowIntegrity.verifyHmac_iff hkey, hkey, hgoes, hashOf]

variable {c : RecordCall}

theorem rowAfter_of_not_writes (hc : ∀ entry, ¬ c.Writes r.id entry) :
    rowAfter mac key r c = r := by
  unfold rowAfter
  split
  · next id entry hop =>
    rw [if_neg]
    rintro ⟨rfl, hfails⟩
    exact hc entry ⟨hop, hfails⟩
  all_goals rfl

theorem ledgerTxId_rowAfter {entry : LedgerEntry} (hc : c.Writes r.id entry) :
    (rowAfter mac key r c).ledgerTxId = entry.txId := by
  obtain ⟨hop, hfails⟩ := hc
  simp only [rowAfter, hop]
  rw [if_pos ⟨trivial, hfails⟩]
  split_ifs <;> rfl

/-- A row that an update has written verifies when its hash was brought up to date, or when the
hash it had before fits the new columns. -/
theorem intact_rowAfter_iff {entry : LedgerEntry} (hc : c.Writes r.id entry) :
    Intact mac key (rowAfter mac key r c) ↔ key ≠ [] ∧
      (c.Rehashes r.id ∨ readText r.integrityHmac = hashOf mac key (r.withLedger entry)) := by
  obtain ⟨hop, hfails⟩ := hc
  simp only [rowAfter, hop]
  rw [if_pos ⟨trivial, hfails⟩]
  by_cases hkey : key = []
  · simp [Intact, hkey]
  by_cases hrehash : c.Rehashes r.id
  · have hgo : ¬ (key = [] ∨ c.fails (.selectColumns r.id) = true ∨
        c.fails (.updateHmac r.id) = true) := by
      rw [hrehash.1, hrehash.2]
      simp [hkey]
    rw [if_neg hgo]
    refine iff_of_true ⟨hkey, ?_⟩ ⟨hkey, .inl hrehash⟩
    exact readText_eq_self (mac.notMem_hex _ _)
  · have hstop : key = [] ∨ c.fails (.selectColumns r.id) = true ∨
        c.fails (.updateHmac r.id) = true := by
      by_contra hno
      apply hrehash
      simpa [RecordCall.Rehashes, hkey] using hno
    rw [if_pos hstop]
    exact and_congr_right fun _ => (or_iff_right hrehash).symm

/-- A call writes at most one answer, to at most one row. -/
theorem forall_writes_iff {entry : LedgerEntry} {p : LedgerEntry → SignatureRow → Prop}
    (hr : db.records.find id = some r) (hc : c.Writes id entry) :
    (∀ entry r, c.Writes id entry → db.records.find id = some r → p entry r) ↔ p entry r := by
  constructor
  · intro hall
    exact hall entry r hc hr
  · intro hp entry' r' hc' hr'
    rw [hc'.entry_eq hc, ← Option.mem_unique hr hr']
    exact hp

/-! ### Altered rows -/

variable (mac key)

/-- The row is in the table and does not verify. -/
def Detected (id : String) (db : Db) : Prop :=
  (∃ r, db.records.find id = some r) ∧
    ∀ fails, verifyIntegrity mac key (db.during fails) id = false

/-- The call does not bring the hash of the row up to date, nor the row back to columns for which
its hash was right. -/
def KeepsDetected (id : String) (db : Db) (c : RecordCall) : Prop :=
  ∀ entry r, c.Writes id entry → db.records.find id = some r →
    key = [] ∨
      ¬ c.Rehashes id ∧ readText r.integrityHmac ≠ hashOf mac key (r.withLedger entry)

variable {mac key}

theorem detected_iff (hr : db.records.find id = some r) :
    Detected mac key id db ↔ ¬ Intact mac key r := by
  constructor
  · intro h hintact
    have htrue := (verifyIntegrity_during hr fun _ => false).mpr ⟨rfl, hintact⟩
    rw [h.2] at htrue
    cases htrue
  · intro h
    refine ⟨⟨r, hr⟩, fun fails => Bool.eq_false_iff.mpr fun htrue => ?_⟩
    exact h ((verifyIntegrity_during hr fails).mp htrue).2

theorem detected_call_iff (h : Detected mac key id db) (c : RecordCall) :
    Detected mac key id (call mac key db c).2 ↔ KeepsDetected mac key id db c := by
  obtain ⟨r, hr⟩ := h.1
  have hid := id_of_find hr
  rw [detected_iff (find_call hr c)]
  by_cases hwrites : ∃ entry, c.Writes id entry
  · obtain ⟨entry, hc⟩ := hwrites
    rw [intact_rowAfter_iff (hid.symm ▸ hc), hid, not_and_or, not_not, not_or, KeepsDetected,
      forall_writes_iff hr hc]
  · have hnot : ∀ entry, ¬ c.Writes r.id entry := fun entry hc => hwrites ⟨entry, hid ▸ hc⟩
    rw [rowAfter_of_not_writes hnot, ← detected_iff hr]
    exact iff_of_true h fun entry _ hc => absurd ⟨entry, hc⟩ hwrites

/-- A row that does not verify keeps failing exactly along the histories without an update that
brings its hash up to date or its columns back. -/
theorem detected_always_iff (h : Detected mac key id db) (calls : List RecordCall) :
    CS.Always (call mac key) (Detected mac key id) db calls ↔
      CS.Guarded (call mac key) (KeepsDetected mac key id) db calls :=
  CS.always_iff_guarded (fun _ c hs => detected_call_iff hs c) h

/-- A keyed checksum in place of the hash, for runs on fixed inputs. -/
def checksum : Hmac where
  sha256 key data := CS.toLe 32 ((key ++ data).foldl (fun n b => n * 257 + b.toNat) 0)
  length_sha256 _ _ := CS.length_toLe _ _

/-- A row as it was inserted, with its hash. -/
def genuineRow : SignatureRow :=
  let r : SignatureRow :=
    { id := "r", createdAt := 1, slotId := 0, tokenLabel := "t", keyId := "k", keyFingerprint := "f"
      mechanism := "m", payloadDigest := "00", signatureB64 := "s", sessionHandle := "1" }
  r.withHmac (hashOf checksum [1] r)

/-- A table whose only row had its digest replaced. -/
def alteredDb : Db where
  records := ⟨[{ genuineRow with payloadDigest := "ff" }], by decide⟩

def someEntry : LedgerEntry where
  recordId := "r"
  keyFingerprint := "f"
  payloadDigest := "00"
  signatureB64 := "s"
  createdAt := 1
  txId := "x"
  blockNumber := 7

theorem detected_alteredDb : Detected checksum [1] "r" alteredDb := by
  have hr : alteredDb.records.find "r" = some { genuineRow with payloadDigest := "ff" } := rfl
  rw [detected_iff hr]
  rintro ⟨-, hhash⟩
  revert hhash
  decide +kernel

/-- Attempts to mark the altered row, to insert it again and to update another one. -/
def idleCalls : List RecordCall :=
  [{ op := .markProcessing "r" },
    { op := .insert "r"
        { createdAt := 1, slotId := 0, tokenLabel := "t", keyId := "k", keyFingerprint := "f"
          mechanism := "m", payloadDigest := "00", signatureB64 := "s", sessionHandle := "1" } },
    { op := .updateLedgerFields "q" someEntry }]

theorem detected_idleCalls :
    CS.Always (call checksum [1]) (Detected checksum [1] "r") alteredDb idleCalls := by
  rw [detected_always_iff detected_alteredDb]
  refine ⟨?_, ?_, ?_, trivial⟩ <;> intro entry r hc hr <;> simp [RecordCall.Writes] at hc

/-- One update with the ledger's answer makes the altered row verify. -/
theorem not_detected_updated :
    Detected checksum [1] "r" alteredDb ∧
      ¬ Detected checksum [1] "r" (CS.run (call checksum [1]) alteredDb
        [{ op := .updateLedgerFields "r" someEntry }]) := by
  refine ⟨detected_alteredDb, fun h => ?_⟩
  have hkeep := (detected_call_iff detected_alteredDb _).mp h
  rcases hkeep someEntry _ ⟨rfl, rfl⟩ rfl with hkey | ⟨hrehash, -⟩
  · cases hkey
  · exact hrehash ⟨rfl, rfl⟩

/-! ### Dispatched rows -/

variable (mac key)

/-- The row is in the table and verifies, as soon as the query for it goes through. -/
def Verified (id : String) (db : Db) : Prop :=
  (∃ r, db.records.find id = some r) ∧
    ∀ fails, fails (.selectIntegrity id) = false →
      verifyIntegrity mac key (db.during fails) id = true

/-- An update of the row brings its hash up to date, or writes what the hash covers already. -/
def KeepsVerified (id : String) (db : Db) (c : RecordCall) : Prop :=
  ∀ entry r, c.Writes id entry → db.records.find id = some r →
    c.Rehashes id ∨ readText r.integrityHmac = hashOf mac key (r.withLedger entry)

variable {mac key}

theorem verified_iff (hr : db.records.find id = some r) :
    Verified mac key id db ↔ Intact mac key r := by
  constructor
  · intro h
    exact ((verifyIntegrity_during hr fun _ => false).mp (h.2 _ rfl)).2
  · intro h
    exact ⟨⟨r, hr⟩, fun fails hfails => (verifyIntegrity_during hr fails).mpr ⟨hfails, h⟩⟩

theorem verified_call_iff (h : Verified mac key id db) (c : RecordCall) :
    Verified mac key id (call mac key db c).2 ↔ KeepsVerified mac key id db c := by
  obtain ⟨r, hr⟩ := h.1
  have hid := id_of_find hr
  have hkey : key ≠ [] := ((verified_iff hr).mp h).1
  rw [verified_iff (find_call hr c)]
  by_cases hwrites : ∃ entry, c.Writes id entry
  · obtain ⟨entry, hc⟩ := hwrites
    rw [intact_rowAfter_iff (hid.symm ▸ hc), hid, and_iff_right hkey, KeepsVerified,
      forall_writes_iff hr hc]
  · have hnot : ∀ entry, ¬ c.Writes r.id entry := fun entry hc => hwrites ⟨entry, hid ▸ hc⟩
    rw [rowAfter_of_not_writes hnot, ← verified_iff hr]
    exact iff_of_true h fun entry _ hc => absurd ⟨entry, hc⟩ hwrites

end SignatureRepository

namespace SignatureDispatcher

open SignatureRepository

variable {mac : Hmac} {kdf : DbKeyDerivation} {kek key : Bytes} {worker : Bool}
  {id outboxId : String} {nowTicks : Int} {companion : Option Companion}
  {input : SignatureDispatchInput} {db db' : Db} {out : Option SignatureRecord}

theorem columns_row (hnul : ∀ c ∈ givenColumns (row id companion input), '\x00' ∉ c.toList) :
    (row id companion input).columns = givenColumns (row id companion input) := by
  have htext : ∀ c ∈ givenColumns (row id companion input), readText c = c := fun c hc =>
    readText_eq_self (hnul c hc)
  simp only [givenColumns, List.forall_mem_cons] at htext
  obtain ⟨hid, -, -, htoken, hkey, hfinger, hmech, hdigest, hsig, hsession, huser, happ, -⟩ := htext
  simp only [SignatureRow.columns, givenColumns, hid, htoken, hkey, hfinger, hmech, hdigest, hsig,
    hsession, huser, happ]
  rfl

/-- A dispatched row verifies exactly when there was a key for its hash. -/
theorem intact_dispatch (hnul : ∀ c ∈ givenColumns (row id companion input), '\x00' ∉ c.toList) :
    Intact mac key ((row id companion input).withHmac
      ((RowIntegrity.computeHmac mac key (givenColumns (row id companion input))).getD "")) ↔
      key ≠ [] := by
  refine ⟨And.left, fun hkey => ⟨hkey, ?_⟩⟩
  rw [RowIntegrity.computeHmac, if_neg hkey, Option.getD_some, ← columns_row hnul]
  exact readText_eq_self (mac.notMem_hex _ _)

/-- A dispatched row verifies, and keeps verifying, exactly when the token has a key-encryption
key and every update of the row also brings its hash up to date. -/
theorem verified_always_iff
    (hdispatch : dispatch mac (DbHmacKey.getKey kdf kek) worker id outboxId nowTicks companion
      input db = (true, out, db'))
    (hnul : ∀ c ∈ givenColumns (row id companion input), '\x00' ∉ c.toList)
    (calls : List RecordCall) :
    CS.Always (call mac (DbHmacKey.getKey kdf kek)) (Verified mac (DbHmacKey.getKey kdf kek) id)
        db' calls ↔
      kek ≠ [] ∧ CS.Guarded (call mac (DbHmacKey.getKey kdf kek))
        (KeepsVerified mac (DbHmacKey.getKey kdf kek) id) db' calls := by
  have hstart : Verified mac (DbHmacKey.getKey kdf kek) id db' ↔ kek ≠ [] := by
    rw [verified_iff (find_of_dispatch hdispatch), intact_dispatch hnul, DbHmacKey.getKey_ne_nil]
  have hrun := @CS.always_iff_guarded _ _ _ (call mac (DbHmacKey.getKey kdf kek)) db' calls
    (KeepsVerified mac (DbHmacKey.getKey kdf kek) id) (Verified mac (DbHmacKey.getKey kdf kek) id)
    (fun _ c hs => verified_call_iff hs c)
  constructor
  · intro halways
    exact ⟨hstart.mp halways.start, (hrun halways.start).mp halways⟩
  · rintro ⟨hkek, hguard⟩
    exact (hrun (hstart.mpr hkek)).mpr hguard

/-- A constant instead of a derived key, for runs on fixed inputs. -/
def fixedKey : DbKeyDerivation := ⟨fun _ => List.replicate 32 1, fun _ => List.length_replicate⟩

/-- A signature by an unnamed user. -/
def someInput : SignatureDispatchInput where
  signResult := { signature := [1], mechanismStr := "m", digestAlg := "d", payloadDigest := "00"
                  payloadSize := 1 }
  createdAt := 1
  slotId := 0
  tokenLabel := [116]
  keyId := "k"
  keyFingerprint := "f"
  mechanism := "m"
  digestAlgorithm := "d"
  sessionHandle := "1"

/-- What dispatching it to an empty table leaves. -/
def someDispatch (kek : Bytes) : Bool × Option SignatureRecord × Db :=
  dispatch checksum (DbHmacKey.getKey fixedKey kek) false "r" "e" 0 none someInput
    { records := CS.KeyedTable.empty }

theorem verified_someDispatch :
    CS.Always (call checksum (DbHmacKey.getKey fixedKey [1]))
      (Verified checksum (DbHmacKey.getKey fixedKey [1]) "r") (someDispatch [1]).2.2
      [{ op := .updateLedgerFields "r" someEntry }, { op := .markProcessing "r" }] := by
  have hdispatch : dispatch checksum (DbHmacKey.getKey fixedKey [1]) false "r" "e" 0 none someInput
      { records := CS.KeyedTable.empty } = (true, none, (someDispatch [1]).2.2) := rfl
  refine (verified_always_iff hdispatch ?_ _).mpr ⟨by decide, ?_, ?_, trivial⟩
  · decide +kernel
  · intro entry r hc hr
    exact .inl ⟨rfl, rfl⟩
  · intro entry r hc hr
    simp [RecordCall.Writes] at hc

/-- Without a key-encryption key the dispatch succeeds and the row does not verify. -/
theorem not_verified_withoutKek :
    (someDispatch []).1 = true ∧
      ¬ Verified checksum (DbHmacKey.getKey fixedKey []) "r" (someDispatch []).2.2 := by
  refine ⟨rfl, fun h => ?_⟩
  obtain ⟨r, hr⟩ := h.1
  exact ((verified_iff hr).mp h).1 rfl

end SignatureDispatcher

end VirtualHsm
