import VirtualHsm.CS.Fields
import VirtualHsm.SignatureStore.RowHistory

/-!
# What the hash of a row covers

The hash of a row is taken over 18 columns, each with its length in front, so it determines these
columns. The three columns of the companion signature were added to the table later. They are
written with the row and handed out with it, and the hash does not cover them.

A changed row is given by the texts that a query returns for it, of whatever type the values are
that stand in the table.
-/

namespace VirtualHsm

/-! ### The hashed bytes -/

namespace RowIntegrity

/-- What the loop appends for a column: its length cut to 32 bits, most significant byte first, and
its bytes. An absent column has length 0 and no bytes. -/
def columnBytes (c : Option Bytes) : Bytes :=
  let len : UInt32 := c.elim 0 (·.length.toUInt32)
  [(len >>> 24 &&& 0xFF).toUInt8, (len >>> 16 &&& 0xFF).toUInt8, (len >>> 8 &&& 0xFF).toUInt8,
    (len &&& 0xFF).toUInt8] ++ c.getD []

/-- What `compute_hmac` hashes, for columns that hold any bytes or are absent. -/
def hashedBytes (cols : List (Option Bytes)) : Bytes := cols.flatMap columnBytes

/-- Bytes with their number in front. -/
def framed (bs : Bytes) : Bytes := (CS.toLe 4 (bs.length % 2 ^ 32)).reverse ++ bs

theorem bigEndian_eq (len : UInt32) :
    [(len >>> 24 &&& 0xFF).toUInt8, (len >>> 16 &&& 0xFF).toUInt8, (len >>> 8 &&& 0xFF).toUInt8,
      (len &&& 0xFF).toUInt8] = (CS.toLe 4 len.toNat).reverse := by
  have hbyte (n : Nat) : n &&& 255 = n % 256 := Nat.and_two_pow_sub_one_eq_mod n 8
  have hlt := len.toNat_lt
  simp only [CS.toLe, List.reverse_cons, List.reverse_nil, List.nil_append, List.cons_append,
    List.cons.injEq, and_true, ← UInt8.toNat_inj, UInt32.toNat_toUInt8, UInt32.toNat_and,
    UInt32.toNat_shiftRight, UInt32.reduceToNat, UInt8.toNat_ofNat', Nat.reduceMod, hbyte,
    Nat.shiftRight_eq_div_pow]
  omega

theorem columnBytes_eq (c : Option Bytes) : columnBytes c = framed (c.getD []) := by
  cases c with
  | none => rfl
  | some bs => rw [columnBytes, bigEndian_eq]; rfl

theorem hashedBytes_eq (cols : List (Option Bytes)) :
    hashedBytes cols = (cols.map (·.getD [])).flatMap framed := by
  rw [hashedBytes, funext columnBytes_eq, List.flatMap_map]

/-- The columns of a row are texts, and none is absent. -/
theorem concatenated_eq (cols : List String) :
    concatenated cols = hashedBytes (cols.map fun c => some c.toUTF8.toList) := by
  rw [hashedBytes_eq, List.map_map, List.flatMap_map]
  simp only [concatenated, framed, Function.comp_apply, Option.getD_some, length_toUTF8_toList]

/-- Bytes with their number in front can be cut off, when the number fits. -/
theorem framed_cut (c d s t : Bytes) (hc : c.length < 2 ^ 32) (hd : d.length < 2 ^ 32)
    (h : framed c ++ s = framed d ++ t) : c = d ∧ s = t := by
  rw [framed, framed, List.append_assoc, List.append_assoc, Nat.mod_eq_of_lt hc,
    Nat.mod_eq_of_lt hd] at h
  have hwidth : (CS.toLe 4 c.length).reverse.length = (CS.toLe 4 d.length).reverse.length := by simp
  obtain ⟨hlength, hrest⟩ := List.append_inj h hwidth
  -- Equal lengths, so both end at the same place.
  have hsize : c.length = d.length := CS.toLe_inj_of_lt hc hd (List.reverse_inj.mp hlength)
  exact List.append_inj hrest hsize

theorem framed_ne_nil (bs : Bytes) : framed bs ≠ [] := by
  simp [framed, CS.toLe]

/-- The hashed bytes determine the columns, but for an absent column and an empty one. -/
theorem getD_eq_of_hashedBytes_eq {cols cols' : List (Option Bytes)}
    (hcols : ∀ c ∈ cols, (c.getD []).length < 2 ^ 32)
    (hcols' : ∀ c ∈ cols', (c.getD []).length < 2 ^ 32)
    (h : hashedBytes cols = hashedBytes cols') :
    cols.map (·.getD []) = cols'.map (·.getD []) := by
  rw [hashedBytes_eq, hashedBytes_eq] at h
  exact CS.flatMap_inj framed_cut framed_ne_nil (List.forall_mem_map.mpr hcols)
    (List.forall_mem_map.mpr hcols') h

/-- Equal hashed bytes come from equally many columns. -/
theorem columns_eq_of_hashedBytes_eq {cols cols' : List (Option Bytes)}
    (hcols : ∀ c ∈ cols, (c.getD []).length < 2 ^ 32)
    (hcols' : ∀ c ∈ cols', (c.getD []).length < 2 ^ 32)
    (h : hashedBytes cols = hashedBytes cols') :
    cols.length = cols'.length ∧ cols.map (·.getD []) = cols'.map (·.getD []) := by
  have hmap := getD_eq_of_hashedBytes_eq hcols hcols' h
  exact ⟨by simpa using congrArg List.length hmap, hmap⟩

/-- An absent column and an empty one are hashed alike. -/
theorem columns_eq_of_hashedBytes_absent :
    hashedBytes [some [0], none] = hashedBytes [some [0], some []] ∧
      [some [0], none].map (·.getD []) = [some ([0] : Bytes), some []].map (·.getD []) :=
  ⟨rfl, (columns_eq_of_hashedBytes_eq (by decide) (by decide) rfl).2⟩

theorem concatenated_inj {cols cols' : List String} (hcols : ∀ c ∈ cols, c.utf8ByteSize < 2 ^ 32)
    (hcols' : ∀ c ∈ cols', c.utf8ByteSize < 2 ^ 32)
    (h : concatenated cols = concatenated cols') : cols = cols' := by
  have hshort {cols : List String} (hcols : ∀ c ∈ cols, c.utf8ByteSize < 2 ^ 32) :
      ∀ c ∈ cols.map fun c => some c.toUTF8.toList, (c.getD []).length < 2 ^ 32 := by
    refine List.forall_mem_map.mpr fun c hc => ?_
    rw [Option.getD_some, length_toUTF8_toList]
    exact hcols c hc
  rw [concatenated_eq, concatenated_eq] at h
  have hmap := getD_eq_of_hashedBytes_eq (hshort hcols) (hshort hcols') h
  rw [List.map_map, List.map_map] at hmap
  exact List.map_injective_iff.mpr (fun _ _ => toUTF8_toList_inj) hmap

end RowIntegrity

/-! ### Changed rows -/

/-- The columns of a row other than its hash as a query returns them: without null characters, and
far shorter than the lengths in front of them can say. -/
structure RowTexts where
  covered : List String
  companion : List String
  length_covered : covered.length = 18
  length_companion : companion.length = 3
  readable : ∀ c ∈ covered ++ companion, '\x00' ∉ c.toList
  short : ∀ c ∈ covered ++ companion, c.utf8ByteSize < 2 ^ 32

namespace SignatureRow

variable (mac : Hmac) (key : Bytes) (r : SignatureRow)

/-- `verify_integrity` when a query returns other columns for the row, and its hash as it was. -/
def verifiesAs (t : RowTexts) : Bool :=
  RowIntegrity.verifyHmac mac key t.covered (readText r.integrityHmac)

/-- A row whose columns read differently does not verify. -/
def CoversRow : Prop :=
  ∀ t : RowTexts, t.covered ++ t.companion ≠ r.columns ++ r.pqcColumns →
    r.verifiesAs mac key t = false

variable {mac key r}

/-- For a row of the table this is what the repository answers. -/
theorem verifiesAs_eq {db : Db} {id : String} {r' : SignatureRow} {t : RowTexts}
    (hfails : db.fails (.selectIntegrity id) = false) (hr' : db.records.find id = some r')
    (hhmac : r'.integrityHmac = r.integrityHmac) (ht : t.covered = r'.columns) :
    SignatureRepository.verifyIntegrity mac key db id = r.verifiesAs mac key t := by
  have hselect : db.select .selectIntegrity id = some r' := by
    rw [Db.select, hfails]
    exact hr'
  rw [SignatureRepository.verifyIntegrity, hselect, Option.elim_some, verifiesAs, ht, hhmac]

end SignatureRow

namespace SignatureDispatcher

variable {mac : Hmac} {key : Bytes} {worker : Bool} {id outboxId : String} {nowTicks : Int}
  {companion : Option Companion} {input : SignatureDispatchInput} {db db' : Db}
  {out : Option SignatureRecord} {r : SignatureRow}

/-- A hash that tells one text from all others, for runs on fixed inputs. -/
def marking (genuine : Bytes) : Hmac where
  sha256 _ data := List.replicate 32 (if data = genuine then 0 else 1)
  length_sha256 _ _ := List.length_replicate

theorem eq_of_marking {genuine data key : Bytes}
    (h : (marking genuine).hex key data = (marking genuine).hex key genuine) : data = genuine := by
  by_contra hne
  simp only [Hmac.hex, marking, if_neg hne, if_true] at h
  revert h
  decide +kernel

/-- A signature with a companion, and what was handed to the hash for it. -/
def pairedRow : SignatureRow := row "r" (some ⟨[1], some [2]⟩) someInput

def pairedMac : Hmac := marking (RowIntegrity.concatenated (givenColumns pairedRow))

/-- What dispatching it to an empty table leaves. -/
def pairedDispatch : Bool × Option SignatureRecord × Db :=
  dispatch pairedMac [1] false "r" "e" 0 (some ⟨[1], some [2]⟩) someInput
    { records := CS.KeyedTable.empty }

/-- The columns of the row with another digest and another companion signature. -/
def pairedTexts (digest companionSignature : String) (h : '\x00' ∉ digest.toList ∧
    digest.utf8ByteSize < 2 ^ 32 ∧ '\x00' ∉ companionSignature.toList ∧
    companionSignature.utf8ByteSize < 2 ^ 32) : RowTexts where
  covered := ["r", "1", "0", "t", "k", "f", "m", digest, "AQ==", "1", "", "", "", "0", "", "", "",
    "PENDING"]
  companion := ["DILITHIUM3", companionSignature, "Ag=="]
  length_covered := rfl
  length_companion := rfl
  readable := by simp [h.1, h.2.2.1]
  short := by
    simp only [List.cons_append, List.nil_append, List.forall_mem_cons, h.2.1, h.2.2.2, true_and]
    decide +kernel

end SignatureDispatcher

end VirtualHsm
